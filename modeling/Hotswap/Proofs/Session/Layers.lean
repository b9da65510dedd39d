import Hotswap.Proofs.Machine.RoundTrip
import Hotswap.Proofs.Session.Stored

/-!
# Patches over patches

An entry can be redirected again and again, and its bytes hold one trampoline.  That trampoline is
the newest one.  The log of a run (`Rig.redirected`, one moment after the other) lists the pairs
that were redirected, and memory is compared with the log:

    newest? log entry      the last pair of the entry in the log
    Follows arch log m     every entry of the log leads where its newest pair says

The comparison needs that the trampolines over two entries share no byte, or are over one entry
(`Spaced`).  Then a trampoline that is stored overrides what the log said about its own entry and
leaves all others alone (`Follows.store`).  Pages play no part: whether two entries lie on one page,
or one of them across two, is the business of the window.
-/

namespace Hotswap

open Machine (Address Arch)
open Entity (Pair PairingError Table)

variable {σ ε : Type}

/-! ## The pairs that were redirected -/

theorem Event.writes_eq_filter_tries (trace : List Event) :
    writes trace = ((tries trace).filter Try.accepted).map fun t => (t.address, t.bytes) := by
  induction trace with
  | nil => rfl
  | cons event trace ih =>
      cases event with
      | note record => exact ih
      | attempt address bytes accepted =>
          cases accepted with
          | true => exact congrArg _ ih
          | false => exact ih

namespace Rig

/-- The write of the trampoline of this pair. -/
def Writes (rig : Rig σ ε) (pair : Pair) (write : Address × List UInt8) : Prop :=
  write.1 = pair.base ∧ rig.encode pair.patch = .ok write.2

/-- The pairs of the tables that are applied at a moment, if they pair up. -/
def paired (rig : Rig σ ε) (m : Moment σ) : List Pair :=
  match rig.applied m.session m.call with
  | none => []
  | some (base, patch) =>
    match base.pairing patch with
    | .error _ => []
    | .ok pairs => pairs

/-- The pairs that are redirected at a moment.  They are the first ones, as many as there are
accepted writes, since the loop goes on to the next pair only after such a write. -/
def redirected (rig : Rig σ ε) (m : Moment σ) : List Pair :=
  (rig.paired m).take ((Event.tries (rig.perform m.session m.call).trace).countP Try.accepted)

variable {rig : Rig σ ε} {entity : String} {pairs : List Pair} {base patch : Table}
  {tries : List Try} {s s' : σ}

/-- The accepted writes of the loop are those of the first pairs, one each. -/
theorem Redirects.forall₂_accepted {answer : Ending (PatchError ε) Unit}
    (h : rig.Redirects entity pairs s tries answer s') :
    List.Forall₂ rig.Writes (pairs.take (tries.countP Try.accepted))
      ((tries.filter Try.accepted).map fun t => (t.address, t.bytes)) := by
  induction h with
  | done => exact .nil
  | @next pair pairs s s' code tries answer _ hcode _ _ ih =>
      have hcount : (⟨pair.base, code, true⟩ :: tries).countP Try.accepted
          = tries.countP Try.accepted + 1 := List.countP_cons_of_pos rfl
      rw [hcount, List.take_succ_cons, List.filter_cons_of_pos rfl, List.map_cons]
      exact .cons ⟨rfl, hcode⟩ ih
  | same _ => exact .nil
  | unreachable _ _ => exact .nil
  | refused _ _ _ => exact .nil

theorem Applies.forall₂_accepted {answer : Ending (PatchError ε) Nat}
    (h : rig.Applies base patch s tries answer s') (hpairing : base.pairing patch = .ok pairs) :
    List.Forall₂ rig.Writes (pairs.take (tries.countP Try.accepted))
      ((tries.filter Try.accepted).map fun t => (t.address, t.bytes)) := by
  cases h with
  | rejected hnot => cases hnot.symm.trans hpairing
  | same _ _ => exact .nil
  | redirected hpairing' _ hloop =>
      cases hpairing'.symm.trans hpairing
      exact hloop.forall₂_accepted
  | stopped hpairing' _ hloop =>
      cases hpairing'.symm.trans hpairing
      exact hloop.forall₂_accepted
  | aborted hpairing' _ hloop =>
      cases hpairing'.symm.trans hpairing
      exact hloop.forall₂_accepted

theorem Applies.of_rejected {answer : Ending (PatchError ε) Nat} {cause : PairingError}
    (h : rig.Applies base patch s tries answer s') (hpairing : base.pairing patch = .error cause) :
    answer = .error (.pairing cause) ∧ tries = [] ∧ s' = s := by
  cases h with
  | rejected hnot =>
      cases hnot.symm.trans hpairing
      exact ⟨rfl, rfl, rfl⟩
  | same hok _ => cases hpairing.symm.trans hok
  | redirected hok _ _ => cases hpairing.symm.trans hok
  | stopped hok _ _ => cases hpairing.symm.trans hok
  | aborted hok _ _ => cases hpairing.symm.trans hok

theorem paired_of_applied {m : Moment σ}
    (happlied : rig.applied m.session m.call = some (base, patch))
    (hpairing : base.pairing patch = .ok pairs) : rig.paired m = pairs := by
  simp only [paired, happlied, hpairing]

theorem forall₂_redirected (rig : Rig σ ε) (m : Moment σ) :
    List.Forall₂ rig.Writes (rig.redirected m)
      (Event.writes (rig.perform m.session m.call).trace) := by
  rw [Event.writes_eq_filter_tries, redirected]
  cases happlied : rig.applied m.session m.call with
  | none =>
      rw [(perform_of_not_applied happlied).2.1, List.countP_nil, List.take_zero]
      exact .nil
  | some tables =>
      obtain ⟨base, patch⟩ := tables
      have happlies := rig.apply_applies base patch m.session.writer
      rw [(perform_of_applied happlied).2.1]
      cases hpairing : base.pairing patch with
      | ok pairs =>
          rw [paired_of_applied happlied hpairing]
          exact happlies.forall₂_accepted hpairing
      | error cause =>
          obtain ⟨-, hnone, -⟩ := happlies.of_rejected hpairing
          rw [hnone, List.countP_nil, List.take_zero]
          exact .nil

end Rig

/-! ## The newest pair of an entry -/

/-- The last pair of the entry in the log. -/
def newest? (log : List Pair) (entry : Address) : Option Pair :=
  (log.filter fun p => p.base == entry).getLast?

theorem newest?_snoc_self (log : List Pair) (pair : Pair) :
    newest? (log ++ [pair]) pair.base = some pair := by
  rw [newest?, List.filter_append, List.filter_singleton, beq_self_eq_true]
  exact List.getLast?_concat

theorem newest?_snoc_of_ne {log : List Pair} {pair : Pair} {entry : Address}
    (h : entry ≠ pair.base) : newest? (log ++ [pair]) entry = newest? log entry := by
  rw [newest?, List.filter_append, List.filter_singleton, beq_false_of_ne (Ne.symm h)]
  exact congrArg List.getLast? (List.append_nil _)

theorem mem_of_newest? {log : List Pair} {entry : Address} {pair : Pair}
    (h : newest? log entry = some pair) : pair ∈ log ∧ pair.base = entry := by
  have hmem := List.mem_of_getLast? h
  rw [List.mem_filter, beq_iff_eq] at hmem
  exact hmem

theorem exists_newest {log : List Pair} {entry : Address} (h : entry ∈ log.map Pair.base) :
    ∃ pair, newest? log entry = some pair := by
  obtain ⟨pair, hpair, hbase⟩ := List.mem_map.mp h
  have hmem : pair ∈ log.filter fun p => p.base == entry :=
    List.mem_filter.mpr ⟨hpair, beq_iff_eq.mpr hbase⟩
  exact ⟨_, List.getLast?_eq_some_getLast (List.ne_nil_of_mem hmem)⟩

/-! ## Entries that keep out of each other's way -/

/-- The trampolines over these entries keep clear of the end of the address space, and those over
two of them share no byte. -/
structure Spaced [Paging] (length : Nat) (entries : List Address) : Prop where
  clear : ∀ a ∈ entries, ClearOfEnd a length
  apart : ∀ a ∈ entries, ∀ b ∈ entries,
    a = b ∨ a.toNat + length ≤ b.toNat ∨ b.toNat + length ≤ a.toNat

-- over the list, since addresses are finite as well and cannot be searched
instance [Paging] (length : Nat) (entries : List Address) : Decidable (Spaced length entries) :=
  decidable_of_iff
    ((entries.all fun a => decide (ClearOfEnd a length)) = true ∧
      (entries.all fun a => entries.all fun b => decide
        (a = b ∨ a.toNat + length ≤ b.toNat ∨ b.toNat + length ≤ a.toNat)) = true)
    (by
      simp only [List.all_eq_true, decide_eq_true_eq]
      exact ⟨fun ⟨hclear, hapart⟩ => ⟨hclear, hapart⟩, fun h => ⟨h.clear, h.apart⟩⟩)

namespace Memory

theorem load_store_of_apart [Paging] {m : Memory} {a b : Address} {bytes : List UInt8} {n : Nat}
    (ha : ClearOfEnd a bytes.length) (hb : ClearOfEnd b n)
    (h : a.toNat + bytes.length ≤ b.toNat ∨ b.toNat + n ≤ a.toNat) :
    (m.store a bytes).load b n = m.load b n := by
  unfold load
  refine List.map_congr_left fun i hi => byte_store_of_not_spans fun hspans => ?_
  have hi := List.mem_range.mp hi
  rw [ha.spans_iff, hb.toNat_add hi] at hspans
  omega

/-- Every entry in the log leads where its newest pair says. -/
def Follows (arch : Arch) (log : List Pair) (m : Memory) : Prop :=
  ∀ entry pair, newest? log entry = some pair →
    arch.target (m.load entry arch.trampolineLength) = .ok pair.patch

variable {arch : Arch} {entries : List Address} {log : List Pair} {m : Memory}

theorem Follows.nil (arch : Arch) (m : Memory) : Follows arch [] m := by
  intro entry pair hnone
  cases hnone

theorem Follows.store [Paging] {pair : Pair} {code : List UInt8} (h : Follows arch log m)
    (hspaced : Spaced arch.trampolineLength entries) (hlog : ∀ p ∈ log, p.base ∈ entries)
    (hpair : pair.base ∈ entries) (hcode : arch.trampoline pair.patch = .ok code) :
    Follows arch (log ++ [pair]) (m.store pair.base code) := by
  intro entry newest hnewest
  have hlength : code.length = arch.trampolineLength := Arch.length_of_trampoline hcode
  by_cases hentry : entry = pair.base
  · -- the entry that was written just now
    subst hentry
    rw [newest?_snoc_self, Option.some.injEq] at hnewest
    subst hnewest
    have hshort : code.length ≤ UInt64.size := by
      rw [hlength]
      cases arch <;> decide
    rw [← hlength, load_store hshort]
    exact Arch.target_of_trampoline hcode
  · -- an entry that the log knows already, and that is not written
    rw [newest?_snoc_of_ne hentry] at hnewest
    obtain ⟨hmem, hbase⟩ := mem_of_newest? hnewest
    have hmem : entry ∈ entries := hbase ▸ hlog newest hmem
    have hapart := (hspaced.apart _ hpair _ hmem).resolve_left (Ne.symm hentry)
    have hclear : ClearOfEnd pair.base code.length := hlength ▸ hspaced.clear _ hpair
    rw [load_store_of_apart hclear (hspaced.clear _ hmem) (hlength ▸ hapart)]
    exact h entry newest hnewest

/-- Storing the trampolines of some pairs puts these pairs at the end of the log. -/
theorem Follows.storeAll [Paging] {writer : Writer σ ε} {policy : Policy} {pairs : List Pair}
    {tries : List Try} (h : Follows arch log m) (hspaced : Spaced arch.trampolineLength entries)
    (hlog : ∀ p ∈ log, p.base ∈ entries) (hpairs : ∀ p ∈ pairs, p.base ∈ entries)
    (hwrites : List.Forall₂ (Rig.mk arch.trampoline writer policy).Writes pairs
      ((tries.filter Try.accepted).map fun t => (t.address, t.bytes))) :
    (m.storeAll tries).Follows arch (log ++ pairs) := by
  induction tries generalizing m log pairs with
  | nil =>
      cases hwrites
      rwa [List.append_nil]
  | cons t tries ih =>
      cases haccepted : t.accepted with
      | false =>
          rw [List.filter_cons_of_neg (Bool.not_eq_true _ ▸ haccepted)] at hwrites
          rw [storeAll_cons_of_refused haccepted]
          exact ih h hlog hpairs hwrites
      | true =>
          rw [List.filter_cons_of_pos haccepted, List.map_cons] at hwrites
          obtain ⟨pair, rest, ⟨hbase, hcode⟩, hrest, rfl⟩ := List.forall₂_cons_right_iff.mp hwrites
          have hpair := hpairs pair List.mem_cons_self
          have hlog' : ∀ p ∈ log ++ [pair], p.base ∈ entries := by
            intro p hp
            rcases List.mem_append.mp hp with hp | hp
            · exact hlog p hp
            · cases List.mem_singleton.mp hp
              exact hpair
          rw [storeAll_cons_of_accepted haccepted, List.append_cons]
          have hbase : t.address = pair.base := hbase
          rw [hbase]
          exact ih (h.store hspaced hlog hpair hcode) hlog'
            (fun p hp => hpairs p (List.mem_cons_of_mem _ hp)) hrest

end Memory

/-! ## Live memory follows the log -/

namespace Rig

variable [Paging] {arch : Arch} {policy : Policy} {entries : List Address} {log : List Pair}

theorem perform_follows {s : Session Memory} {call : Call}
    (hspaced : Spaced arch.trampolineLength entries)
    (hpairs : ∀ p ∈ (live arch policy).paired ⟨s, call⟩, p.base ∈ entries)
    (hlog : ∀ p ∈ log, p.base ∈ entries) (hfollows : s.writer.Follows arch log) :
    ((live arch policy).perform s call).state.writer.Follows arch
      (log ++ (live arch policy).redirected ⟨s, call⟩) := by
  have hwrites := (live arch policy).forall₂_redirected ⟨s, call⟩
  rw [Event.writes_eq_filter_tries] at hwrites
  rw [writer_perform_live]
  exact hfollows.storeAll hspaced hlog (fun p hp => hpairs p (List.mem_of_mem_take hp)) hwrites

theorem follows_snoc {past : List (Moment Memory)} {m : Moment Memory}
    (hspaced : Spaced arch.trampolineLength entries)
    (hpairs : ∀ x ∈ past ++ [m], ∀ p ∈ (live arch policy).paired x, p.base ∈ entries)
    (hpast : m.session.writer.Follows arch (past.flatMap (live arch policy).redirected)) :
    ((live arch policy).perform m.session m.call).state.writer.Follows arch
      ((past ++ [m]).flatMap (live arch policy).redirected) := by
  rw [List.flatMap_append, List.flatMap_singleton]
  refine perform_follows hspaced
    (hpairs _ (List.mem_append_right _ (List.mem_singleton_self _))) (fun p hp => ?_) hpast
  obtain ⟨x, hx, hp⟩ := List.mem_flatMap.mp hp
  exact hpairs x (List.mem_append_left _ hx) p (List.mem_of_mem_take hp)

theorem Reaches.follows {start s : Session Memory} {past : List (Moment Memory)}
    (h : (live arch policy).Reaches start past s) (hspaced : Spaced arch.trampolineLength entries)
    (hpairs : ∀ m ∈ past, ∀ p ∈ (live arch policy).paired m, p.base ∈ entries) :
    s.writer.Follows arch (past.flatMap (live arch policy).redirected) := by
  induction h with
  | start => exact .nil arch _
  | call call _ _ ih =>
      exact follows_snoc hspaced hpairs (ih fun m hm => hpairs m (List.mem_append_left _ hm))

/-- After each call of a run, also one that stops the process. -/
theorem trail_follows {start : Session Memory} {calls : List Call} {i : Nat} {m : Moment Memory}
    (hm : ((live arch policy).trail start calls)[i]? = some m)
    (hspaced : Spaced arch.trampolineLength
      ((((live arch policy).trail start calls).flatMap (live arch policy).paired).map Pair.base)) :
    ((live arch policy).perform m.session m.call).state.writer.Follows arch
      ((((live arch policy).trail start calls).take (i + 1)).flatMap
        (live arch policy).redirected) := by
  have hpairs : ∀ m ∈ (live arch policy).trail start calls, ∀ p ∈ (live arch policy).paired m,
      p.base ∈ (((live arch policy).trail start calls).flatMap (live arch policy).paired).map
        Pair.base :=
    fun m hm p hp => List.mem_map_of_mem (List.mem_flatMap.mpr ⟨m, hm, hp⟩)
  have hupto : ((live arch policy).trail start calls).take (i + 1)
      = ((live arch policy).trail start calls).take i ++ [m] := by
    rw [List.take_add_one, hm]
    rfl
  have hreaches : (live arch policy).Reaches start (((live arch policy).trail start calls).take i)
      m.session := Reaches.start.of_trail hm
  rw [hupto]
  refine follows_snoc hspaced (fun x hx => hpairs x ?_)
    (hreaches.follows hspaced fun x hx => hpairs x (List.mem_of_mem_take hx))
  rw [← hupto] at hx
  exact List.mem_of_mem_take hx

end Rig

/-! ## The newest layer -/

/-- **The newest layer is the one that runs.**  For every instruction set, policy and memory, and
every run whose paired entries are spaced: after each call, whatever it answered, the log of the
pairs redirected so far accounts for the accepted writes one by one, and the bytes over an entry
that was written are a trampoline to the destination of its newest pair. -/
theorem Rig.newest_layer_decodes [Paging] (arch : Arch) (policy : Policy)
    (start : Session Memory) (calls : List Call)
    (hspaced : Spaced arch.trampolineLength
      ((((live arch policy).trail start calls).flatMap (live arch policy).paired).map Pair.base)) :
    ∀ i e, ((live arch policy).run start calls)[i]? = some e →
      let log := (((live arch policy).trail start calls).take (i + 1)).flatMap
        (live arch policy).redirected
      let writes := (((live arch policy).run start calls).take (i + 1)).flatMap fun e =>
        Event.writes e.trace
      List.Forall₂ (fun pair write =>
          write.1 = pair.base ∧ arch.trampoline pair.patch = .ok write.2) log writes
      ∧ ∀ entry ∈ writes.map Prod.fst, ∃ pair, newest? log entry = some pair
        ∧ arch.target (e.state.writer.load entry arch.trampolineLength) = .ok pair.patch := by
  intro i e he log writes
  rw [run_eq_map_trail, List.getElem?_map] at he
  obtain ⟨m, hm, rfl⟩ := Option.map_eq_some_iff.mp he
  have hlog : List.Forall₂ (live arch policy).Writes log writes := by
    simp only [log, writes, run_eq_map_trail, ← List.map_take, List.flatMap_map]
    refine List.rel_flatMap (R := (· = ·)) (List.forall₂_refl _) ?_
    rintro m - rfl
    exact (live arch policy).forall₂_redirected m
  have hentries : log.map Pair.base = writes.map Prod.fst := by
    rw [← List.forall₂_eq_eq_eq, List.forall₂_map_left_iff, List.forall₂_map_right_iff]
    exact hlog.imp fun pair write h => h.1.symm
  refine ⟨hlog, fun entry hentry => ?_⟩
  obtain ⟨pair, hpair⟩ := exists_newest (hentries ▸ hentry)
  exact ⟨pair, hpair, trail_follows hm hspaced entry pair hpair⟩

/-- Two entries on one page, one of which reaches onto the next.  The second patch redirects `a`
again and then fails at a sealed page: `a` leads to the new body, and `b` still to its first. -/
theorem Rig.newest_layer_decodes_after_refusal :
    let plain : Entity.Shape := ⟨none, [], .unit⟩
    let base := (((Table.empty (.bare ⟨"S", 8, 8⟩)).define "a" plain 0x1100).define "b" plain
      0x1FF8).define "c" plain 0x3000
    let empty := Table.empty (.overlay ⟨"P", 8, 8⟩ 0 (.bare ⟨"S", 8, 8⟩))
    let first := (empty.override "a" plain 0x7000).override "b" plain 0x7100
    let second := (empty.override "a" plain 0x8000).override "c" plain 0x8100
    let page : Page := .mapped ⟨true, false, true⟩
    let memory : Memory := (((⟨fun _ => 0, fun _ => .unmapped⟩ : Memory).setPage 0x1000
      page).setPage 0x2000 page).setPage 0x3000 (.sealed ⟨true, false, true⟩)
    let rig := live .x64 { abortOnFault := false }
    let calls : List Call := [.apply base first, .apply base second]
    Spaced 13 (((rig.trail (.fresh memory) calls).flatMap rig.paired).map Pair.base)
      ∧ ∃ e, (rig.run (.fresh memory) calls)[1]? = some e
        ∧ e.answer = .error (.install "S" "c" 0x3000 (.refused 0x3000))
        ∧ Arch.target .x64 (e.state.writer.load 0x1100 13) = .ok 0x8000
        ∧ Arch.target .x64 (e.state.writer.load 0x1FF8 13) = .ok 0x7100 := by
  intro plain base empty first second page memory rig calls
  have hentries : ((rig.trail (.fresh memory) calls).flatMap rig.paired).map Pair.base
      = [0x1100, 0x1FF8, 0x1100, 0x3000] := by decide
  have hspaced : Spaced 13
      (((rig.trail (.fresh memory) calls).flatMap rig.paired).map Pair.base) := by
    rw [hentries]
    decide
  have hrun : ((rig.run (.fresh memory) calls)[1]?.map Effect.answer)
      = some (.error (.install "S" "c" 0x3000 (.refused 0x3000))) := by decide
  have hlog : ((rig.trail (.fresh memory) calls).take 2).flatMap rig.redirected
      = [⟨"a", 0x1100, 0x7000⟩, ⟨"b", 0x1FF8, 0x7100⟩, ⟨"a", 0x1100, 0x8000⟩] := by decide
  have hwrites : (((rig.run (.fresh memory) calls).take 2).flatMap fun e =>
      Event.writes e.trace).map Prod.fst = [0x1100, 0x1FF8, 0x1100] := by decide
  obtain ⟨e, he, hanswer⟩ := Option.map_eq_some_iff.mp hrun
  obtain ⟨-, hdecodes⟩ := newest_layer_decodes .x64 _ (.fresh memory) calls hspaced 1 e he
  obtain ⟨a, ha, hadecodes⟩ := hdecodes 0x1100 (hwrites ▸ by decide)
  obtain ⟨b, hb, hbdecodes⟩ := hdecodes 0x1FF8 (hwrites ▸ by decide)
  cases (congrArg (newest? · 0x1100) hlog).symm.trans ha
  cases (congrArg (newest? · 0x1FF8) hlog).symm.trans hb
  exact ⟨hspaced, e, he, hanswer, hadecodes, hbdecodes⟩

end Hotswap
