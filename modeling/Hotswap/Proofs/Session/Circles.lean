import Mathlib.Data.Finset.Card
import Hotswap.Memory.Execution
import Hotswap.Proofs.Session.Layers

/-!
# Jumps that lead in circles

A redirected entry jumps to its replacement, and that may be a redirected entry again.  `follow`
takes such jumps one after the other, as long as there is one to take.  Of the jumps that one
application writes, either so many get out, to an address that it did not redirect, or they run into
a circle of pairs, each of which leads to the entry of the next (`IsCircle`).

    follow_or_returns     from an entry, so many jumps get out, or some entry comes up twice
    never_out             from an entry that comes up again, no number of jumps gets out
    JumpsBy.returns_iff   the entries that come up again are those of the circles

An application refuses a circle of one pair, and no other.

The jumps are read off the writes (`landing?`).  Memory that holds these writes makes the same jumps
at the entries (`trampolineAt_storeAll`).  Elsewhere it jumps as before, so that behind the way out
there may be an older trampoline, and one that leads back.
-/

namespace Hotswap

open Machine (Address Arch)
open Entity (Pair Table)

variable {σ ε : Type}

/-! ## Following jumps -/

/-- Where `n` jumps lead, if there are as many to take. -/
def follow (jump : Address → Option Address) : Nat → Address → Option Address
  | 0, a => some a
  | n + 1, a => (jump a).bind (follow jump n)

section Follow
variable {jump : Address → Option Address} {n : Nat} {a b : Address}

theorem follow_add (jump : Address → Option Address) (m n : Nat) (a : Address) :
    follow jump (m + n) a = (follow jump m a).bind (follow jump n) := by
  induction m generalizing a with
  | zero => rw [Nat.zero_add, follow, Option.bind_some]
  | succ m ih =>
      rw [Nat.succ_add, follow, follow]
      cases jump a with
      | none => rfl
      | some b => exact ih b

theorem follow_one (jump : Address → Option Address) (a : Address) :
    follow jump 1 a = jump a := by
  rw [follow]
  cases jump a with
  | none => rfl
  | some b => rfl

theorem follow_succ_of_some (h : follow jump n a = some b) : follow jump (n + 1) a = jump b := by
  rw [follow_add, h, Option.bind_some, follow_one]

theorem follow_mono {jump' : Address → Option Address}
    (hmore : ∀ x y, jump x = some y → jump' x = some y) (h : follow jump n a = some b) :
    follow jump' n a = some b := by
  induction n generalizing a with
  | zero => exact h
  | succ n ih =>
      rw [follow] at h ⊢
      obtain ⟨c, hc, hrest⟩ := Option.bind_eq_some_iff.mp h
      rw [hmore a c hc, Option.bind_some]
      exact ih hrest

theorem follow_mul (h : follow jump n a = some a) (k : Nat) : follow jump (k * n) a = some a := by
  induction k with
  | zero => rw [Nat.zero_mul, follow]
  | succ k ih => rw [Nat.succ_mul, follow_add, ih, Option.bind_some, h]

theorem never_out {k : Nat} (h : follow jump n a = some b) (hround : follow jump (k + 1) b = some b)
    (m : Nat) : ∃ c, follow jump m a = some c ∧ jump c ≠ none := by
  have hback : follow jump (n + (m + 1) * (k + 1)) a = some b := by
    rw [follow_add, h, Option.bind_some, follow_mul hround]
  have hfar : m + 1 ≤ n + (m + 1) * (k + 1) :=
    Nat.le_trans (Nat.le_mul_of_pos_right _ k.succ_pos) (Nat.le_add_left _ _)
  obtain ⟨d, hd⟩ := Nat.exists_eq_add_of_le hfar
  rw [hd, Nat.add_assoc, follow_add] at hback
  obtain ⟨c, hc, hrest⟩ := Option.bind_eq_some_iff.mp hback
  refine ⟨c, hc, fun hout => ?_⟩
  rw [Nat.add_comm, follow, hout] at hrest
  cases hrest

/-- A walk that makes as many steps as there are entries, and stays on them, comes to one of them
twice. -/
theorem exists_repeat {entries : List Address} {walk : Nat → Option Address}
    (h : ∀ n ≤ entries.length, ∃ x ∈ entries, walk n = some x) :
    ∃ i k x, walk i = some x ∧ walk (i + (k + 1)) = some x := by
  have hcard : ((entries.map some).toFinset).card < (Finset.range (entries.length + 1)).card := by
    rw [Finset.card_range]
    have hle := (entries.map some).toFinset_card_le
    rw [List.length_map] at hle
    exact Nat.lt_succ_of_le hle
  have hmaps : Set.MapsTo walk (Finset.range (entries.length + 1)) (entries.map some).toFinset := by
    intro n hn
    obtain ⟨x, hx, hwalk⟩ := h n (Nat.lt_succ_iff.mp (Finset.mem_range.mp hn))
    rw [hwalk]
    exact List.mem_toFinset.mpr (List.mem_map_of_mem hx)
  have hrepeat {i j : Nat} (hi : i ∈ Finset.range (entries.length + 1)) (hlt : i < j)
      (hsame : walk i = walk j) : ∃ i k x, walk i = some x ∧ walk (i + (k + 1)) = some x := by
    obtain ⟨k, rfl⟩ := Nat.exists_eq_add_of_lt hlt
    obtain ⟨x, -, hx⟩ := h i (Nat.lt_succ_iff.mp (Finset.mem_range.mp hi))
    exact ⟨i, k, x, hx, hsame.symm.trans hx⟩
  obtain ⟨i, hi, j, hj, hne, hsame⟩ := Finset.exists_ne_map_eq_of_card_lt_of_maps_to hcard hmaps
  rcases Nat.lt_or_gt_of_ne hne with hlt | hgt
  · exact hrepeat hi hlt hsame
  · exact hrepeat hj hgt hsame.symm

/-- Where only entries jump, as many jumps as there are entries get out, or some entry comes up
twice. -/
theorem follow_or_returns {entries : List Address} (hjump : ∀ x, jump x = none ↔ x ∉ entries)
    (a : Address) :
    (∃ n ≤ entries.length, ∃ out, follow jump n a = some out ∧ out ∉ entries)
      ∨ ∃ n k b, follow jump n a = some b ∧ follow jump (k + 1) b = some b := by
  by_cases hout : ∃ n ≤ entries.length, ∃ out, follow jump n a = some out ∧ out ∉ entries
  · exact .inl hout
  · have hentry : ∀ n ≤ entries.length, ∀ x, follow jump n a = some x → x ∈ entries := by
      intro n hn x hx
      by_contra hnot
      exact hout ⟨n, hn, x, hx, hnot⟩
    have hstays : ∀ n ≤ entries.length, ∃ x ∈ entries, follow jump n a = some x := by
      intro n
      induction n with
      | zero => exact fun hn => ⟨a, hentry 0 hn a rfl, rfl⟩
      | succ n ih =>
          intro hn
          obtain ⟨x, hx, hfollow⟩ := ih (Nat.le_of_succ_le hn)
          obtain ⟨y, hy⟩ := Option.ne_none_iff_exists'.mp fun hnone => (hjump x).mp hnone hx
          have hnext := (follow_succ_of_some hfollow).trans hy
          exact ⟨y, hentry (n + 1) hn y hnext, hnext⟩
    obtain ⟨n, k, b, hb, hround⟩ := exists_repeat hstays
    rw [follow_add, hb, Option.bind_some] at hround
    exact .inr ⟨n, k, b, hb, hround⟩

end Follow

/-! ## Circles of pairs -/

/-- Each of the pairs leads to the entry of the next, and the last one to that of the first. -/
structure IsCircle (pairs : List Pair) (first : Pair) (rest : List Pair) : Prop where
  subset : ∀ p ∈ first :: rest, p ∈ pairs
  chain : List.IsChain (fun p q => p.patch = q.base) (first :: rest ++ [first])

/-- From `a`, the jumps come to the entry of a circle. -/
def RunsIntoCircle (jump : Address → Option Address) (pairs : List Pair) (a : Address) : Prop :=
  ∃ n first rest, IsCircle pairs first rest ∧ follow jump n a = some first.base

/-- The entries of the pairs jump to their replacements, and no other address jumps. -/
structure JumpsBy (pairs : List Pair) (jump : Address → Option Address) : Prop where
  entry : ∀ p ∈ pairs, jump p.base = some p.patch
  only : ∀ a, jump a = none ↔ a ∉ pairs.map Pair.base

section Circle
variable {jump : Address → Option Address} {pairs rest : List Pair} {first last : Pair}
  {n : Nat} {a b : Address}

theorem follow_of_isChain (hjump : ∀ p ∈ first :: rest, jump p.base = some p.patch)
    (hchain : List.IsChain (fun p q => p.patch = q.base) (first :: rest ++ [last])) :
    follow jump (rest.length + 1) first.base = some last.base := by
  induction rest generalizing first with
  | nil =>
      obtain ⟨hlast, -⟩ := List.isChain_cons_cons.mp hchain
      rw [List.length_nil, follow_one, hjump first List.mem_cons_self, hlast]
  | cons p rest ih =>
      obtain ⟨hnext, htail⟩ := List.isChain_cons_cons.mp hchain
      rw [List.length_cons, follow, hjump first List.mem_cons_self, hnext, Option.bind_some]
      exact ih (fun q hq => hjump q (List.mem_cons_of_mem _ hq)) htail

theorem JumpsBy.exists_pair (h : JumpsBy pairs jump) (hjump : jump a = some b) :
    ∃ p ∈ pairs, p.base = a ∧ p.patch = b := by
  have hentry : a ∈ pairs.map Pair.base := by
    by_contra hnot
    cases ((h.only a).mpr hnot).symm.trans hjump
  obtain ⟨p, hp, rfl⟩ := List.mem_map.mp hentry
  exact ⟨p, hp, rfl, Option.some.inj ((h.entry p hp).symm.trans hjump)⟩

theorem JumpsBy.exists_isChain (h : JumpsBy pairs jump) (hfollow : follow jump (n + 1) a = some b) :
    ∃ first rest, (∀ p ∈ first :: rest, p ∈ pairs) ∧ first.base = a
      ∧ ∀ last : Pair, last.base = b →
        List.IsChain (fun p q => p.patch = q.base) (first :: rest ++ [last]) := by
  induction n generalizing a with
  | zero =>
      rw [Nat.zero_add, follow_one] at hfollow
      obtain ⟨first, hfirst, hbase, hpatch⟩ := h.exists_pair hfollow
      refine ⟨first, [], ?_, hbase, fun last hlast => ?_⟩
      · intro p hp
        cases List.mem_singleton.mp hp
        exact hfirst
      · exact List.isChain_cons_cons.mpr ⟨hpatch.trans hlast.symm, .singleton _⟩
  | succ n ih =>
      rw [follow] at hfollow
      obtain ⟨c, hc, hrest⟩ := Option.bind_eq_some_iff.mp hfollow
      obtain ⟨first, hfirst, hbase, hpatch⟩ := h.exists_pair hc
      obtain ⟨second, rest, hmem, hsecond, hchain⟩ := ih hrest
      refine ⟨first, second :: rest, ?_, hbase, fun last hlast => ?_⟩
      · intro p hp
        rcases List.mem_cons.mp hp with rfl | hp
        · exact hfirst
        · exact hmem p hp
      · exact List.isChain_cons_cons.mpr ⟨hpatch.trans hsecond.symm, hchain last hlast⟩

/-- The entries that come up again are those of the circles. -/
theorem JumpsBy.returns_iff (h : JumpsBy pairs jump) :
    (∃ k, follow jump (k + 1) a = some a)
      ↔ ∃ first rest, IsCircle pairs first rest ∧ first.base = a := by
  constructor
  · rintro ⟨k, hround⟩
    obtain ⟨first, rest, hmem, hbase, hchain⟩ := h.exists_isChain hround
    exact ⟨first, rest, ⟨hmem, hchain first hbase⟩, hbase⟩
  · rintro ⟨first, rest, ⟨hmem, hchain⟩, rfl⟩
    exact ⟨rest.length, follow_of_isChain (fun p hp => h.entry p (hmem p hp)) hchain⟩

theorem IsCircle.eq_of_single (h : IsCircle pairs first []) :
    first ∈ pairs ∧ first.base = first.patch := by
  obtain ⟨hsame, -⟩ := List.isChain_cons_cons.mp h.chain
  exact ⟨h.subset first List.mem_cons_self, hsame.symm⟩

theorem JumpsBy.stays (h : JumpsBy pairs jump) (hruns : RunsIntoCircle jump pairs a) (n : Nat) :
    ∃ entry ∈ pairs.map Pair.base, follow jump n a = some entry := by
  obtain ⟨m, first, rest, hcircle, hfollow⟩ := hruns
  obtain ⟨k, hround⟩ := h.returns_iff.mpr ⟨first, rest, hcircle, rfl⟩
  obtain ⟨entry, hentry, hgoes⟩ := never_out hfollow hround n
  exact ⟨entry, not_imp_comm.mp (h.only entry).mpr hgoes, hentry⟩

theorem JumpsBy.gets_out (h : JumpsBy pairs jump) (hfree : ¬ RunsIntoCircle jump pairs a) :
    ∃ n ≤ pairs.length, ∃ out, follow jump n a = some out ∧ out ∉ pairs.map Pair.base := by
  rcases follow_or_returns h.only a with hleaves | ⟨n, k, b, hb, hround⟩
  · rwa [List.length_map] at hleaves
  · obtain ⟨first, rest, hcircle, rfl⟩ := h.returns_iff.mp ⟨k, hround⟩
    exact absurd ⟨n, first, rest, hcircle, hb⟩ hfree

theorem JumpsBy.all_out_iff (h : JumpsBy pairs jump) :
    (∀ p ∈ pairs, ∃ n out, follow jump n p.base = some out ∧ out ∉ pairs.map Pair.base)
      ↔ ¬ ∃ first rest, IsCircle pairs first rest := by
  constructor
  · rintro hleaves ⟨first, rest, hcircle⟩
    obtain ⟨n, out, hfollow, hnot⟩ := hleaves first (hcircle.subset first List.mem_cons_self)
    obtain ⟨entry, hentry, hfollow'⟩ := h.stays ⟨0, first, rest, hcircle, rfl⟩ n
    cases hfollow.symm.trans hfollow'
    exact hnot hentry
  · intro hnocircle p _
    have hfree : ¬ RunsIntoCircle jump pairs p.base := by
      rintro ⟨n, first, rest, hcircle, -⟩
      exact hnocircle ⟨first, rest, hcircle⟩
    obtain ⟨n, -, hleaves⟩ := h.gets_out hfree
    exact ⟨n, hleaves⟩

end Circle

/-! ## The jumps that an application writes -/

/-- Where the code at an address jumps after these writes: to the target of the last trampoline
written there. -/
def landing? (arch : Arch) (writes : List (Address × List UInt8)) (a : Address) : Option Address :=
  (writes.filter fun w => w.1 == a).getLast?.bind fun w => (arch.target w.2).toOption

namespace Rig

variable {arch : Arch} {writer : Writer σ ε} {policy : Policy} {pairs : List Pair}
  {writes : List (Address × List UInt8)} {base patch : Table} {tries : List Try} {s s' : σ}

theorem target_of_writes {pair : Pair} {write : Address × List UInt8}
    (h : (Rig.mk arch.trampoline writer policy).Writes pair write) :
    (arch.target write.2).toOption = some pair.patch := by
  rw [Arch.target_of_trampoline h.2]
  rfl

theorem forall₂_writes_filter
    (h : List.Forall₂ (Rig.mk arch.trampoline writer policy).Writes pairs writes) (a : Address) :
    List.Forall₂ (Rig.mk arch.trampoline writer policy).Writes
      (pairs.filter fun p => p.base == a) (writes.filter fun w => w.1 == a) := by
  induction h with
  | nil => exact .nil
  | @cons pair write pairs writes hfirst _ ih =>
      rw [List.filter_cons, List.filter_cons, hfirst.1]
      by_cases ha : (pair.base == a) = true
      · rw [if_pos ha, if_pos ha]
        exact .cons hfirst ih
      · rw [if_neg ha, if_neg ha]
        exact ih

theorem target_getLast
    (h : List.Forall₂ (Rig.mk arch.trampoline writer policy).Writes pairs writes) :
    (writes.getLast?.bind fun w => (arch.target w.2).toOption)
      = pairs.getLast?.map Pair.patch := by
  induction h with
  | nil => rfl
  | @cons pair write pairs writes hfirst hrest ih =>
      cases hrest with
      | nil => exact target_of_writes hfirst
      | cons _ _ =>
          rw [List.getLast?_cons_cons, List.getLast?_cons_cons]
          exact ih

theorem landing?_eq (h : List.Forall₂ (Rig.mk arch.trampoline writer policy).Writes pairs writes)
    (a : Address) : landing? arch writes a = (newest? pairs a).map Pair.patch :=
  target_getLast (forall₂_writes_filter h a)

theorem Applies.differ_of_ok {rig : Rig σ ε} {answer : Ending (PatchError ε) Nat} {count : Nat}
    (h : rig.Applies base patch s tries answer s') (hanswer : answer = .ok count)
    (hpairing : base.pairing patch = .ok pairs) : ∀ p ∈ pairs, p.base ≠ p.patch := by
  cases h with
  | rejected _ => cases hanswer
  | same _ _ => exact absurd hanswer raise_ne_ok
  | redirected hpairing' hdiffer _ =>
      cases hpairing'.symm.trans hpairing
      exact hdiffer
  | stopped _ _ _ => cases hanswer
  | aborted _ _ _ => cases hanswer

theorem writes_of_ok {rig : Rig σ ε} {count : Nat} (h : (rig.apply base patch s).answer = .ok count)
    (hpairing : base.pairing patch = .ok pairs) :
    List.Forall₂ rig.Writes pairs (Event.writes (rig.apply base patch s).trace) := by
  have happlies := rig.apply_applies base patch s
  obtain ⟨pairs', hpairing', -, haddress, haccepted⟩ := happlies.of_ok h
  cases hpairing'.symm.trans hpairing
  have htries := congrArg List.length haddress
  rw [List.length_map, List.length_map] at htries
  have hwrites := happlies.forall₂_accepted hpairing
  rwa [List.countP_eq_length.mpr haccepted, htries, List.take_length,
    ← Event.writes_eq_filter_tries] at hwrites

theorem jumpsBy_newest? (hnodup : (pairs.map Pair.base).Nodup) :
    JumpsBy pairs fun a => (newest? pairs a).map Pair.patch := by
  constructor
  · intro p hp
    obtain ⟨q, hq⟩ := exists_newest (List.mem_map_of_mem hp)
    obtain ⟨hmem, hbase⟩ := mem_of_newest? hq
    rw [hq, List.inj_on_of_nodup_map hnodup hmem hp hbase, Option.map_some]
  · intro a
    rw [Option.map_eq_none_iff]
    constructor
    · intro hnone ha
      obtain ⟨q, hq⟩ := exists_newest ha
      cases hnone.symm.trans hq
    · intro ha
      refine Option.eq_none_iff_forall_ne_some.mpr fun q hq => ?_
      obtain ⟨hmem, hbase⟩ := mem_of_newest? hq
      exact ha (List.mem_map.mpr ⟨q, hmem, hbase⟩)

theorem jumpsBy_of_ok {count : Nat}
    (h : ((Rig.mk arch.trampoline writer policy).apply base patch s).answer = .ok count)
    (hpairing : base.pairing patch = .ok pairs) :
    JumpsBy pairs (landing? arch
      (Event.writes ((Rig.mk arch.trampoline writer policy).apply base patch s).trace)) := by
  rw [funext (landing?_eq (writes_of_ok h hpairing))]
  obtain ⟨-, hsound, rfl⟩ := Table.pairing_eq_ok_iff.mp hpairing
  refine jumpsBy_newest? ?_
  rw [List.map_map]
  exact hsound.nodup

end Rig

/-- In memory that holds the trampolines of spaced pairs, these are the jumps at their entries. -/
theorem Rig.trampolineAt_storeAll [Paging] {arch : Arch} {writer : Writer σ ε} {policy : Policy}
    {pairs : List Pair} {tries : List Try} {a b : Address} (m : Memory)
    (hspaced : Spaced arch.trampolineLength (pairs.map Pair.base))
    (hwrites : List.Forall₂ (Rig.mk arch.trampoline writer policy).Writes pairs
      ((tries.filter Try.accepted).map fun t => (t.address, t.bytes)))
    (hjump : (newest? pairs a).map Pair.patch = some b) :
    (m.storeAll tries).trampolineAt arch a = some b := by
  have hfollows := (Memory.Follows.nil arch m).storeAll hspaced nofun
    (fun p hp => List.mem_map_of_mem hp) hwrites
  rw [List.nil_append] at hfollows
  obtain ⟨pair, hnewest, rfl⟩ := Option.map_eq_some_iff.mp hjump
  rw [Memory.trampolineAt, hfollows a pair hnewest]
  rfl

/-- **The jumps of an application get out, or run in circles.**  After a successful application,
over any instruction set, writer and policy, and for the jumps that it wrote: each redirected entry
jumps to its replacement and no other address jumps; no circle consists of one pair.  From an entry,
as many jumps as there are pairs get out, unless they run into a circle; then no number of jumps
does.  So they all get out exactly if the pairs form no circle.

In any memory in which these writes are stored, and in which the entries are spaced, the trampolines
at the entries are these jumps, and so they lead the same way.  Where none of their bytes was
written, memory has the trampolines that it had before. -/
theorem Rig.apply_ok_gets_out_or_circles [Paging] (arch : Arch) (writer : Writer σ ε)
    (policy : Policy) (base patch : Table) (s : σ) (count : Nat)
    (hok : ((Rig.mk arch.trampoline writer policy).apply base patch s).answer = .ok count) :
    let e := (Rig.mk arch.trampoline writer policy).apply base patch s
    let jump := landing? arch (Event.writes e.trace)
    ∃ pairs, base.pairing patch = .ok pairs ∧ pairs.length = count
      ∧ (∀ p ∈ pairs, jump p.base = some p.patch)
      ∧ (∀ a, jump a = none ↔ a ∉ pairs.map Pair.base)
      ∧ (∀ first rest, IsCircle pairs first rest → rest ≠ [])
      ∧ (∀ a, ¬ RunsIntoCircle jump pairs a →
        ∃ n ≤ count, ∃ out, follow jump n a = some out ∧ out ∉ pairs.map Pair.base)
      ∧ (∀ a, RunsIntoCircle jump pairs a →
        ∀ n, ∃ entry ∈ pairs.map Pair.base, follow jump n a = some entry)
      ∧ ((∀ p ∈ pairs, ∃ n out, follow jump n p.base = some out ∧ out ∉ pairs.map Pair.base)
        ↔ ¬ ∃ first rest, IsCircle pairs first rest)
      ∧ ∀ m : Memory, Spaced arch.trampolineLength (pairs.map Pair.base) →
        let after := m.storeAll (Event.tries e.trace)
        (∀ p ∈ pairs, after.trampolineAt arch p.base = jump p.base)
        ∧ (∀ n a b, follow jump n a = some b → follow (after.trampolineAt arch) n a = some b)
        ∧ ∀ a, (∀ x, Spans a arch.trampolineLength x → ¬ Written (Event.tries e.trace) x) →
          after.trampolineAt arch a = m.trampolineAt arch a := by
  intro e jump
  have happlies := (Rig.mk arch.trampoline writer policy).apply_applies base patch s
  obtain ⟨pairs, hpairing, hlength, -, -⟩ := happlies.of_ok hok
  have hdiffer := happlies.differ_of_ok hok hpairing
  have hwrites := writes_of_ok hok hpairing
  have hjumps : JumpsBy pairs jump := jumpsBy_of_ok hok hpairing
  refine ⟨pairs, hpairing, hlength, hjumps.entry, hjumps.only, ?_, fun a hfree => ?_,
    fun a hruns => hjumps.stays hruns, hjumps.all_out_iff, fun m hspaced => ?_⟩
  · rintro first rest hcircle rfl
    obtain ⟨hmem, hsame⟩ := hcircle.eq_of_single
    exact hdiffer first hmem hsame
  · rw [← hlength]
    exact hjumps.gets_out hfree
  · intro after
    have hmemory : ∀ a b, jump a = some b → after.trampolineAt arch a = some b := by
      intro a b hjump
      have hnewest : (newest? pairs a).map Pair.patch = some b :=
        (landing?_eq hwrites a).symm.trans hjump
      rw [Event.writes_eq_filter_tries] at hwrites
      exact trampolineAt_storeAll m hspaced hwrites hnewest
    refine ⟨fun p hp => ?_, fun n a b => follow_mono hmemory, fun a hunwritten => ?_⟩
    · rw [hjumps.entry p hp, hmemory _ _ (hjumps.entry p hp)]
    · rw [Memory.trampolineAt, Memory.load_storeAll_of_not_written hunwritten, Memory.trampolineAt]

/-- The replacement of "a" is "b", which is itself replaced: two jumps get out. -/
theorem Rig.apply_ok_gets_out_by_two_jumps :
    let plain : Entity.Shape := ⟨none, [], .unit⟩
    let base := ((Table.empty (.bare ⟨"S", 8, 8⟩)).define "a" plain 0x1000).define "b" plain 0x2000
    let patch := ((Table.empty (.overlay ⟨"P", 8, 8⟩ 0 (.bare ⟨"S", 8, 8⟩))).override "a" plain
      0x2000).override "b" plain 0x7000
    let rig : Rig Nat String := ⟨Arch.x64.trampoline, .counting none "", {}⟩
    let e := rig.apply base patch 0
    let jump := landing? .x64 (Event.writes e.trace)
    e.answer = .ok 2 ∧ follow jump 2 0x1000 = some 0x7000
      ∧ (∃ pairs, base.pairing patch = .ok pairs ∧ ¬ ∃ first rest, IsCircle pairs first rest)
      ∧ ∀ m : Memory,
        follow ((m.storeAll (Event.tries e.trace)).trampolineAt .x64) 2 0x1000 = some 0x7000 := by
  intro plain base patch rig e jump
  have hanswer : e.answer = .ok 2 := by decide
  have hpairs : base.pairing patch = .ok [⟨"a", 0x1000, 0x2000⟩, ⟨"b", 0x2000, 0x7000⟩] := by
    decide
  obtain ⟨pairs, hpairing, -, -, -, -, -, -, hiff, hmemory⟩ :=
    apply_ok_gets_out_or_circles .x64 (.counting none "") {} base patch 0 2 hanswer
  cases hpairs.symm.trans hpairing
  have hfollow : follow jump 2 0x1000 = some 0x7000 := by decide
  refine ⟨hanswer, hfollow, ⟨_, hpairs, hiff.mp fun p hp => ?_⟩, fun m => ?_⟩
  · rcases List.mem_cons.mp hp with rfl | hp
    · exact ⟨2, 0x7000, by decide, by decide⟩
    · cases List.mem_singleton.mp hp
      exact ⟨1, 0x7000, by decide, by decide⟩
  · obtain ⟨-, hsame, -⟩ := hmemory m (by decide)
    exact hsame 2 0x1000 0x7000 hfollow

/-- Behind the way out: two applications in a row, neither with a circle of its own, whose jumps in
live memory lead back. -/
example :
    let plain : Entity.Shape := ⟨none, [], .unit⟩
    let base := ((Table.empty (.bare ⟨"S", 8, 8⟩)).define "a" plain 0x1000).define "b" plain 0x2000
    let empty := Table.empty (.overlay ⟨"P", 8, 8⟩ 0 (.bare ⟨"S", 8, 8⟩))
    let m : Memory := ⟨fun _ => 0, fun _ => .mapped ⟨true, false, true⟩⟩
    let first := (Rig.live .x64 {}).apply base (empty.override "b" plain 0x1000) m
    let second := (Rig.live .x64 {}).apply base (empty.override "a" plain 0x2000) first.state
    first.answer = .ok 1 ∧ second.answer = .ok 1
      ∧ follow (second.state.trampolineAt .x64) 2 0x1000 = some 0x1000 := by
  decide

/-- Two operations that replace each other.  The application goes through, and its jumps lead
from one entry to the other and back for ever. -/
theorem Rig.apply_ok_in_a_circle :
    let plain : Entity.Shape := ⟨none, [], .unit⟩
    let base := ((Table.empty (.bare ⟨"S", 8, 8⟩)).define "a" plain 0x1000).define "b" plain 0x2000
    let patch := ((Table.empty (.overlay ⟨"P", 8, 8⟩ 0 (.bare ⟨"S", 8, 8⟩))).override "a" plain
      0x2000).override "b" plain 0x1000
    let a : Pair := ⟨"a", 0x1000, 0x2000⟩
    let b : Pair := ⟨"b", 0x2000, 0x1000⟩
    let rig : Rig Nat String := ⟨Arch.x64.trampoline, .counting none "", {}⟩
    let e := rig.apply base patch 0
    e.answer = .ok 2 ∧ base.pairing patch = .ok [a, b] ∧ IsCircle [a, b] a [b]
      ∧ ∀ n, ∃ entry ∈ [a.base, b.base],
        follow (landing? .x64 (Event.writes e.trace)) n a.base = some entry := by
  intro plain base patch a b rig e
  have hcircle : IsCircle [a, b] a [b] := by
    refine ⟨fun p hp => hp, ?_⟩
    exact List.isChain_cons_cons.mpr ⟨rfl, List.isChain_cons_cons.mpr ⟨rfl, .singleton a⟩⟩
  refine ⟨by decide, by decide, hcircle, fun n => ?_⟩
  induction n with
  | zero => exact ⟨a.base, List.mem_cons_self, rfl⟩
  | succ n ih =>
      obtain ⟨entry, hentry, hn⟩ := ih
      rw [follow_succ_of_some hn]
      rcases List.mem_cons.mp hentry with rfl | hentry
      · exact ⟨b.base, List.mem_cons_of_mem _ List.mem_cons_self, by decide⟩
      · cases List.mem_singleton.mp hentry
        exact ⟨a.base, List.mem_cons_self, by decide⟩

end Hotswap
