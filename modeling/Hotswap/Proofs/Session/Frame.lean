import Hotswap.Proofs.Memory.Install
import Hotswap.Proofs.Pairing
import Hotswap.Proofs.Session.Run

/-!
# What a run leaves as it was

A session that patches live memory writes a handful of bytes and leaves the rest of the address
space alone, also where a call fails or the process is stopped.  `Memory.Frame P` says so of two
memories: the pages are the same, and a byte that differs lies in `P`.  It is carried upwards

    one write  →  the loop over the pairs  →  an application  →  a call  →  a run

with the bytes of the accepted writes for `P`; these are bytes of entries that were paired with an
override (`mayWrite_of_written`).  Only the first step knows the writer, through
`Writer.IsFramed`.
-/

namespace Hotswap

open Machine (Address Arch)
open Entity (Pair Table)

/-! ## Frames -/

namespace Memory

/-- The pages are the same, and every byte outside `P` is. -/
structure Frame (P : Address → Prop) (before after : Memory) : Prop where
  page : after.page = before.page
  byte : ∀ x, after.byte x ≠ before.byte x → P x

variable {P Q : Address → Prop} {m m' m'' : Memory}

theorem Frame.refl (P : Address → Prop) (m : Memory) : Frame P m m :=
  ⟨rfl, fun _ hne => absurd rfl hne⟩

theorem Frame.mono (h : Frame P m m') (hsub : ∀ x, P x → Q x) : Frame Q m m' :=
  ⟨h.page, fun x hne => hsub x (h.byte x hne)⟩

theorem Frame.trans (h : Frame P m m') (h' : Frame P m' m'') : Frame P m m'' := by
  refine ⟨h'.page.trans h.page, fun x hne => ?_⟩
  by_cases hsame : m'.byte x = m.byte x
  · exact h'.byte x (hsame ▸ hne)
  · exact h.byte x hsame

end Memory

/-! ## One write -/

variable {ε : Type}

/-- A write that is accepted changes its own bytes and no page, and one that is refused nothing,
as long as it keeps away from the end of the address space. -/
def Writer.IsFramed [Paging] (w : Writer Memory ε) : Prop :=
  ∀ (location : Address) (bytes : List UInt8) (m : Memory), ClearOfEnd location bytes.length →
    Memory.Frame
      (fun x => (w.write location bytes m).answer = .ok () ∧ Spans location bytes.length x)
      m (w.write location bytes m).state

theorem Writer.isFramed_windowed_bytes [Paging] : Writer.bytes.windowed.IsFramed := by
  intro location bytes m h
  rcases Window.openAt_outcome h (m := m) with ⟨hmapped, -⟩ | ⟨page, -, hopen⟩
  · obtain ⟨hanswer, hstate⟩ := Memory.install_of_mapped h hmapped
    rw [Memory.install] at hanswer hstate
    rw [hstate]
    refine ⟨rfl, fun x hne => ⟨hanswer, ?_⟩⟩
    by_contra hnot
    exact hne (Memory.byte_store_of_not_spans hnot)
  · rw [windowed_of_refused hopen]
    exact .refl _ m

/-! ## Applications -/

/-- The write keeps away from the end of the address space. -/
def Try.IsClear [Paging] (t : Try) : Prop :=
  ClearOfEnd t.address t.bytes.length

instance [Paging] (t : Try) : Decidable t.IsClear :=
  inferInstanceAs (Decidable (ClearOfEnd t.address t.bytes.length))

/-- `x` is a byte of one of the accepted writes. -/
def Written (tries : List Try) (x : Address) : Prop :=
  ∃ t ∈ tries, t.accepted = true ∧ Spans t.address t.bytes.length x

theorem Written.of_mem {first : Try} {tries : List Try} {x : Address} (h : Written tries x) :
    Written (first :: tries) x := by
  obtain ⟨t, ht, hrest⟩ := h
  exact ⟨t, List.mem_cons_of_mem _ ht, hrest⟩

namespace Rig

variable [Paging] {rig : Rig Memory ε} {entity : String} {pairs : List Pair} {base patch : Table}
  {tries : List Try} {m m' : Memory}

theorem Redirects.frame {answer : Ending (PatchError ε) Unit} (hwriter : rig.writer.IsFramed)
    (h : rig.Redirects entity pairs m tries answer m') (hclear : ∀ t ∈ tries, t.IsClear) :
    Memory.Frame (Written tries) m m' := by
  induction h with
  | done => exact .refl _ _
  | @next pair pairs m m' code tries answer _ _ hwrite _ ih =>
      have hfirst := hwriter pair.base code m (hclear _ List.mem_cons_self)
      have hrest := ih fun t ht => hclear t (List.mem_cons_of_mem _ ht)
      refine (hfirst.mono ?_).trans (hrest.mono fun x => Written.of_mem)
      rintro x ⟨-, hspans⟩
      exact ⟨_, List.mem_cons_self, rfl, hspans⟩
  | same _ => exact .refl _ _
  | unreachable _ _ => exact .refl _ _
  | @refused pair pairs m code cause _ _ hwrite =>
      -- the frame of a refused write is empty, since its bytes count only if it is accepted
      refine (hwriter pair.base code m (hclear _ List.mem_cons_self)).mono ?_
      rintro x ⟨haccepted, -⟩
      cases hwrite.symm.trans haccepted

theorem Applies.frame {answer : Ending (PatchError ε) Nat} (hwriter : rig.writer.IsFramed)
    (h : rig.Applies base patch m tries answer m') (hclear : ∀ t ∈ tries, t.IsClear) :
    Memory.Frame (Written tries) m m' := by
  cases h with
  | rejected _ => exact .refl _ _
  | same _ _ => exact .refl _ _
  | redirected _ _ hloop => exact hloop.frame hwriter hclear
  | stopped _ _ hloop => exact hloop.frame hwriter hclear
  | aborted _ _ hloop => exact hloop.frame hwriter hclear

/-! ## Calls and runs -/

theorem perform_frame {s : Session Memory} {call : Call} (hwriter : rig.writer.IsFramed)
    (hclear : ∀ t ∈ Event.tries (rig.perform s call).trace, t.IsClear) :
    Memory.Frame (Written (Event.tries (rig.perform s call).trace))
      s.writer (rig.perform s call).state.writer := by
  cases happlied : rig.applied s call with
  | none =>
      obtain ⟨-, -, hstate⟩ := perform_of_not_applied happlied
      rw [hstate]
      exact .refl _ _
  | some tables =>
      obtain ⟨-, htries, hstate⟩ := perform_of_applied happlied
      rw [htries] at hclear ⊢
      rw [hstate]
      exact (rig.apply_applies tables.1 tables.2 s.writer).frame hwriter hclear

/-- `x` is a byte of a write that was accepted at one of the moments. -/
def WrittenIn (rig : Rig Memory ε) (past : List (Moment Memory)) (x : Address) : Prop :=
  ∃ m ∈ past, Written (Event.tries (rig.perform m.session m.call).trace) x

theorem frame_snoc {m : Memory} {past : List (Moment Memory)} {s : Session Memory} {call : Call}
    (hwriter : rig.writer.IsFramed) (hpast : Memory.Frame (rig.WrittenIn past) m s.writer)
    (hclear : ∀ t ∈ Event.tries (rig.perform s call).trace, t.IsClear) :
    Memory.Frame (rig.WrittenIn (past ++ [⟨s, call⟩])) m (rig.perform s call).state.writer := by
  refine (hpast.mono ?_).trans ((perform_frame hwriter hclear).mono ?_)
  · rintro x ⟨moment, hmoment, hwritten⟩
    exact ⟨moment, List.mem_append_left _ hmoment, hwritten⟩
  · intro x hwritten
    exact ⟨_, List.mem_append_right _ (List.mem_singleton_self _), hwritten⟩

theorem Reaches.frame {start s : Session Memory} {past : List (Moment Memory)}
    (hwriter : rig.writer.IsFramed) (h : rig.Reaches start past s)
    (hclear : ∀ m ∈ past, ∀ t ∈ Event.tries (rig.perform m.session m.call).trace, t.IsClear) :
    Memory.Frame (rig.WrittenIn past) start.writer s.writer := by
  induction h with
  | start => exact .refl _ _
  | call call _ _ ih =>
      have hpast := ih fun m hm => hclear m (List.mem_append_left _ hm)
      exact frame_snoc hwriter hpast
        (hclear _ (List.mem_append_right _ (List.mem_singleton_self _)))

/-- After each call of a run, also one that stops the process. -/
theorem trail_frame {start : Session Memory} {calls : List Call} {i : Nat} {m : Moment Memory}
    (hwriter : rig.writer.IsFramed) (hm : (rig.trail start calls)[i]? = some m)
    (hclear : ∀ m ∈ rig.trail start calls,
      ∀ t ∈ Event.tries (rig.perform m.session m.call).trace, t.IsClear) :
    Memory.Frame (rig.WrittenIn ((rig.trail start calls).take (i + 1)))
      start.writer (rig.perform m.session m.call).state.writer := by
  -- `Reaches` holds of the calls that the process survived, so the last one is added by hand
  have hreaches : rig.Reaches start ((rig.trail start calls).take i) m.session :=
    Reaches.start.of_trail hm
  have hpast := hreaches.frame hwriter fun m hm => hclear m (List.mem_of_mem_take hm)
  have hupto : (rig.trail start calls).take (i + 1) = (rig.trail start calls).take i ++ [m] := by
    rw [List.take_add_one, hm]
    rfl
  rw [hupto]
  exact frame_snoc hwriter hpast (hclear m (List.mem_of_getElem? hm))

/-! ## Where the writes go -/

/-- An application made at this moment pairs an operation of the base with an override, and `x` is
one of the bytes from the entry of that operation on, `length` in number. -/
def MayWrite {σ : Type} (rig : Rig σ ε) (length : Nat) (m : Moment σ) (x : Address) : Prop :=
  ∃ base patch pairs, rig.applied m.session m.call = some (base, patch)
    ∧ base.pairing patch = .ok pairs
    ∧ ∃ o ∈ base.operations, ∃ p ∈ patch.operations, p.role = .override ∧ p.name = o.name
      ∧ ⟨o.name, o.entry, p.entry⟩ ∈ pairs
      ∧ o.entry.toNat ≤ x.toNat ∧ x.toNat < o.entry.toNat + length

/-- The rig of a session that patches live memory. -/
def live (arch : Arch) (policy : Policy) : Rig Memory (WindowError Empty) :=
  ⟨arch.trampoline, Writer.bytes.windowed, policy⟩

theorem mayWrite_of_written {arch : Arch} {policy : Policy} {m : Moment Memory} {x : Address}
    (hclear : ∀ t ∈ Event.tries ((live arch policy).perform m.session m.call).trace, t.IsClear)
    (h : Written (Event.tries ((live arch policy).perform m.session m.call).trace) x) :
    (live arch policy).MayWrite arch.trampolineLength m x := by
  obtain ⟨t, ht, -, hspans⟩ := h
  have hinterval := (hclear t ht).spans_iff.mp hspans
  cases happlied : (live arch policy).applied m.session m.call with
  | none =>
      rw [(perform_of_not_applied happlied).2.1] at ht
      exact absurd ht List.not_mem_nil
  | some tables =>
      rw [(perform_of_applied happlied).2.1] at ht
      obtain ⟨pairs, hpairing, pair, hpair, -, haddress, hcode⟩ :=
        ((live arch policy).apply_applies tables.1 tables.2 m.session.writer).mem_tries ht
      refine ⟨tables.1, tables.2, pairs, happlied, hpairing, ?_⟩
      obtain ⟨-, -, rfl⟩ := Table.pairing_eq_ok_iff.mp hpairing
      obtain ⟨r, hr, rfl⟩ := List.mem_map.mp hpair
      obtain ⟨hold, hnew, hrole, hname⟩ := Table.mem_replacements hr
      have hlength : t.bytes.length = arch.trampolineLength := Arch.length_of_trampoline hcode
      rw [hlength, haddress] at hinterval
      exact ⟨r.old, hold, r.new, hnew, hrole, hname, hpair, hinterval⟩

end Rig

/-- **What a run leaves as it was.**  For every instruction set, policy and memory, and every run
whose writes keep away from the last page of the address space: after each call, whatever it
answered, the pages are those of the start, and a byte that differs belongs to the trampoline over
an operation that some call made so far paired with an override. -/
theorem Rig.run_frame [Paging] (arch : Arch) (policy : Policy) (start : Session Memory) (calls : List Call)
    (hclear : ∀ e ∈ (live arch policy).run start calls, ∀ t ∈ Event.tries e.trace, t.IsClear) :
    ∀ i e, ((live arch policy).run start calls)[i]? = some e →
      e.state.writer.page = start.writer.page
      ∧ ∀ x, e.state.writer.byte x ≠ start.writer.byte x →
        ∃ m ∈ ((live arch policy).trail start calls).take (i + 1),
          (live arch policy).MayWrite arch.trampolineLength m x := by
  intro i e he
  rw [run_eq_map_trail, List.getElem?_map] at he
  obtain ⟨m, hm, rfl⟩ := Option.map_eq_some_iff.mp he
  have hmoment : ∀ m ∈ (live arch policy).trail start calls,
      ∀ t ∈ Event.tries ((live arch policy).perform m.session m.call).trace, t.IsClear := by
    intro m hm
    refine hclear _ ?_
    rw [run_eq_map_trail]
    exact List.mem_map_of_mem hm
  have hframe := trail_frame Writer.isFramed_windowed_bytes hm hmoment
  refine ⟨hframe.page, fun x hne => ?_⟩
  obtain ⟨m', hm', hwritten⟩ := hframe.byte x hne
  exact ⟨m', hm', mayWrite_of_written (hmoment m' (List.mem_of_mem_take hm')) hwritten⟩

/-- The second of two writes runs onto a sealed page.  The first trampoline stays, and with it the
only bytes that differ. -/
theorem Rig.run_frame_of_refusal :
    let plain : Entity.Shape := ⟨none, [], .unit⟩
    let base := ((Table.empty (.bare ⟨"S", 8, 8⟩)).define "a" plain 0x1100).define "b" plain 0x1FF8
    let patch := ((Table.empty (.overlay ⟨"P", 8, 8⟩ 0 (.bare ⟨"S", 8, 8⟩))).override "a" plain
      0x7000).override "b" plain 0x7100
    let memory : Memory := ((⟨fun _ => 0, fun _ => .unmapped⟩ : Memory).setPage 0x1000
      (.mapped ⟨true, false, true⟩)).setPage 0x2000 (.sealed ⟨true, false, true⟩)
    let rig := live .x64 { abortOnFault := false }
    let calls : List Call := [.register base, .submit ⟨"S", "1", some "1", patch⟩]
    (∀ e ∈ rig.run (.fresh memory) calls, ∀ t ∈ Event.tries e.trace, t.IsClear)
      ∧ ∃ e, (rig.run (.fresh memory) calls)[1]? = some e
        ∧ e.answer = .error (.install "S" "b" 0x1FF8 (.refused 0x2000))
        ∧ e.state.writer.page = memory.page
        ∧ e.state.writer.byte 0x1100 = 0x49
        ∧ ∃ m ∈ (rig.trail (.fresh memory) calls).take 2, rig.MayWrite 13 m 0x1100 := by
  intro plain base patch memory rig calls
  have hclear : ∀ e ∈ rig.run (.fresh memory) calls, ∀ t ∈ Event.tries e.trace, t.IsClear := by
    decide
  have hrun : ((rig.run (.fresh memory) calls)[1]?.map fun e =>
        (e.answer, e.state.writer.byte 0x1100))
      = some (.error (.install "S" "b" 0x1FF8 (.refused 0x2000)), 0x49) := by decide
  obtain ⟨e, he, hboth⟩ := Option.map_eq_some_iff.mp hrun
  obtain ⟨hanswer, hbyte⟩ := Prod.mk.inj hboth
  obtain ⟨hpage, hbytes⟩ := run_frame .x64 _ (.fresh memory) calls hclear 1 e he
  refine ⟨hclear, e, he, hanswer, hpage, hbyte, hbytes 0x1100 ?_⟩
  rw [hbyte]
  decide

end Hotswap
