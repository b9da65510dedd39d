import Hotswap.Proofs.Session.History

/-!
# The base or its patch first

A base and a candidate for it may arrive in either order.  If neither was there before, both orders
come to one application of the same tables, in the same state of the writer:

    submit c, register t                   applied as the base arrives
    register t, submit c                   applied as the candidate arrives, if the policy says so
    register t, submit c, applyPending     applied when asked for, if it does not

What they have in common is the session in which both are written down (`Session.met`).  From there
on it makes no difference which call it is that settles the key (`Rig.perform_of_met`).
-/

namespace Hotswap

open Entity (Table)

variable {σ ε : Type} {rig : Rig σ ε} {s : Session σ} {t : Table} {c : Candidate}

/-! ## Writing down both -/

namespace Session

/-- What is known once both have arrived. -/
def met (s : Session σ) (t : Table) (c : Candidate) : Session σ :=
  s.put t.key { s.slot t.key with base := some t, pending := some c }

theorem record_submit_register (hentity : c.entity = t.key) (hcurrent : c.isCurrent) :
    (s.record (.submit c)).record (.register t) = s.met t c := by
  have hslot : (s.put t.key { s.slot t.key with pending := some c }).slot t.key
      = { s.slot t.key with pending := some c } := Registry.slot_put_self ..
  simp only [record, if_pos hcurrent, hentity, hslot, met]
  simp only [put, Registry.put_put]

theorem record_register_submit (hentity : c.entity = t.key) (hcurrent : c.isCurrent) :
    (s.record (.register t)).record (.submit c) = s.met t c := by
  have hslot : (s.put t.key { s.slot t.key with base := some t }).slot t.key
      = { s.slot t.key with base := some t } := Registry.slot_put_self ..
  simp only [record, if_pos hcurrent, hentity, hslot, met]
  simp only [put, Registry.put_put]

theorem ready_met (s : Session σ) (t : Table) (c : Candidate) :
    (s.met t c).ready t.key = some (t, c) := by
  have hslot : (s.met t c).slot t.key
      = { s.slot t.key with base := some t, pending := some c } := Registry.slot_put_self ..
  rw [ready_eq_some_iff, hslot]
  exact ⟨rfl, rfl⟩

theorem ready_of_not_pending {key : String} (h : s.isPending key = false) :
    s.ready key = none := by
  rw [isPending, Option.isSome_eq_false_iff, Option.isNone_iff_eq_none] at h
  unfold ready
  rw [h]
  cases (s.slot key).base <;> rfl

end Session

namespace Rig

/-! ## Calls that only write down -/

/-- The answer to a candidate that carries another version than its module. -/
def mismatch (c : Candidate) : Ending (PatchError ε) Submission :=
  .error (.version c.entity c.moduleVersion c.version)

theorem perform_submit_of_not_isCurrent (hold : ¬ c.isCurrent) :
    (rig.perform s (.submit c)).answer = mismatch c
      ∧ (rig.perform s (.submit c)).state = s
      ∧ Event.tries (rig.perform s (.submit c)).trace = [] := by
  rw [perform, submit, if_neg hold]
  exact ⟨rfl, rfl, rfl⟩

/-- No candidate for `key` is applied as it arrives. -/
def Holds (rig : Rig σ ε) (s : Session σ) (key : String) : Prop :=
  s.isRegistered key = false ∨ rig.policy.applyOnSubmit = false

theorem Holds.settles_submit (h : rig.Holds s c.entity) : rig.settles s (.submit c) = none := by
  refine Option.eq_none_iff_forall_ne_some.mpr fun key hkey => ?_
  obtain ⟨⟨rfl, -⟩, hpolicy, hbase⟩ := settles_submit_iff.mp hkey
  rcases h with hnone | hlate
  · exact Bool.false_ne_true (hnone.symm.trans hbase)
  · exact Bool.false_ne_true (hlate.symm.trans hpolicy)

theorem perform_submit_of_holds (hcurrent : c.isCurrent) (h : rig.Holds s c.entity) :
    (rig.perform s (.submit c)).answer = .ok .pending
      ∧ (rig.perform s (.submit c)).state = s.record (.submit c)
      ∧ Event.tries (rig.perform s (.submit c)).trace = [] := by
  obtain ⟨-, hstate, htries⟩ := perform_of_not_settles rfl h.settles_submit
  exact ⟨(answer_submit_eq_pending_iff hcurrent).mpr h.settles_submit, hstate, htries⟩

theorem perform_register_of_not_pending (h : s.isPending t.key = false) :
    (rig.perform s (.register t)).answer = .ok (.applied 0)
      ∧ (rig.perform s (.register t)).state = s.record (.register t)
      ∧ Event.tries (rig.perform s (.register t)).trace = [] := by
  have hpending : (s.record (.register t)).isPending t.key = false := by
    rw [Session.isPending, Session.pending_record]
    exact h
  have hhanded : rig.handed s (.register t) = none := Session.ready_of_not_pending hpending
  obtain ⟨hidles, hstate, htries⟩ := perform_of_not_handed rfl hhanded
  generalize (rig.perform s (.register t)).answer = answer at hidles
  cases hidles with
  | registered => exact ⟨rfl, hstate, htries⟩

theorem perform_applyPending_of_not_pending {key : String} (h : s.isPending key = false) :
    (rig.perform s (.applyPending key)).answer = .ok (.applied 0)
      ∧ (rig.perform s (.applyPending key)).state = s
      ∧ Event.tries (rig.perform s (.applyPending key)).trace = [] := by
  rw [perform, Effect.next_pure, applyPending,
    settle_of_not_ready rig (Session.ready_of_not_pending h)]
  exact ⟨rfl, rfl, rfl⟩

/-! ## The call at which both have arrived -/

/-- The answer to that call. -/
def outcome (rig : Rig σ ε) (s : Session σ) (t : Table) (c : Candidate) :
    Ending (PatchError ε) Submission :=
  (rig.apply t c.table s.writer).answer.map .applied

/-- The session that it leaves behind. -/
def sessionMet (rig : Rig σ ε) (s : Session σ) (t : Table) (c : Candidate) : Session σ :=
  ⟨s.registry.put t.key
    (Slot.settled { s.slot t.key with base := some t, pending := some c }
      (rig.apply t c.table s.writer).answer),
    (rig.apply t c.table s.writer).state⟩

/-- Whichever call settles the key once both are written down, it applies `c` over `t`. -/
theorem perform_of_met {now : Session σ} {call : Call} (hwriter : now.writer = s.writer)
    (hrecord : now.record call = s.met t c) (hsettles : rig.settles now call = some t.key) :
    (rig.perform now call).answer = rig.outcome s t c
      ∧ (rig.perform now call).state = rig.sessionMet s t c
      ∧ Event.tries (rig.perform now call).trace
        = Event.tries (rig.apply t c.table s.writer).trace := by
  have hhanded : rig.handed now call = some (t, c) := by
    rw [handed, hsettles, Option.bind_some, hrecord, Session.ready_met]
  obtain ⟨key, hkey, -, hanswer, hstate, htries⟩ := perform_of_handed hhanded
  cases hsettles.symm.trans hkey
  have hslot : (s.met t c).slot t.key
      = { s.slot t.key with base := some t, pending := some c } := Registry.slot_put_self ..
  rw [hwriter] at hanswer hstate htries
  refine ⟨hanswer, ?_, htries⟩
  rw [hstate, hrecord, hslot, Session.met, Session.put, Registry.put_put, sessionMet]

/-! ## Short runs, call by call -/

/-- The run makes all the calls, with these answers and tries, and ends in `s'`. -/
structure Yields (rig : Rig σ ε) (s : Session σ) (calls : List Call)
    (answers : List (Ending (PatchError ε) Submission)) (tries : List Try) (s' : Session σ) :
    Prop where
  answers : (rig.run s calls).map Effect.answer = answers
  tries : ((rig.run s calls).flatMap fun e => Event.tries e.trace) = tries
  state : rig.sessionAfter s calls = s'

section Yields
variable {call : Call} {calls : List Call} {answer : Ending (PatchError ε) Submission}
variable {answers : List (Ending (PatchError ε) Submission)} {first rest : List Try}
variable {next s' : Session σ}

theorem Yields.cons
    (h : (rig.perform s call).answer = answer ∧ (rig.perform s call).state = next
      ∧ Event.tries (rig.perform s call).trace = first)
    (hgoes : answer ≠ .aborted) (hrest : rig.Yields next calls answers rest s') :
    rig.Yields s (call :: calls) (answer :: answers) (first ++ rest) s' := by
  obtain ⟨rfl, rfl, rfl⟩ := h
  constructor
  · rw [run_cons calls hgoes, List.map_cons, hrest.answers]
  · rw [run_cons calls hgoes, List.flatMap_cons, hrest.tries]
  · exact hrest.state

theorem Yields.last
    (h : (rig.perform s call).answer = answer ∧ (rig.perform s call).state = s'
      ∧ Event.tries (rig.perform s call).trace = first) :
    rig.Yields s [call] [answer] first s' := by
  obtain ⟨rfl, rfl, rfl⟩ := h
  have hrun : rig.run s [call] = [rig.perform s call] := by
    rw [run]
    split <;> rfl
  constructor
  · rw [hrun, List.map_singleton]
  · rw [hrun, List.flatMap_singleton]
  · rfl

end Yields

/-! ## Both orders -/

/-- The calls of a process that sees the patch first. -/
def patchFirst (t : Table) (c : Candidate) : List Call :=
  [.submit c, .register t]

/-- The calls of a process that sees the base first.  It has to ask for the candidate if the policy
does not apply on arrival. -/
def baseFirst (rig : Rig σ ε) (t : Table) (c : Candidate) : List Call :=
  .register t :: .submit c :: if rig.policy.applyOnSubmit then [] else [.applyPending t.key]

theorem yields_patchFirst_of_isCurrent (hentity : c.entity = t.key) (hcurrent : c.isCurrent)
    (hregistered : s.isRegistered t.key = false) :
    rig.Yields s (patchFirst t c) [.ok .pending, rig.outcome s t c]
      (Event.tries (rig.apply t c.table s.writer).trace) (rig.sessionMet s t c) := by
  have hholds : rig.Holds s c.entity := .inl (hentity.symm ▸ hregistered)
  refine .cons (perform_submit_of_holds hcurrent hholds) (by simp) (.last ?_)
  exact perform_of_met (Session.writer_record ..) (Session.record_submit_register hentity hcurrent)
    rfl

section NotPending
variable (hpending : s.isPending t.key = false)
include hpending

theorem yields_patchFirst_of_not_isCurrent (hold : ¬ c.isCurrent) :
    rig.Yields s (patchFirst t c) [mismatch c, .ok (.applied 0)] [] (s.record (.register t)) :=
  .cons (perform_submit_of_not_isCurrent hold) (by simp [mismatch])
    (.last (perform_register_of_not_pending hpending))

theorem yields_baseFirst_of_not_isCurrent (hold : ¬ c.isCurrent) :
    rig.Yields s (rig.baseFirst t c)
      (.ok (.applied 0) :: mismatch c
        :: if rig.policy.applyOnSubmit then [] else [.ok (.applied 0)])
      [] (s.record (.register t)) := by
  have hstill : (s.record (.register t)).isPending t.key = false := by
    rw [Session.isPending, Session.pending_record]
    exact hpending
  have hregister := rig.perform_register_of_not_pending hpending
  have hsubmit := rig.perform_submit_of_not_isCurrent (s := s.record (.register t)) hold
  refine .cons hregister (by simp) ?_
  split
  · exact .last hsubmit
  · exact .cons hsubmit (by simp [mismatch]) (.last (perform_applyPending_of_not_pending hstill))

theorem yields_baseFirst_of_isCurrent (hentity : c.entity = t.key) (hcurrent : c.isCurrent) :
    rig.Yields s (rig.baseFirst t c)
      (.ok (.applied 0)
        :: if rig.policy.applyOnSubmit then [rig.outcome s t c]
          else [.ok .pending, rig.outcome s t c])
      (Event.tries (rig.apply t c.table s.writer).trace) (rig.sessionMet s t c) := by
  have hregister := rig.perform_register_of_not_pending hpending
  have hmet := Session.record_register_submit (s := s) hentity hcurrent
  have hbase : ((s.record (.register t)).slot t.key).base = some t := by
    rw [Session.base_record, Call.registered?, if_pos rfl, Option.some_or]
  refine .cons hregister (by simp) ?_
  split
  · rename_i hpolicy
    -- the candidate is applied as it arrives
    have hsettles : rig.settles (s.record (.register t)) (.submit c) = some t.key :=
      settles_submit_iff.mpr ⟨⟨hentity, hcurrent⟩, hpolicy, Option.isSome_of_eq_some hbase⟩
    exact .last (perform_of_met (Session.writer_record ..) hmet hsettles)
  · rename_i hpolicy
    -- the candidate waits until it is asked for
    have hholds : rig.Holds (s.record (.register t)) c.entity :=
      .inr (Bool.eq_false_iff.mpr hpolicy)
    refine .cons (perform_submit_of_holds hcurrent hholds) (by simp) (.last ?_)
    refine perform_of_met ?_ hmet rfl
    rw [Session.writer_record, Session.writer_record]

end NotPending

/-- **The order of arrival does not matter**, whatever the session, the policy and the writer: for
a key without a base and without a candidate, both orders make the same tries and end in the same
session.  A candidate of another version is turned away alike and nothing is tried; any other is
applied once, and the call that applies it gives the same answer in both, a count or an error. -/
theorem arrival_order_irrelevant (rig : Rig σ ε) (s : Session σ) (t : Table) (c : Candidate)
    (hentity : c.entity = t.key) (hregistered : s.isRegistered t.key = false)
    (hpending : s.isPending t.key = false) :
    let answers (calls : List Call) := (rig.run s calls).map Effect.answer
    let tries (calls : List Call) := (rig.run s calls).flatMap fun e => Event.tries e.trace
    let asked (e : Ending (PatchError ε) Submission) :=
      if rig.policy.applyOnSubmit then [] else [e]
    tries (patchFirst t c) = tries (rig.baseFirst t c)
    ∧ rig.sessionAfter s (patchFirst t c) = rig.sessionAfter s (rig.baseFirst t c)
    ∧ (¬ c.isCurrent → tries (patchFirst t c) = []
      ∧ answers (patchFirst t c) = [mismatch c, .ok (.applied 0)]
      ∧ answers (rig.baseFirst t c)
        = .ok (.applied 0) :: mismatch c :: asked (.ok (.applied 0)))
    ∧ (c.isCurrent → tries (patchFirst t c) = Event.tries (rig.apply t c.table s.writer).trace
      ∧ answers (patchFirst t c) = [.ok .pending, rig.outcome s t c]
      ∧ answers (rig.baseFirst t c)
        = .ok (.applied 0) :: (asked (.ok .pending) ++ [rig.outcome s t c])) := by
  intro answers tries asked
  by_cases hcurrent : c.isCurrent
  · have hpatch := rig.yields_patchFirst_of_isCurrent hentity hcurrent hregistered
    have hbase := rig.yields_baseFirst_of_isCurrent hpending hentity hcurrent
    refine ⟨hpatch.tries.trans hbase.tries.symm, hpatch.state.trans hbase.state.symm,
      fun hold => absurd hcurrent hold, fun _ => ⟨hpatch.tries, hpatch.answers, ?_⟩⟩
    refine hbase.answers.trans (congrArg _ ?_)
    simp only [asked]
    split <;> rfl
  · have hpatch := rig.yields_patchFirst_of_not_isCurrent hpending hcurrent
    have hbase := rig.yields_baseFirst_of_not_isCurrent hpending hcurrent
    exact ⟨hpatch.tries.trans hbase.tries.symm, hpatch.state.trans hbase.state.symm,
      fun _ => ⟨hpatch.tries, hpatch.answers, hbase.answers⟩, fun h => absurd h hcurrent⟩

/-- A patch of two operations, the second of which is refused.  The error comes from the register
call in one order, and from asking for the candidate in the other. -/
theorem arrival_order_irrelevant_refused :
    let plain : Entity.Shape := ⟨none, [], .unit⟩
    let base := ((Table.empty (.bare ⟨"S", 8, 8⟩)).define "a" plain 0x1000).define "b" plain 0x2000
    let patch := ((Table.empty (.overlay ⟨"P", 8, 8⟩ 0 (.bare ⟨"S", 8, 8⟩))).override "a" plain
      0x7000).override "b" plain 0x7100
    let c : Candidate := ⟨"S", "1", some "1", patch⟩
    let rig : Rig Nat String :=
      ⟨Machine.Arch.x64.trampoline, .counting (some 1) "full", ⟨false, false⟩⟩
    let s : Session Nat := .fresh 0
    let refused : Ending (PatchError String) Submission := .error (.install "S" "b" 0x2000 "full")
    c.entity = base.key ∧ s.isRegistered base.key = false ∧ s.isPending base.key = false
      ∧ (rig.run s [.submit c, .register base]).map Effect.answer = [.ok .pending, refused]
      ∧ (rig.run s [.register base, .submit c, .applyPending base.key]).map Effect.answer
        = [.ok (.applied 0), .ok .pending, refused]
      ∧ rig.sessionAfter s [.submit c, .register base]
        = rig.sessionAfter s [.register base, .submit c, .applyPending base.key] := by
  intro plain base patch c rig s refused
  have hanswer : rig.outcome s base c = refused := by decide
  obtain ⟨-, hsession, -, hcurrent⟩ := arrival_order_irrelevant rig s base c (by decide) rfl rfl
  obtain ⟨-, hpatchFirst, hbaseFirst⟩ := hcurrent (by decide)
  refine ⟨by decide, rfl, rfl, hpatchFirst.trans ?_, hbaseFirst.trans ?_, hsession⟩
  · rw [hanswer]
  · rw [hanswer]
    rfl

end Rig
end Hotswap
