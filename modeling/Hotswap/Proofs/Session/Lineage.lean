import Hotswap.Proofs.Session.Run

/-!
# Where waiting and applied candidates come from

`Runs` is a run from its first call on, with its tries, with whether the process was stopped, and
with the session that is left.  Two runs one after the other are one run, unless the first of them
stopped.

A property that all candidates have when they are submitted is a property of all that wait and of
all that are applied (`Runs.lineage`).  One call keeps this (`pendingAll_perform`,
`exists_application`), and a run is an induction over its calls.
-/

namespace Hotswap

open Entity (Table)

variable {σ ε α : Type}

/-- The process was stopped. -/
def Ending.isAborted : Ending ε α → Bool
  | .aborted => true
  | _ => false

def Ending.isOk : Ending ε α → Bool
  | .ok _ => true
  | _ => false

theorem Ending.isAborted_map {β : Type} (f : α → β) (answer : Ending ε α) :
    (answer.map f).isAborted = answer.isAborted := by
  cases answer with
  | ok value => rfl
  | error cause => rfl
  | aborted => rfl

/-! ## Runs with their outcome -/

namespace Rig

/-- From `s` on, the calls make these tries and leave this session; the flag tells whether one of
them stopped the process. -/
inductive Runs (rig : Rig σ ε) : Session σ → List Call → List Try → Bool → Session σ → Prop
  | done {s : Session σ} : Runs rig s [] [] false s
  | call {s s' : Session σ} {call : Call} {calls : List Call} {tries : List Try} {stopped : Bool} :
      (rig.perform s call).answer ≠ .aborted →
      Runs rig (rig.perform s call).state calls tries stopped s' →
      Runs rig s (call :: calls) (Event.tries (rig.perform s call).trace ++ tries) stopped s'
  | stop {s : Session σ} {call : Call} {calls : List Call} :
      (rig.perform s call).answer = .aborted →
      Runs rig s (call :: calls) (Event.tries (rig.perform s call).trace) true
        (rig.perform s call).state

variable {rig : Rig σ ε} {s s' : Session σ} {call : Call} {calls : List Call} {tries : List Try}
  {stopped : Bool}

theorem Runs.append {rest : List Call} {more : List Try} {last : Session σ}
    (h : rig.Runs s calls tries false s') (hrest : rig.Runs s' rest more stopped last) :
    rig.Runs s (calls ++ rest) (tries ++ more) stopped last := by
  generalize hflag : false = flag at h
  induction h with
  | done => exact hrest
  | call hgoes _ ih =>
      rw [List.append_assoc]
      exact .call hgoes (ih hrest hflag)
  | stop _ => cases hflag

theorem runs_perform (s : Session σ) (call : Call) :
    rig.Runs s [call] (Event.tries (rig.perform s call).trace)
      (rig.perform s call).answer.isAborted (rig.perform s call).state := by
  cases h : (rig.perform s call).answer with
  | aborted => exact .stop h
  | ok outcome =>
      have hgoes : (rig.perform s call).answer ≠ .aborted := by rw [h]; nofun
      rw [← List.append_nil (Event.tries _)]
      exact .call hgoes .done
  | error cause =>
      have hgoes : (rig.perform s call).answer ≠ .aborted := by rw [h]; nofun
      rw [← List.append_nil (Event.tries _)]
      exact .call hgoes .done

theorem Runs.tries_eq (h : rig.Runs s calls tries stopped s') :
    tries = (rig.run s calls).flatMap fun e => Event.tries e.trace := by
  induction h with
  | done => rfl
  | call hgoes _ ih => rw [run_cons _ hgoes, List.flatMap_cons, ih]
  | stop haborted =>
      rw [run, haborted]
      exact (List.flatMap_singleton ..).symm

theorem Runs.session_eq (h : rig.Runs s calls tries false s') : s' = rig.sessionAfter s calls := by
  generalize hflag : false = flag at h
  induction h with
  | done => rfl
  | call _ _ ih => exact ih hflag
  | stop _ => cases hflag

theorem Runs.goes (hpolicy : rig.policy.abortOnFault = false)
    (h : rig.Runs s calls tries stopped s') : stopped = false := by
  induction h with
  | done => rfl
  | call _ _ ih => exact ih
  | stop haborted => exact absurd haborted (perform_ne_aborted hpolicy)

end Rig

/-! ## What candidates are like -/

/-- Every candidate that waits is like this. -/
def Session.PendingAll (P : Candidate → Prop) (s : Session σ) : Prop :=
  ∀ key c, (s.slot key).pending = some c → P c

/-- What is applied, over what, and the writer at that time. -/
structure Application (σ : Type) where
  base : Table
  candidate : Candidate
  writer : σ

namespace Rig

/-- The tries of an application. -/
def triesOf (rig : Rig σ ε) (a : Application σ) : List Try :=
  Event.tries (rig.apply a.base a.candidate.table a.writer).trace

variable {rig : Rig σ ε} {s s' : Session σ} {call : Call} {calls : List Call} {tries : List Try}
  {stopped : Bool} {P : Candidate → Prop}

theorem pendingAll_record (hoffers : ∀ key c, call.submitted? key = some c → P c)
    (h : s.PendingAll P) : (s.record call).PendingAll P := by
  intro key c hc
  rw [Session.pending_record, Option.or_eq_some_iff] at hc
  rcases hc with hsubmitted | ⟨-, hpending⟩
  · exact hoffers key c hsubmitted
  · exact h key c hpending

theorem pendingAll_perform (h : (s.record call).PendingAll P) :
    (rig.perform s call).state.PendingAll P := by
  intro key c hc
  exact h key c (rig.pending_perform hc).1

/-- A call through the registry makes the tries of at most one application, of a candidate that
waits once the call has recorded. -/
theorem exists_application (hdirect : call.isDirect = false) (h : (s.record call).PendingAll P) :
    ∃ applications : List (Application σ),
      Event.tries (rig.perform s call).trace = applications.flatMap rig.triesOf
      ∧ ∀ a ∈ applications, P a.candidate := by
  cases hhanded : rig.handed s call with
  | none =>
      obtain ⟨-, -, htries⟩ := perform_of_not_handed hdirect hhanded
      exact ⟨[], htries, nofun⟩
  | some both =>
      obtain ⟨key, -, hready, -, -, htries⟩ := perform_of_handed hhanded
      obtain ⟨-, hpending⟩ := Session.ready_eq_some_iff.mp hready
      refine ⟨[⟨both.1, both.2, s.writer⟩], htries.trans (List.flatMap_singleton ..).symm, ?_⟩
      intro a ha
      cases List.mem_singleton.mp ha
      exact h key both.2 hpending

/-- What all submitted candidates are like, all that wait and all that are applied are like. -/
theorem Runs.lineage (h : rig.Runs s calls tries stopped s')
    (hregistry : ∀ call ∈ calls, call.isDirect = false)
    (hoffers : ∀ call ∈ calls, ∀ key c, call.submitted? key = some c → P c)
    (hstart : s.PendingAll P) :
    s'.PendingAll P
    ∧ ∃ applications : List (Application σ), tries = applications.flatMap rig.triesOf
      ∧ ∀ a ∈ applications, P a.candidate := by
  induction h with
  | done => exact ⟨hstart, [], rfl, nofun⟩
  | stop _ =>
      have hrecord := pendingAll_record (hoffers _ List.mem_cons_self) hstart
      exact ⟨pendingAll_perform hrecord,
        exists_application (hregistry _ List.mem_cons_self) hrecord⟩
  | call _ _ ih =>
      have hrecord := pendingAll_record (hoffers _ List.mem_cons_self) hstart
      obtain ⟨first, hfirst, hP⟩ := exists_application (hregistry _ List.mem_cons_self) hrecord
      obtain ⟨hpending, rest, hrest, hP'⟩ :=
        ih (fun call hcall => hregistry call (List.mem_cons_of_mem _ hcall))
          (fun call hcall => hoffers call (List.mem_cons_of_mem _ hcall))
          (pendingAll_perform hrecord)
      refine ⟨hpending, first ++ rest, by rw [hfirst, hrest, List.flatMap_append], fun a ha => ?_⟩
      exact (List.mem_append.mp ha).elim (hP a) (hP' a)

end Rig
end Hotswap
