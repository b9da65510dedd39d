import Hotswap.Proofs.Session.Apply
import Hotswap.Session.Call

/-!
# What a call of a session does

Every call past the registry's own bookkeeping is the same two steps: it records something in one
slot (`Session.record`), and then it may settle one key (`Rig.settles`), which applies the waiting
candidate if the base is there too.

    call            records                    settles
    register t      t as the base of its key   the key of t
    submit c        c as waiting, if current   the entity of c, if the policy applies on arrival
    applyPending k  nothing                    k

`Rig.handed` is what the second step applies, and `perform_of_handed`, `perform_of_not_handed` say
that the call makes the tries of that application and no others.  A direct application passes the
registry by and hands nothing over.
-/

namespace Hotswap

open Machine (Address)
open Entity (Table)

variable {σ ε : Type}

/-- The same ending with another value. -/
def Ending.map {α β : Type} (f : α → β) : Ending ε α → Ending ε β
  | .ok value => .ok (f value)
  | .error cause => .error cause
  | .aborted => .aborted

theorem Ending.eq_error_of_map {α β : Type} {f : α → β} {answer : Ending ε α} {e : ε}
    (h : answer.map f = .error e) : answer = .error e := by
  cases answer with
  | error cause => exact congrArg Ending.error (Ending.error.inj h)
  | ok value => cases h
  | aborted => cases h

theorem Ending.eq_aborted_of_map {α β : Type} {f : α → β} {answer : Ending ε α}
    (h : answer.map f = .aborted) : answer = .aborted := by
  cases answer with
  | aborted => rfl
  | ok value => cases h
  | error cause => cases h

theorem Effect.next_pure {τ α β : Type} (e : Effect τ σ (Ending ε α)) (f : α → β) :
    (e.next fun value s => .pure (.ok (f value)) s) = ⟨e.answer.map f, e.state, e.trace⟩ := by
  cases h : e.answer with
  | ok value =>
      rw [next_ok h]
      simp only [after, pure, List.append_nil, Ending.map]
  | error cause => rw [next_error h, Ending.map]
  | aborted => rw [next_aborted h, Ending.map]

/-! ## Slots -/

theorem Registry.put_put (r : Registry) (key : String) (first second : Slot) :
    (r.put key first).put key second = r.put key second := by
  simp only [put, mk.injEq]
  funext k
  split <;> rfl

/-- The slot after its candidate was applied with this answer. -/
def Slot.settled (slot : Slot) (answer : Ending (PatchError ε) Nat) : Slot :=
  { slot with
    pending := none
    status := match answer with
      | .ok (_ + 1) => slot.status.advance
      | _ => slot.status }

namespace Session

/-- The base and the candidate of a key, if both are there. -/
def ready (s : Session σ) (key : String) : Option (Table × Candidate) :=
  match (s.slot key).base, (s.slot key).pending with
  | some base, some c => some (base, c)
  | _, _ => none

theorem ready_eq_some_iff {s : Session σ} {key : String} {base : Table} {c : Candidate} :
    s.ready key = some (base, c)
      ↔ (s.slot key).base = some base ∧ (s.slot key).pending = some c := by
  unfold ready
  cases (s.slot key).base with
  | none => simp
  | some base' =>
      cases (s.slot key).pending with
      | none => simp
      | some c' => simp

/-- What a call writes down before it applies anything. -/
def record (s : Session σ) : Call → Session σ
  | .register table => s.put table.key { s.slot table.key with base := some table }
  | .submit c =>
    if c.isCurrent then s.put c.entity { s.slot c.entity with pending := some c } else s
  | .applyPending _ => s
  | .apply _ _ => s

@[simp] theorem writer_record (s : Session σ) (call : Call) :
    (s.record call).writer = s.writer := by
  cases call with
  | submit c =>
      simp only [record]
      split <;> rfl
  | _ => rfl

end Session

/-- Whether a call passes the registry by. -/
def Call.isDirect : Call → Bool
  | .apply _ _ => true
  | _ => false

/-- What a call answers that goes through the registry and hands nothing over. -/
inductive Call.Idles : Call → Ending (PatchError ε) Submission → Prop
  | registered {table : Table} : Idles (.register table) (.ok (.applied 0))
  | asked {key : String} : Idles (.applyPending key) (.ok (.applied 0))
  | waiting {c : Candidate} : c.isCurrent → Idles (.submit c) (.ok .pending)
  | rejected {c : Candidate} :
      ¬ c.isCurrent → Idles (.submit c) (.error (.version c.entity c.moduleVersion c.version))

/-! ## Settling -/

namespace Rig

variable (rig : Rig σ ε)

theorem settle_of_not_ready {key : String} {s : Session σ} (h : s.ready key = none) :
    rig.settle key s = .pure (.ok 0) s := by
  unfold Session.ready at h
  simp only [settle]
  split
  · rename_i base c hbase hpending
    rw [hbase, hpending] at h
    exact absurd h nofun
  · rfl

/-- Settling a key that is ready is one application, and uses the candidate up. -/
theorem settle_of_ready {key : String} {s : Session σ} {base : Table} {c : Candidate}
    (h : s.ready key = some (base, c)) :
    rig.settle key s
      = ⟨(rig.apply base c.table s.writer).answer,
        ⟨s.registry.put key ((s.slot key).settled (rig.apply base c.table s.writer).answer),
          (rig.apply base c.table s.writer).state⟩,
        (rig.apply base c.table s.writer).trace⟩ := by
  obtain ⟨hbase, hpending⟩ := Session.ready_eq_some_iff.mp h
  simp only [settle, hbase, hpending]
  have hanswer (slot : Slot) : (rig.applyTables base c.table (s.put key slot)).answer
      = (rig.apply base c.table s.writer).answer := rfl
  cases happly : (rig.apply base c.table s.writer).answer with
  | ok count =>
      rw [Effect.next_ok ((hanswer _).trans happly)]
      cases count with
      | zero =>
          simp only [Slot.settled, hbase, if_true]
          simp only [applyTables, Effect.mapState, Effect.after, Effect.pure, List.append_nil]
          rfl
      | succ count =>
          simp only [Slot.settled, hbase, Nat.add_one_ne_zero, if_false]
          simp only [applyTables, Effect.mapState, Effect.after, Effect.pure, List.append_nil,
            Session.put, Registry.put_put]
  | error cause =>
      rw [Effect.next_error ((hanswer _).trans happly)]
      simp only [Slot.settled, hbase]
      rfl
  | aborted =>
      rw [Effect.next_aborted ((hanswer _).trans happly)]
      simp only [Slot.settled, hbase]
      rfl

/-! ## Recording, then settling -/

/-- The key that a call settles once it has recorded, if it settles one. -/
def settles (s : Session σ) : Call → Option String
  | .register table => some table.key
  | .submit c =>
    if c.isCurrent && rig.policy.applyOnSubmit && (s.slot c.entity).base.isSome then some c.entity
    else none
  | .applyPending key => some key
  | .apply _ _ => none

/-- The base and the candidate that a call hands to an application, if it does. -/
def handed (s : Session σ) (call : Call) : Option (Table × Candidate) :=
  (rig.settles s call).bind (s.record call).ready

variable {rig} {s : Session σ}

theorem tries_dropped {α : Type} (record : Log.Record) (waiting : Option Candidate)
    (text : Candidate → Log.Record) (e : Effect Event (Session σ) α) :
    Event.tries (e.after (.note record :: waiting.toList.map fun old => .note (text old))).trace
      = Event.tries e.trace := by
  cases waiting with
  | none => rfl
  | some old => rfl

theorem perform_of_settles {call : Call} {key : String} (h : rig.settles s call = some key) :
    (rig.perform s call).answer = (rig.settle key (s.record call)).answer.map .applied
      ∧ (rig.perform s call).state = (rig.settle key (s.record call)).state
      ∧ Event.tries (rig.perform s call).trace
        = Event.tries (rig.settle key (s.record call)).trace := by
  cases call with
  | register table =>
      cases h
      rw [perform, Effect.next_pure]
      exact ⟨rfl, rfl, rfl⟩
  | submit c =>
      obtain ⟨hready, hkey⟩ := Option.ite_none_right_eq_some.mp h
      cases hkey
      obtain ⟨⟨hcurrent, hpolicy⟩, hbase⟩ := by simpa only [Bool.and_eq_true] using hready
      simp only [perform, submit, if_pos hcurrent, hpolicy, hbase, Bool.and_self, if_true,
        Session.record, Effect.next_pure]
      exact ⟨rfl, rfl, tries_dropped ..⟩
  | applyPending key' =>
      cases h
      rw [perform, applyPending, Effect.next_pure]
      exact ⟨rfl, rfl, rfl⟩
  | apply base patch => cases h

theorem perform_of_not_settles {call : Call} (hdirect : call.isDirect = false)
    (h : rig.settles s call = none) :
    call.Idles (rig.perform s call).answer
      ∧ (rig.perform s call).state = s.record call
      ∧ Event.tries (rig.perform s call).trace = [] := by
  cases call with
  | submit c =>
      by_cases hcurrent : c.isCurrent
      · have hwaits : (rig.policy.applyOnSubmit && (s.slot c.entity).base.isSome) = false := by
          simpa [settles, hcurrent] using h
        simp only [perform, submit, if_pos hcurrent, hwaits, Bool.false_eq_true, if_false,
          Session.record]
        exact ⟨.waiting hcurrent, rfl, tries_dropped ..⟩
      · simp only [perform, submit, if_neg hcurrent, Session.record]
        exact ⟨.rejected hcurrent, rfl, rfl⟩
  | register table => cases h
  | applyPending key => cases h
  | apply base patch => cases hdirect

/-- A call that hands something over is that application, whatever it recorded before. -/
theorem perform_of_handed {call : Call} {base : Table} {c : Candidate}
    (h : rig.handed s call = some (base, c)) :
    ∃ key, rig.settles s call = some key ∧ (s.record call).ready key = some (base, c)
      ∧ (rig.perform s call).answer = (rig.apply base c.table s.writer).answer.map .applied
      ∧ (rig.perform s call).state
        = ⟨(s.record call).registry.put key
            (((s.record call).slot key).settled (rig.apply base c.table s.writer).answer),
          (rig.apply base c.table s.writer).state⟩
      ∧ Event.tries (rig.perform s call).trace
        = Event.tries (rig.apply base c.table s.writer).trace := by
  obtain ⟨key, hsettles, hready⟩ := Option.bind_eq_some_iff.mp h
  obtain ⟨hanswer, hstate, htries⟩ := perform_of_settles hsettles
  rw [rig.settle_of_ready hready, Session.writer_record] at hanswer hstate htries
  exact ⟨key, hsettles, hready, hanswer, hstate, htries⟩

theorem ready_of_settles_submit {c : Candidate} {key : String}
    (h : rig.settles s (.submit c) = some key) :
    ∃ base, (s.record (.submit c)).ready key = some (base, c) := by
  obtain ⟨hready, hkey⟩ := Option.ite_none_right_eq_some.mp h
  cases hkey
  obtain ⟨⟨hcurrent, -⟩, hbase⟩ := by simpa only [Bool.and_eq_true] using hready
  obtain ⟨base, hbase⟩ := Option.isSome_iff_exists.mp hbase
  have hslot : (s.record (.submit c)).slot c.entity
      = { s.slot c.entity with pending := some c } := by
    rw [Session.record, if_pos hcurrent]
    exact Registry.slot_put_self ..
  refine ⟨base, Session.ready_eq_some_iff.mpr ?_⟩
  rw [hslot]
  exact ⟨hbase, rfl⟩

/-- A call that hands nothing over only records. -/
theorem perform_of_not_handed {call : Call} (hdirect : call.isDirect = false)
    (h : rig.handed s call = none) :
    call.Idles (rig.perform s call).answer
      ∧ (rig.perform s call).state = s.record call
      ∧ Event.tries (rig.perform s call).trace = [] := by
  cases hsettles : rig.settles s call with
  | none => exact perform_of_not_settles hdirect hsettles
  | some key =>
      have hready : (s.record call).ready key = none := by simpa [handed, hsettles] using h
      obtain ⟨hanswer, hstate, htries⟩ := perform_of_settles hsettles
      rw [rig.settle_of_not_ready hready] at hanswer hstate htries
      refine ⟨?_, hstate, htries⟩
      rw [hanswer]
      cases call with
      | register table => exact .registered
      | applyPending key => exact .asked
      | submit c =>
          obtain ⟨base, hsome⟩ := ready_of_settles_submit hsettles
          cases hready.symm.trans hsome
      | apply base patch => cases hdirect

theorem perform_direct (base patch : Table) :
    (rig.perform s (.apply base patch)).answer
        = (rig.apply base patch s.writer).answer.map .applied
      ∧ (rig.perform s (.apply base patch)).state
        = { s with writer := (rig.apply base patch s.writer).state }
      ∧ Event.tries (rig.perform s (.apply base patch)).trace
        = Event.tries (rig.apply base patch s.writer).trace := by
  rw [perform, Effect.next_pure]
  exact ⟨rfl, rfl, rfl⟩

/-! ## Every call, direct or not -/

/-- The tables that a call applies, if it applies any. -/
def applied (rig : Rig σ ε) (s : Session σ) : Call → Option (Table × Table)
  | .apply base patch => some (base, patch)
  | call => (rig.handed s call).map fun both => (both.1, both.2.table)

theorem applied_of_not_direct {call : Call} (h : call.isDirect = false) :
    rig.applied s call = (rig.handed s call).map fun both => (both.1, both.2.table) := by
  cases call with
  | apply base patch => cases h
  | _ => rfl

theorem perform_of_applied {call : Call} {base patch : Table}
    (h : rig.applied s call = some (base, patch)) :
    (rig.perform s call).answer = (rig.apply base patch s.writer).answer.map .applied
      ∧ Event.tries (rig.perform s call).trace
        = Event.tries (rig.apply base patch s.writer).trace
      ∧ (rig.perform s call).state.writer = (rig.apply base patch s.writer).state := by
  cases hdirect : call.isDirect with
  | true =>
      cases call with
      | apply base' patch' =>
          cases h
          obtain ⟨hanswer, hstate, htries⟩ := rig.perform_direct (s := s) base patch
          exact ⟨hanswer, htries, congrArg Session.writer hstate⟩
      | _ => cases hdirect
  | false =>
      rw [applied_of_not_direct hdirect] at h
      obtain ⟨⟨_, c⟩, hhanded, hboth⟩ := Option.map_eq_some_iff.mp h
      cases hboth
      obtain ⟨key, -, -, hanswer, hstate, htries⟩ := perform_of_handed hhanded
      exact ⟨hanswer, htries, congrArg Session.writer hstate⟩

theorem perform_of_not_applied {call : Call} (h : rig.applied s call = none) :
    call.Idles (rig.perform s call).answer
      ∧ Event.tries (rig.perform s call).trace = []
      ∧ (rig.perform s call).state.writer = s.writer := by
  cases hdirect : call.isDirect with
  | true =>
      cases call with
      | apply base' patch' => cases h
      | _ => cases hdirect
  | false =>
      rw [applied_of_not_direct hdirect] at h
      obtain ⟨hanswer, hstate, htries⟩ :=
        perform_of_not_handed hdirect (Option.map_eq_none_iff.mp h)
      refine ⟨hanswer, htries, ?_⟩
      rw [hstate, Session.writer_record]

theorem perform_ne_aborted {call : Call} (hpolicy : rig.policy.abortOnFault = false) :
    (rig.perform s call).answer ≠ .aborted := by
  intro haborted
  cases happlied : rig.applied s call with
  | none =>
      obtain ⟨hidles, -⟩ := perform_of_not_applied happlied
      rw [haborted] at hidles
      cases hidles
  | some tables =>
      obtain ⟨hanswer, -⟩ := perform_of_applied happlied
      exact (rig.apply_applies tables.1 tables.2 s.writer).ne_aborted hpolicy
        (Ending.eq_aborted_of_map (hanswer.symm.trans haborted))

end Rig
end Hotswap
