import Hotswap.Session.Apply

/-!
# Calls of a session

Base entities and candidates may arrive in any order. A candidate waits until its base is there, and
under a policy that does not apply on arrival until it is asked for; a newer one takes its place. A
candidate that is applied is used up, whether the application succeeds or not.
-/

namespace Hotswap

open Entity (Table)

variable {σ ε : Type}

/-- What became of an accepted candidate. -/
inductive Submission where
  /-- It was applied, and redirected so many operations. -/
  | applied (count : Nat)
  | pending
deriving DecidableEq, Repr

namespace Session

/-- A session that knows nothing. -/
def fresh (writer : σ) : Session σ :=
  ⟨.empty, writer⟩

/-- What is known about the entity `key`. -/
def slot (s : Session σ) (key : String) : Slot :=
  s.registry.slot key

/-- Replaces what is known about the entity `key`. -/
def put (s : Session σ) (key : String) (slot : Slot) : Session σ :=
  { s with registry := s.registry.put key slot }

/-- Whether and how often the entity `key` was patched. -/
def status (s : Session σ) (key : String) : Status :=
  (s.slot key).status

/-- Whether a candidate waits for the entity `key`. -/
def isPending (s : Session σ) (key : String) : Bool :=
  (s.slot key).pending.isSome

/-- Whether the base `key` is registered. -/
def isRegistered (s : Session σ) (key : String) : Bool :=
  (s.slot key).base.isSome

end Session

namespace Rig

/-- Applies a patch directly, past the registry. -/
def applyTables (rig : Rig σ ε) (base patch : Table) (s : Session σ) :
    Effect Event (Session σ) (Ending (PatchError ε) Nat) :=
  (rig.apply base patch s.writer).mapState fun w => { s with writer := w }

/-- Applies and uses up the waiting candidate of `key`, if the base is there as well. The
status advances only if some operation was redirected. -/
def settle (rig : Rig σ ε) (key : String) (s : Session σ) :
    Effect Event (Session σ) (Ending (PatchError ε) Nat) :=
  let slot := s.slot key
  match slot.base, slot.pending with
  | some base, some candidate =>
    let used := { slot with pending := none }
    (rig.applyTables base candidate.table (s.put key used)).next fun count s =>
      if count = 0 then .pure (.ok count) s
      else .pure (.ok count) (s.put key { used with status := used.status.advance })
  | _, _ => .pure (.ok 0) s

/-- Registers the table of a base and applies a candidate that waits for it. -/
def register (rig : Rig σ ε) (table : Table) (s : Session σ) :
    Effect Event (Session σ) (Ending (PatchError ε) Nat) :=
  let key := table.key
  (rig.settle key (s.put key { s.slot key with base := some table })).after
    [.note (Log.debug ("registered " ++ key))]

/-- Offers a candidate. Its version is checked before anything else. -/
def submit (rig : Rig σ ε) (c : Candidate) (s : Session σ) :
    Effect Event (Session σ) (Ending (PatchError ε) Submission) :=
  if c.isCurrent then
    let slot := s.slot c.entity
    let dropped := slot.pending.toList.map fun old =>
      Event.note (Log.debug ("dropped older pending patch for " ++ old.entity))
    let s := s.put c.entity { slot with pending := some c }
    Effect.after (.note (Log.info ("patch detected: " ++ c.entity)) :: dropped) <|
      if rig.policy.applyOnSubmit && slot.base.isSome then
        (rig.settle c.entity s).next fun count s => .pure (.ok (.applied count)) s
      else .pure (.ok .pending) s
  else .pure (.error (.version c.entity c.moduleVersion c.version)) s

/-- Applies the waiting candidate of `key`: what to call at a point where no thread runs the
operations of the entity. -/
def applyPending (rig : Rig σ ε) (key : String) (s : Session σ) :
    Effect Event (Session σ) (Ending (PatchError ε) Nat) :=
  rig.settle key s

end Rig

/-! ## Runs -/

/-- A call of a session. -/
inductive Call where
  | register (table : Table)
  | submit (candidate : Candidate)
  | applyPending (key : String)
  | apply (base patch : Table)
deriving DecidableEq

namespace Rig

/-- Makes one call. Calls that answer with a count count as applied. -/
def perform (rig : Rig σ ε) (s : Session σ) :
    Call → Effect Event (Session σ) (Ending (PatchError ε) Submission)
  | .register table =>
    (rig.register table s).next fun count s => .pure (.ok (.applied count)) s
  | .submit candidate => rig.submit candidate s
  | .applyPending key =>
    (rig.applyPending key s).next fun count s => .pure (.ok (.applied count)) s
  | .apply base patch =>
    (rig.applyTables base patch s).next fun count s => .pure (.ok (.applied count)) s

/-- Makes the calls in order and answers with the effect of each; a stop of the process ends the
run. -/
def run (rig : Rig σ ε) :
    Session σ → List Call → List (Effect Event (Session σ) (Ending (PatchError ε) Submission))
  | _, [] => []
  | s, call :: calls =>
    let e := rig.perform s call
    match e.answer with
    | .aborted => [e]
    | _ => e :: rig.run e.state calls

end Rig
end Hotswap
