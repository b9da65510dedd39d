import Hotswap.Effect
import Hotswap.Entity.Pairing
import Hotswap.Redirect
import Hotswap.Text.Quoted

/-!
# Sessions

A session keeps, for every entity, the table of the base once it is registered, the newest
candidate that waits to be applied, and how many patches were applied so far. What does not change
during a session (how jumps are encoded, the writer, the policy) is its rig.
-/

namespace Hotswap

open Machine (Address CodeError)
open Entity (PairingError Table)

/-- The switches of a session. -/
structure Policy where
  /-- Stop the process at a fault that leaves code in doubt. -/
  abortOnFault : Bool := true
  /-- Apply a candidate as it arrives, if its base is registered. -/
  applyOnSubmit : Bool := true
deriving DecidableEq, Repr

/-- A patch offered for a base entity. -/
structure Candidate where
  /-- The key of the base. -/
  entity : String
  /-- The version of the module that delivered the candidate. -/
  moduleVersion : String
  /-- The version that the author of the patch attached. -/
  version : Option String
  /-- The table of the patch entity. -/
  table : Table
deriving DecidableEq

/-- Whether the attached version is that of the delivering module. -/
def Candidate.isCurrent (c : Candidate) : Bool :=
  c.version == some c.moduleVersion

/-- How often an entity was patched. -/
inductive Status where
  | unpatched
  | patched (generation : UInt32)
deriving DecidableEq, Repr

namespace Status

/-- The number of patches applied. -/
def generation : Status → UInt32
  | unpatched => 0
  | patched generation => generation

/-- One patch more. -/
def advance : Status → Status
  | unpatched => patched 1
  | patched generation => patched (generation + 1)

end Status

/-- What is known about one entity. -/
structure Slot where
  base : Option Table := none
  /-- The newest candidate not yet applied. -/
  pending : Option Candidate := none
  status : Status := .unpatched
deriving DecidableEq

/-- The slot of every key; keys that never came up have the empty slot. -/
structure Registry where
  slot : String → Slot

namespace Registry

/-- Nothing is known. -/
def empty : Registry :=
  ⟨fun _ => {}⟩

/-- Replaces the slot of `key`. -/
def put (r : Registry) (key : String) (s : Slot) : Registry :=
  ⟨fun k => if k = key then s else r.slot k⟩

@[simp] theorem slot_empty (key : String) : empty.slot key = {} := rfl

@[simp] theorem slot_put_self (r : Registry) (key : String) (s : Slot) :
    (r.put key s).slot key = s := if_pos rfl

end Registry

/-- What stays fixed during a session. -/
structure Rig (σ ε : Type) where
  encode : Encoder
  writer : Writer σ ε
  policy : Policy

/-- The state of a session: what it knows, and the state of its writer. -/
structure Session (σ : Type) where
  registry : Registry
  writer : σ

/-- Why a patch was not applied. -/
inductive PatchError (ε : Type) where
  /-- The patch was rejected; nothing was written. -/
  | pairing (cause : PairingError)
  /-- The attached version is not that of the delivering module. -/
  | version (entity expected : String) (found : Option String)
  /-- An operation would be redirected to itself. -/
  | sameAddress (entity operation : String) (address : Address)
  /-- There is no trampoline to a replacement. -/
  | code (cause : CodeError)
  /-- The writer refused; the code may be left in doubt. -/
  | install (entity operation : String) (address : Address) (cause : ε)
  /-- A redirected test function still runs its own body. -/
  | ineffective
deriving DecidableEq, Repr

namespace PatchError

variable {ε : Type}

/-- Whether the process should not go on after the error. -/
def isFatal : PatchError ε → Bool
  | sameAddress _ _ _ => true
  | install _ _ _ _ => true
  | _ => false

def message : PatchError ε → String
  | pairing cause => cause.message
  | version entity expected found =>
    entity ++ ": version tag " ++ Text.quotedOption found ++ " does not match module version "
      ++ expected
  | sameAddress entity operation address =>
    entity ++ " method " ++ operation ++ ": patch and original are the same function at "
      ++ Text.hex address.toNat
  | code cause => cause.message
  | install entity operation address _ =>
    "failed to redirect " ++ entity ++ " method " ++ operation ++ " at "
      ++ Text.hex address.toNat
  | ineffective => "redirected functions still run their original body on this platform"

end PatchError

/-- Raises a fatal error: the process is stopped if the policy says so. -/
def Rig.fault {σ ε α : Type} (rig : Rig σ ε) (cause : PatchError ε) (s : σ) :
    Effect Event σ (Ending (PatchError ε) α) :=
  if rig.policy.abortOnFault then
    ⟨.aborted, s, [.note (Log.error (cause.message ++ "; aborting"))]⟩
  else ⟨.error cause, s, [.note (Log.error cause.message)]⟩

end Hotswap
