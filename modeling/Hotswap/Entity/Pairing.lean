import Hotswap.Entity.Table
import Hotswap.Text.Hex

/-!
# Pairing

Which operations of a base entity a patch entity replaces. The patch must be the base,
embedded at the front of an entity of the same size and alignment; every operation that it
overrides must have exactly the base's signature, receivers apart, and both entry addresses.
Nothing here looks at code.

The first fault in declaration order of the base decides, and for one operation the signature
comes before the addresses.
-/

namespace Hotswap.Entity

open Machine (Address)

/-- How two signatures differ; positions count from zero. -/
inductive Misfit where
  | parameterCount
  | returnCount
  /-- A receiver is not the entity of its table, or the patch entity does not start with the
  base. -/
  | receiver
  | parameterType (position : Nat)
  /-- A receiver stands against a value. -/
  | parameterKind (position : Nat)
  | returnType (position : Nat)
deriving DecidableEq, Repr

def Misfit.message : Misfit → String
  | .parameterCount => "input param count mismatch"
  | .returnCount => "output param count mismatch"
  | .receiver => "receiver not compatible"
  | .parameterType i => "input param " ++ toString i ++ " type mismatch"
  | .parameterKind i => "input param " ++ toString i ++ " kind mismatch"
  | .returnType i => "output param " ++ toString i ++ " type mismatch"

/-- Why a patch is rejected as a whole. -/
inductive PairingError where
  /-- The patch does not embed the base at its front. -/
  | foreign (base patch : ValueType)
  /-- The patch embeds the base, but has another size or alignment. -/
  | resized (base patch : ValueType)
  /-- A replacement has another signature than its base. -/
  | signature (entity : String) (misfit : Misfit) (base patch : Operation)
  /-- One of the two entry addresses is missing. -/
  | unresolved (entity operation : String)
  /-- Two base operations share one entry, so that redirecting one redirects both. -/
  | aliased (entity first second : String) (address : Address)
deriving DecidableEq, Repr

def PairingError.message : PairingError → String
  | .foreign base patch =>
    base.name ++ ": patch type must embed orig type as first elem, orig: " ++ base.name
      ++ ", patch: " ++ patch.name
  | .resized base patch =>
    base.name ++ ": patch type must not have extra fields, orig size: "
      ++ toString base.size ++ ", patch size: " ++ toString patch.size
  | .signature entity misfit base patch =>
    entity ++ " method " ++ base.name ++ ", " ++ misfit.message ++ ", orig: " ++ base.text
      ++ ", patch: " ++ patch.text
  | .unresolved entity operation =>
    entity ++ " method " ++ operation ++ " has no resolved entry address"
  | .aliased entity first second address =>
    entity ++ " methods " ++ first ++ " and " ++ second ++ " share the entry address "
      ++ Text.hex address.toNat

/-- A base operation and the entry of its replacement. -/
structure Pair where
  name : String
  base : Address
  patch : Address
deriving DecidableEq, Repr

/-! ## Layouts -/

/-- Whether `base` is embedded at the front of `patch`. -/
def Layout.isEmbeddedIn (base patch : Layout) : Bool :=
  match patch.firstField with
  | some f => f.offset == 0 && f.embedded == some base
  | none => false

/-- The fault of `patch` as an overlay of `base`, if it has one. -/
def Layout.overlayFault? (base patch : Layout) : Option PairingError :=
  if !base.isEmbeddedIn patch then some (.foreign base.type patch.type)
  else if patch.type.size ≠ base.type.size ∨ patch.type.align ≠ base.type.align then
    some (.resized base.type patch.type)
  else none

theorem Layout.isEmbeddedIn_iff {base patch : Layout} :
    base.isEmbeddedIn patch = true
      ↔ ∃ f, patch.firstField = some f ∧ f.offset = 0 ∧ f.embedded = some base := by
  unfold isEmbeddedIn
  cases patch.firstField with
  | none => simp
  | some f => simp

theorem Layout.overlayFault?_eq_none_iff {base patch : Layout} :
    base.overlayFault? patch = none ↔ base.IsOverlay patch := by
  unfold overlayFault? IsOverlay
  rw [← isEmbeddedIn_iff]
  cases base.isEmbeddedIn patch with
  | false => simp
  | true =>
    simp only [Bool.not_true, Bool.false_eq_true, if_false, true_and]
    split
    · rename_i h
      exact ⟨nofun, fun same => absurd h (not_or.2 ⟨absurd same.1, absurd same.2⟩)⟩
    · rename_i h
      exact ⟨fun _ => ⟨Decidable.not_not.1 (not_or.1 h).1, Decidable.not_not.1 (not_or.1 h).2⟩,
        fun _ => rfl⟩

/-! ## Signatures -/

/-- The fault of the parameter `new` in place of `old`. -/
def Param.misfit? (base patch : Layout) (position : Nat) : Param → Param → Option Misfit
  | .receiver pointee _, .receiver newPointee firstField =>
    if pointee = base.type ∧ newPointee = patch.type ∧ firstField = some pointee then none
    else some .receiver
  | .value old, .value new => if old = new then none else some (.parameterType position)
  | _, _ => some (.parameterKind position)

/-- The first fault among the parameters from `position` on. -/
def paramsMisfit? (base patch : Layout) (position : Nat) :
    List Param → List Param → Option Misfit
  | old :: olds, new :: news =>
    (old.misfit? base patch position new).or
      (paramsMisfit? base patch (position + 1) olds news)
  | _, _ => none

/-- The first fault among the returned types from `position` on. -/
def returnsMisfit? (position : Nat) : List ValueType → List ValueType → Option Misfit
  | old :: olds, new :: news =>
    if old = new then returnsMisfit? (position + 1) olds news else some (.returnType position)
  | _, _ => none

/-- The fault of the signature of `new` in place of that of `old`. -/
def Operation.misfit? (base patch : Layout) (old new : Operation) : Option Misfit :=
  if old.params.length ≠ new.params.length then some .parameterCount
  else if old.returns.length ≠ new.returns.length then some .returnCount
  else (paramsMisfit? base patch 0 old.params new.params).or
    (returnsMisfit? 0 old.returns new.returns)

/-! ## Tables -/

namespace Table

/-- The pair of `old` with its replacement `new`, after the pairs in `earlier`. -/
def pairOf (base patch : Table) (earlier : List Pair) (old new : Operation) :
    Except PairingError Pair :=
  match old.misfit? base.layout patch.layout new with
  | some misfit => .error (.signature base.key misfit old new)
  | none =>
    if old.entry = 0 ∨ new.entry = 0 then .error (.unresolved base.key old.name)
    else
      match earlier.find? fun pair => pair.base == old.entry with
      | some pair => .error (.aliased base.key pair.name old.name old.entry)
      | none => .ok ⟨old.name, old.entry, new.entry⟩

/-- The pairs of the given base operations, after the pairs in `earlier`. -/
def pairsFrom (base patch : Table) (earlier : List Pair) :
    List Operation → Except PairingError (List Pair)
  | [] => .ok []
  | old :: olds =>
    match patch.override? old.name with
    | none => pairsFrom base patch earlier olds
    | some new =>
      match pairOf base patch earlier old new with
      | .error e => .error e
      | .ok pair =>
        match pairsFrom base patch (earlier ++ [pair]) olds with
        | .error e => .error e
        | .ok pairs => .ok (pair :: pairs)

/-- Every operation of `base` to redirect into `patch`, in the order of `base`. -/
def pairing (base patch : Table) : Except PairingError (List Pair) :=
  match base.layout.overlayFault? patch.layout with
  | some fault => .error fault
  | none => pairsFrom base patch [] base.operations

end Table

end Hotswap.Entity
