import Hotswap.Session.Basic

/-!
# Applying a patch

A patch is applied as a whole or from the front: the tables are paired first, a pair that would
redirect a function to itself stops everything, and then the pairs are redirected in order up to the
first that fails. Nothing is undone.
-/

namespace Hotswap.Rig

open Entity (Pair Table)

variable {σ ε : Type}

/-- Redirects the operation of one pair. -/
def redirectPair (rig : Rig σ ε) (entity : String) (pair : Pair) (s : σ) :
    Effect Event σ (Ending (PatchError ε) Unit) :=
  (rig.writer.redirect rig.encode pair.base pair.patch s).andThen fun
    | .ok (), s =>
      ⟨.ok (), s, [.note (Log.debug ("redirected " ++ entity ++ "::" ++ pair.name ++ " "
        ++ Text.hex pair.base.toNat ++ " -> " ++ Text.hex pair.patch.toNat))]⟩
    | .error (.code cause), s => .pure (.error (.code cause)) s
    | .error (.sameAddress address), s => rig.fault (.sameAddress entity pair.name address) s
    | .error (.write cause), s => rig.fault (.install entity pair.name pair.base cause) s

/-- Redirects the operations of the pairs, up to the first that fails. -/
def redirectAll (rig : Rig σ ε) (entity : String) :
    List Pair → σ → Effect Event σ (Ending (PatchError ε) Unit)
  | [], s => .pure (.ok ()) s
  | pair :: pairs, s =>
    (rig.redirectPair entity pair s).next fun () s => rig.redirectAll entity pairs s

/-- Applies `patch` over `base` and answers with the number of redirected operations. -/
def apply (rig : Rig σ ε) (base patch : Table) (s : σ) :
    Effect Event σ (Ending (PatchError ε) Nat) :=
  let entity := base.key
  Effect.after [.note (Log.info ("apply patching to " ++ entity))] <|
    match base.pairing patch with
    | .error cause => .pure (.error (.pairing cause)) s
    | .ok pairs =>
      match pairs.find? fun pair => pair.base == pair.patch with
      | some pair => rig.fault (.sameAddress entity pair.name pair.base) s
      | none =>
        (rig.redirectAll entity pairs s).next fun () s =>
          ⟨.ok pairs.length, s, [.note (Log.info ("patched " ++ toString pairs.length
            ++ " method(s) of " ++ entity))]⟩

end Hotswap.Rig
