import Hotswap.Memory.Execution
import Hotswap.Session.Apply

/-!
# Self test

Redirects one private function to another and looks whether that worked: first at the bytes over the
entry, then at the value that a call returns. The memory that the process runs in is read off the
state of the writer, and need not be what the writer writes to.
-/

namespace Hotswap

open Machine (Address)

variable {σ ε : Type}

/-- The two functions of the self test, and the memory that they run in. -/
structure Probe (σ : Type) where
  source : Address
  replacement : Address
  memory : σ → Memory
  /-- How many jumps a call may take. -/
  jumps : Nat

/-- The value of a call, as far as it has one. -/
def Probe.call (probe : Probe σ) (s : σ) (location : Address) : Option UInt32 :=
  (probe.memory s).call probe.jumps location

namespace Rig

/-- The redirect was silently without effect. -/
def noEffect (found : String) (s : σ) : Effect Event σ (Ending (PatchError ε) Unit) :=
  ⟨.error .ineffective, s, [.note (Log.error ("self test failed: " ++ found))]⟩

/-- Whether redirecting the source function of the probe makes its calls reach the replacement. -/
def selfTest (rig : Rig σ ε) (probe : Probe σ) (s : σ) :
    Effect Event σ (Ending (PatchError ε) Unit) :=
  (rig.redirectPair "self test" ⟨"self_test", probe.source, probe.replacement⟩ s).next fun () s =>
    match rig.encode probe.replacement with
    | .error cause => .pure (.error (.code cause)) s
    | .ok code =>
      if (probe.memory s).load probe.source code.length ≠ code then
        noEffect ("no trampoline at " ++ Text.hex probe.source.toNat) s
      else if probe.call s probe.source ≠ probe.call s probe.replacement then
        noEffect ("redirected call returned "
          ++ toString ((probe.call s probe.source).getD 0)) s
      else ⟨.ok (), s, [.note (Log.debug "self test passed")]⟩

end Rig
end Hotswap
