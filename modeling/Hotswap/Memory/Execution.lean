import Hotswap.Machine.Reading
import Hotswap.Memory.Basic

/-!
# Running a function

Just enough of a processor to call the functions that are redirected here: one that loads a value
and returns, and one that starts with a trampoline.

    B8 imm32 C3      mov eax, imm32; ret
-/

namespace Hotswap

open Machine (Address Arch)

/-- What the code at an address does next. -/
inductive Motion where
  | answer (value : UInt32)
  | jump (target : Address)
deriving DecidableEq, Repr

namespace Memory

/-- The target of the trampoline at `location`, if there is one. -/
def trampolineAt (m : Memory) (arch : Arch) (location : Address) : Option Address :=
  (arch.target (m.load location arch.trampolineLength)).toOption

/-- The value of the function at `location` that loads it and returns. -/
def constantAt (m : Memory) (location : Address) : Option UInt32 :=
  match m.load location 6 with
  | [0xB8, a, b, c, d, 0xC3] => some (UInt32.ofNat (Machine.ofBytes [a, b, c, d]))
  | _ => none

/-- What the code at `location` does, if it is one of the known forms. -/
def motionAt (m : Memory) (location : Address) : Option Motion :=
  match m.constantAt location with
  | some value => some (.answer value)
  | none =>
    ((m.trampolineAt .x64 location).or (m.trampolineAt .x86 location)).map .jump

/-- The answer of a call of `location` that takes at most `jumps` jumps. -/
def call (m : Memory) : (jumps : Nat) → Address → Option UInt32
  | jumps, location =>
    match m.motionAt location with
    | none => none
    | some (.answer value) => some value
    | some (.jump target) =>
      match jumps with
      | 0 => none
      | jumps + 1 => m.call jumps target

end Memory
end Hotswap
