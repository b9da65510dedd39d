import Hotswap.Machine.Trampoline

/-!
# Reading trampolines back

The target of a trampoline, recovered from its bytes. The two x86 sets are read an instruction at a
time, so an instruction counts however it is encoded: modifier bytes in front of the load do not
change it (but leave too little room for the jump), and of a REX byte only the bits that pick the
register and the width matter.
-/

namespace Hotswap.Machine

/-- Splits off an immediate of `k` bytes, if there are as many. -/
def immediate? (k : Nat) (bytes : List UInt8) : Option (Nat × List UInt8) :=
  if k ≤ bytes.length then some (ofBytes (bytes.take k), bytes.drop k) else none

/-- Modifier bytes that leave a register load as it is: segments, repetition, address width. -/
def isModifier (b : UInt8) : Bool :=
  [0x26, 0x2E, 0x36, 0x3E, 0x64, 0x65, 0x67, 0xF2, 0xF3].contains b

/-- The modifier byte for 16-bit operands. -/
def isNarrowing (b : UInt8) : Bool :=
  b == 0x66

/-- A REX byte, `0100WRXB`. -/
def isRex (b : UInt8) : Bool :=
  b &&& 0xF0 == 0x40

/-- A REX byte with `W` and `B`: a full-width load into one of the high registers. -/
def isWideHighRex (b : UInt8) : Bool :=
  b &&& 0xF9 == 0x49

/-- A REX byte with `B`: a jump through one of the high registers. -/
def isHighRex (b : UInt8) : Bool :=
  b &&& 0xF1 == 0x41

/-- The operand of `mov eax, imm32`, and the bytes behind it. -/
def load32? : List UInt8 → Option (Nat × List UInt8)
  | [] => none
  | b :: rest =>
    if b == 0xB8 then immediate? 4 rest
    else if isModifier b then load32? rest
    else none

/-- The operand of `mov r11, imm64`, and the bytes behind it. A REX byte counts only directly in
front of the opcode, and there it overrides the narrowing modifier. -/
def load64? : List UInt8 → Option (Nat × List UInt8)
  | [] => none
  | b :: rest =>
    if isRex b then
      if rest.head? == some 0xBB then
        if isWideHighRex b then immediate? 8 rest.tail else none
      else load64? rest
    else if isModifier b || isNarrowing b then load64? rest
    else none

namespace Arch

/-- The address that the first instruction loads, and the bytes of the second. -/
def load? : Arch → List UInt8 → Option (Nat × List UInt8)
  | x86, code => load32? code
  | x64, code => load64? code
  | arm64, code =>
    if code.take 4 == [0x50, 0x00, 0x00, 0x58] then
      some (ofBytes (code.drop 8), (code.drop 4).take 4)
    else none

/-- Whether the bytes are the jump through the scratch register. -/
def isJump : Arch → List UInt8 → Bool
  | x86, [a, b] => a == 0xFF && b == 0xE0
  | x64, [rex, a, b] => isHighRex rex && a == 0xFF && b == 0xE3
  | arm64, [a, b, c, d] => a == 0x00 && b == 0x02 && c == 0x1F && d == 0xD6
  | _, _ => false

/-- The target of the trampoline `code`. -/
def target (arch : Arch) (code : List UInt8) : Except CodeError Address :=
  if code.length ≠ arch.trampolineLength then
    .error (.malformed arch (.length code.length))
  else
    match arch.load? code with
    | none => .error (.malformed arch (.load code))
    | some (address, rest) =>
      if arch.isJump rest then .ok (UInt64.ofNat address)
      else .error (.malformed arch (.jump rest))

end Arch
end Hotswap.Machine
