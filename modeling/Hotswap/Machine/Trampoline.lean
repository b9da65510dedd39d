import Hotswap.Machine.Bytes
import Hotswap.Text.Hex

/-!
# Trampolines

A trampoline is the code written over the entry of a function to send every call elsewhere: it
loads an absolute address into a scratch register and jumps through that register.

    x86     B8 imm32               mov eax, imm32      FF E0       jmp eax
    x64     49 BB imm64            mov r11, imm64      41 FF E3    jmp r11
    arm64   50 00 00 58            ldr x16, #8         00 02 1F D6 br x16      then the address

The registers are those that no calling convention passes arguments in. On all three the bytes are
an opening, the address in little-endian form, and a closing.
-/

namespace Hotswap.Machine

/-- The instruction sets that trampolines are written for. -/
inductive Arch where
  | x86
  | x64
  | arm64
deriving DecidableEq, Repr

namespace Arch

/-- The name used in messages. -/
def name : Arch → String
  | x86 => "x86"
  | x64 => "x86_64"
  | arm64 => "aarch64"

/-- The width of an address in bits. -/
def bits : Arch → Nat
  | x86 => 32
  | x64 => 64
  | arm64 => 64

/-- The number of addresses. -/
def addressCount : Arch → Nat
  | x86 => UInt32.size
  | x64 => UInt64.size
  | arm64 => UInt64.size

/-- The bytes in front of the address. -/
def opening : Arch → List UInt8
  | x86 => [0xB8]
  | x64 => [0x49, 0xBB]
  | arm64 => [0x50, 0x00, 0x00, 0x58, 0x00, 0x02, 0x1F, 0xD6]

/-- The bytes behind the address. -/
def closing : Arch → List UInt8
  | x86 => [0xFF, 0xE0]
  | x64 => [0x41, 0xFF, 0xE3]
  | arm64 => []

/-- The length of a trampoline; a function to be redirected is at least this long. -/
def trampolineLength : Arch → Nat
  | x86 => 7
  | x64 => 13
  | arm64 => 16

/-- The instruction that loads the address, as messages show it. -/
def loadText : Arch → String
  | x86 => "mov eax, imm32"
  | x64 => "mov r11, imm64"
  | arm64 => "ldr x16, #8"

/-- The instruction that jumps, as messages show it. -/
def jumpText : Arch → String
  | x86 => "jmp eax"
  | x64 => "jmp r11"
  | arm64 => "br x16"

end Arch

/-- Where some code stops being a trampoline. -/
inductive Flaw where
  /-- The code has the wrong number of bytes. -/
  | length (found : Nat)
  /-- The first instruction does not load the scratch register. -/
  | load (found : List UInt8)
  /-- The second instruction does not jump through the scratch register. -/
  | jump (found : List UInt8)
deriving DecidableEq, Repr

/-- Why a trampoline cannot be written or read. -/
inductive CodeError where
  /-- The target lies outside the address space of the instruction set. -/
  | outOfRange (arch : Arch) (target : Address)
  /-- The code is not a trampoline. -/
  | malformed (arch : Arch) (flaw : Flaw)
deriving DecidableEq, Repr

/-- An instruction that was expected; the fixed-size words of `arm64` also show what is there. -/
def expected (arch : Arch) (text : String) (found : List UInt8) : String :=
  let wanted := "expected `" ++ text ++ "`"
  match arch with
  | .arm64 => wanted ++ ", got " ++ Text.hexWord (ofBytes (found.take 4))
  | _ => wanted

/-- The reason in the message about malformed code. -/
def Flaw.message (arch : Arch) : Flaw → String
  | .length found =>
    "expected " ++ toString arch.trampolineLength ++ " bytes, got " ++ toString found
  | .load found => expected arch arch.loadText found
  | .jump found => expected arch arch.jumpText found

def CodeError.message : CodeError → String
  | .outOfRange arch target =>
    "target " ++ Text.hex target.toNat ++ " does not fit into a " ++ toString arch.bits
      ++ "-bit address space"
  | .malformed arch flaw => "malformed " ++ arch.name ++ " trampoline: " ++ flaw.message arch

namespace Arch

/-- The trampoline to `target`, if the address space reaches that far. -/
def trampoline (arch : Arch) (target : Address) : Except CodeError (List UInt8) :=
  if target.toNat < arch.addressCount then
    .ok (arch.opening ++ toBytes (arch.bits / 8) target.toNat ++ arch.closing)
  else
    .error (.outOfRange arch target)

theorem length_of_trampoline {arch : Arch} {target : Address} {code : List UInt8}
    (h : arch.trampoline target = .ok code) : code.length = arch.trampolineLength := by
  unfold trampoline at h
  split at h
  · cases h
    cases arch <;> simp [opening, closing, bits, trampolineLength]
  · cases h

theorem trampoline_ok_iff {arch : Arch} {target : Address} :
    (∃ code, arch.trampoline target = .ok code) ↔ target.toNat < arch.addressCount := by
  unfold trampoline
  split
  · rename_i h
    exact ⟨fun _ => h, fun _ => ⟨_, rfl⟩⟩
  · rename_i h
    exact ⟨fun ⟨_, hcode⟩ => absurd hcode nofun, fun hlt => absurd hlt h⟩

theorem trampoline_error_iff {arch : Arch} {target : Address} :
    (∃ cause, arch.trampoline target = .error cause) ↔ arch.addressCount ≤ target.toNat := by
  rw [← Nat.not_lt, ← trampoline_ok_iff]
  cases arch.trampoline target with
  | ok code => simp
  | error cause => simp

end Arch
end Hotswap.Machine
