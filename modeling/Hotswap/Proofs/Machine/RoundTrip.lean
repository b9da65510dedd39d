import Mathlib.Algebra.Group.Nat.Defs
import Hotswap.Proofs.Machine.Language

/-!
# Writing trampolines and reading them back

A trampoline is one of the codes that are read as one, and it spells its target
(`spells_of_trampoline`), so reading it gives the target back (`trampoline_reads_back`).  The other
way round, the code that is written for what was read has the same bytes between opening and closing
(`Spells.trampoline_eq`): it is the code that was read, but for the REX bytes (`target_language`).
-/

namespace Hotswap.Machine.Arch

theorem trampoline_eq_ok_iff {arch : Arch} {target : Address} {code : List UInt8} :
    arch.trampoline target = .ok code
      ↔ target.toNat < arch.addressCount
        ∧ code = arch.opening ++ toBytes (arch.bits / 8) target.toNat ++ arch.closing := by
  unfold trampoline
  split
  · rename_i h
    rw [Except.ok.injEq, eq_comm, and_iff_right h]
  · rename_i h
    exact ⟨nofun, fun hlt => absurd hlt.1 h⟩

theorem addressCount_eq (arch : Arch) : arch.addressCount = wordCount (arch.bits / 8) := by
  cases arch <;> rfl

theorem addressCount_eq_two_pow (arch : Arch) : arch.addressCount = 2 ^ arch.bits := by
  cases arch with
  | x86 => rfl
  | x64 => rfl
  | arm64 => rfl

theorem trampoline_of_le {arch : Arch} {target : Address} (h : arch.addressCount ≤ target.toNat) :
    arch.trampoline target = .error (.outOfRange arch target) := by
  rw [trampoline, if_neg (Nat.not_lt.mpr h)]

theorem spells_of_trampoline {arch : Arch} {target : Address} {code : List UInt8}
    (h : arch.trampoline target = .ok code) :
    arch.Spells code (toBytes (arch.bits / 8) target.toNat) := by
  obtain ⟨-, rfl⟩ := trampoline_eq_ok_iff.mp h
  rw [List.append_assoc]
  cases arch with
  | x86 => exact .x86 (length_toBytes 4 _)
  | x64 => exact .x64 List.mem_cons_self List.mem_cons_self (length_toBytes 8 _)
  | arm64 =>
      rw [closing, List.append_nil]
      exact .arm64 (length_toBytes 8 _)

theorem target_of_trampoline {arch : Arch} {target : Address} {code : List UInt8}
    (h : arch.trampoline target = .ok code) : arch.target code = .ok target := by
  have hlt := (trampoline_eq_ok_iff.mp h).1
  rw [addressCount_eq] at hlt
  rw [target_of_spells (spells_of_trampoline h), ofBytes_toBytes hlt, UInt64.ofNat_toNat]

theorem trampoline_injective {arch : Arch} {target other : Address} {code : List UInt8}
    (h : arch.trampoline target = .ok code) (hother : arch.trampoline other = .ok code) :
    target = other := by
  have hread := target_of_trampoline h
  rw [target_of_trampoline hother, Except.ok.injEq] at hread
  exact hread.symm

/-- **Reading a trampoline undoes writing it.**  For every instruction set and every target: a
trampoline is written exactly if the target is one of the `2 ^ bits` addresses, and any other target
is answered as out of range.  What is written has the length of a trampoline and reads as the
target, and no other target is written in the same bytes. -/
theorem trampoline_reads_back (arch : Arch) (target : Address) :
    ((∃ code, arch.trampoline target = .ok code) ↔ target.toNat < 2 ^ arch.bits)
    ∧ (2 ^ arch.bits ≤ target.toNat →
      arch.trampoline target = .error (.outOfRange arch target))
    ∧ ∀ code, arch.trampoline target = .ok code →
      code.length = arch.trampolineLength
      ∧ arch.target code = .ok target
      ∧ ∀ other, other ≠ target → arch.trampoline other ≠ .ok code := by
  rw [← arch.addressCount_eq_two_pow]
  refine ⟨trampoline_ok_iff, trampoline_of_le, fun code hcode => ?_⟩
  refine ⟨length_of_trampoline hcode, target_of_trampoline hcode, fun other hne hother => ?_⟩
  exact hne (trampoline_injective hother hcode)

/-- An immediate that reads as the opening and the jump is still the immediate. -/
example : (Arch.x64.trampoline 0xE3FF41E3FF41BB49).toOption.map Arch.x64.target
    = some (.ok 0xE3FF41E3FF41BB49) := by
  rfl

theorem Spells.ofBytes_lt {arch : Arch} {code operand : List UInt8}
    (h : arch.Spells code operand) : ofBytes operand < arch.addressCount := by
  rw [arch.addressCount_eq, ← h.length_operand]
  exact Machine.ofBytes_lt operand

theorem addressCount_le (arch : Arch) : arch.addressCount ≤ UInt64.size := by
  cases arch <;> decide

theorem Spells.toNat_address {arch : Arch} {code operand : List UInt8}
    (h : arch.Spells code operand) :
    (UInt64.ofNat (ofBytes operand)).toNat = ofBytes operand :=
  UInt64.toNat_ofNat_of_lt (Nat.lt_of_lt_of_le h.ofBytes_lt arch.addressCount_le)

/-- The trampoline to the address has the same bytes between opening and closing. -/
theorem Spells.trampoline_eq {arch : Arch} {code operand : List UInt8}
    (h : arch.Spells code operand) :
    arch.trampoline (UInt64.ofNat (ofBytes operand))
      = .ok (arch.opening ++ (operand ++ arch.closing)) := by
  have hbytes : toBytes (arch.bits / 8) (ofBytes operand) = operand := by
    rw [← h.length_operand]
    exact toBytes_ofBytes operand
  rw [trampoline_eq_ok_iff, h.toNat_address, hbytes, List.append_assoc]
  exact ⟨h.ofBytes_lt, rfl⟩

/-- The two REX bytes are all that a code can have of its own. -/
theorem Spells.agrees {arch : Arch} {code operand : List UInt8} (h : arch.Spells code operand) :
    (arch ≠ .x64 → arch.opening ++ (operand ++ arch.closing) = code)
    ∧ ∀ i, i ≠ 0 → i ≠ 10 → (arch.opening ++ (operand ++ arch.closing))[i]? = code[i]? := by
  cases h with
  | x86 => exact ⟨fun _ => rfl, fun _ _ _ => rfl⟩
  | @x64 r s _ _ _ hlength =>
      refine ⟨fun hne => absurd rfl hne, fun i hfirst hlast => ?_⟩
      -- what is behind the first REX byte, and then what is behind the second
      obtain _ | _ | i := i
      · exact absurd rfl hfirst
      · rfl
      show (operand ++ [0x41, 0xFF, 0xE3])[i]? = (operand ++ [s, 0xFF, 0xE3])[i]?
      rcases Nat.lt_or_ge i operand.length with hi | hi
      · rw [List.getElem?_append_left hi, List.getElem?_append_left hi]
      · rw [List.getElem?_append_right hi, List.getElem?_append_right hi]
        obtain ⟨j, hj⟩ : ∃ j, i - operand.length = j + 1 :=
          Nat.exists_eq_succ_of_ne_zero (by omega)
        rw [hj]
        rfl
  | @arm64 operand _ =>
      have hcode : Arch.arm64.opening ++ (operand ++ Arch.arm64.closing)
          = Arch.arm64.opening ++ operand := congrArg _ (List.append_nil operand)
      exact ⟨fun _ => hcode, fun i _ _ => congrArg (·[i]?) hcode⟩

/-- **The codes that are read as trampolines.**  For every instruction set and every string of
bytes: if it has the form of a trampoline, it is accepted, and the target is the number that the
bytes of its address stand for; if it has not, it is answered as malformed.  The trampoline to the
target of an accepted code is read as the same target.  On `x86` and `arm64` it is that very code,
and on `x64` no bytes are different but the two REX bytes, the first and the eleventh. -/
theorem target_language (arch : Arch) (code : List UInt8) :
    (∀ operand, arch.Spells code operand →
      ∃ target, arch.target code = .ok target ∧ target.toNat = ofBytes operand)
    ∧ ((∀ operand, ¬ arch.Spells code operand) →
      ∃ flaw, arch.target code = .error (.malformed arch flaw))
    ∧ ∀ target, arch.target code = .ok target →
      ∃ written, arch.trampoline target = .ok written
        ∧ arch.target written = .ok target
        ∧ (arch ≠ .x64 → written = code)
        ∧ ∀ i, i ≠ 0 → i ≠ 10 → written[i]? = code[i]? := by
  refine ⟨fun operand hspells => ?_, fun hnone => ?_, fun target htarget => ?_⟩
  · exact ⟨_, target_of_spells hspells, hspells.toNat_address⟩
  · cases hcode : arch.target code with
    | ok target =>
        obtain ⟨operand, hspells, -⟩ := spells_of_target hcode
        exact absurd hspells (hnone operand)
    | error cause =>
        obtain ⟨flaw, rfl⟩ := malformed_of_target hcode
        exact ⟨flaw, rfl⟩
  · obtain ⟨operand, hspells, rfl⟩ := spells_of_target htarget
    have hwritten := hspells.trampoline_eq
    exact ⟨_, hwritten, target_of_trampoline hwritten, hspells.agrees⟩

/-- Other REX bytes are the same load and the same jump. -/
example : Arch.x64.target [0x4F, 0xBB, 1, 2, 3, 4, 5, 6, 7, 8, 0x43, 0xFF, 0xE3]
    = .ok 0x0807060504030201 := by
  rfl

/-- A skipped byte in front of the load leaves no room for the jump. -/
example : Arch.x64.target [0x66, 0x49, 0xBB, 1, 2, 3, 4, 5, 6, 7, 8, 0xFF, 0xE3]
    = .error (.malformed .x64 (.jump [0xFF, 0xE3])) := by
  rfl

end Hotswap.Machine.Arch
