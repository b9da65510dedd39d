import Hotswap.Machine.Reading

/-!
# The codes that are read as trampolines

`Arch.target` reads the two x86 sets an instruction at a time, so it knows a load by what the load
does and not by its bytes.  What it accepts in the end is a short list of forms (`Arch.Spells`):

    x86     B8 imm32 FF E0
    x64     r BB imm64 s FF E3      r one of 49 4B 4D 4F, s one of 41 43 45 47 49 4B 4D 4F
    arm64   50 00 00 58 00 02 1F D6, then the address

The length decides.  A load may have skipped bytes in front of it (`Loads.skip`), but a trampoline
has just the bytes that a bare load and the jump take, so that with any byte skipped there is no
room left for the jump (`Loads.exists_opening`).  Nothing more is accepted (`spells_of_target`), and
nothing less (`target_of_spells`).
-/

namespace Hotswap.Machine

/-- The REX bytes in front of `BB` for which the load is that of the whole register `r11`: the width
bit and the bit of the high registers are set, the two others do not matter. -/
def loadRexes : List UInt8 :=
  [0x49, 0x4B, 0x4D, 0x4F]

/-- The REX bytes in front of `FF E3` for which the jump is that through `r11`: only the bit of the
high registers matters. -/
def jumpRexes : List UInt8 :=
  [0x41, 0x43, 0x45, 0x47, 0x49, 0x4B, 0x4D, 0x4F]

/-- `bytes` begin with a load: skipped bytes, an opening, an operand of `k` bytes; then comes
`rest`. -/
inductive Loads (skips : UInt8 → Prop) (openings : List (List UInt8)) (k : Nat) :
    (bytes operand rest : List UInt8) → Prop
  | bare {opening operand : List UInt8} (rest : List UInt8) :
      opening ∈ openings → operand.length = k →
      Loads skips openings k (opening ++ (operand ++ rest)) operand rest
  | skip {b : UInt8} {bytes operand rest : List UInt8} : skips b →
      Loads skips openings k bytes operand rest → Loads skips openings k (b :: bytes) operand rest

section
variable {skips : UInt8 → Prop} {openings : List (List UInt8)} {k l : Nat}
  {bytes operand rest : List UInt8}

theorem Loads.length_operand (h : Loads skips openings k bytes operand rest) :
    operand.length = k := by
  induction h with
  | bare _ _ hlength => exact hlength
  | skip _ _ ih => exact ih

theorem Loads.length_le (hopenings : ∀ opening ∈ openings, opening.length = l)
    (h : Loads skips openings k bytes operand rest) : l + k + rest.length ≤ bytes.length := by
  induction h with
  | bare rest hopening hlength =>
      rw [List.length_append, List.length_append, hopenings _ hopening, hlength]
      omega
  | skip _ _ ih =>
      rw [List.length_cons]
      omega

theorem Loads.exists_opening (hopenings : ∀ opening ∈ openings, opening.length = l)
    (h : Loads skips openings k bytes operand rest) (hroom : bytes.length ≤ l + k + rest.length) :
    ∃ opening ∈ openings, bytes = opening ++ (operand ++ rest) := by
  cases h with
  | bare _ hopening _ => exact ⟨_, hopening, rfl⟩
  | skip _ hload =>
      have hle := hload.length_le hopenings
      rw [List.length_cons] at hroom
      omega

end

theorem immediate?_append {k : Nat} {bytes : List UInt8} (h : bytes.length = k)
    (rest : List UInt8) : immediate? k (bytes ++ rest) = some (ofBytes bytes, rest) := by
  have hlength : k ≤ (bytes ++ rest).length := by
    rw [List.length_append]
    omega
  rw [immediate?, if_pos hlength, List.take_left' h, List.drop_left' h]

theorem immediate?_eq_some_iff {k n : Nat} {bytes rest : List UInt8} :
    immediate? k bytes = some (n, rest)
      ↔ ∃ operand, operand.length = k ∧ ofBytes operand = n ∧ bytes = operand ++ rest := by
  constructor
  · intro h
    rw [immediate?] at h
    split at h
    · rename_i hle
      cases h
      exact ⟨bytes.take k, List.length_take_of_le hle, rfl, (List.take_append_drop k bytes).symm⟩
    · cases h
  · rintro ⟨operand, hlength, rfl, rfl⟩
    exact immediate?_append hlength rest

/-- The loads of `eax`. -/
abbrev Loads32 : (bytes operand rest : List UInt8) → Prop :=
  Loads (isModifier · = true) [[0xB8]] 4

theorem load32?_of_loads {bytes operand rest : List UInt8} (h : Loads32 bytes operand rest) :
    load32? bytes = some (ofBytes operand, rest) := by
  induction h with
  | bare rest hopening hlength =>
      cases List.mem_singleton.mp hopening
      exact immediate?_append hlength rest
  | @skip b bytes _ _ hskips _ ih =>
      have hb : (b == 0xB8) = false := by
        rw [beq_eq_false_iff_ne]
        rintro rfl
        cases hskips
      rw [load32?, hb, hskips]
      exact ih

theorem loads_of_load32? {bytes rest : List UInt8} {n : Nat} (h : load32? bytes = some (n, rest)) :
    ∃ operand, Loads32 bytes operand rest ∧ ofBytes operand = n := by
  induction bytes with
  | nil => cases h
  | cons b bytes ih =>
      rw [load32?] at h
      split at h
      · rename_i hb
        obtain ⟨operand, hlength, hvalue, rfl⟩ := immediate?_eq_some_iff.mp h
        cases eq_of_beq hb
        exact ⟨operand, .bare rest (List.mem_singleton.mpr rfl) hlength, hvalue⟩
      split at h
      · rename_i hskips
        obtain ⟨operand, hloads, hvalue⟩ := ih h
        exact ⟨operand, .skip hskips hloads, hvalue⟩
      · cases h

theorem forall_byte {p : UInt8 → Prop} (h : ∀ n < 256, p (UInt8.ofNat n)) (b : UInt8) : p b := by
  have hb := h b.toNat b.toNat_lt
  rwa [UInt8.ofNat_toNat] at hb

theorem isWideHighRex_iff (b : UInt8) : isWideHighRex b = true ↔ b ∈ loadRexes :=
  forall_byte (p := fun b => isWideHighRex b = true ↔ b ∈ loadRexes) (by decide +kernel) b

theorem isHighRex_iff (b : UInt8) : isHighRex b = true ↔ b ∈ jumpRexes :=
  forall_byte (p := fun b => isHighRex b = true ↔ b ∈ jumpRexes) (by decide +kernel) b

theorem isRex_of_isWideHighRex {b : UInt8} (h : isWideHighRex b = true) : isRex b = true :=
  forall_byte (p := fun b => isWideHighRex b = true → isRex b = true) (by decide +kernel) b h

/-- A byte that may stand in front of a load of `r11`.  A REX byte that is not next to the opcode
does nothing, and the width bit of the one that is outweighs the narrowing modifier. -/
def isSkipped (b : UInt8) : Bool :=
  isRex b || (isModifier b || isNarrowing b)

/-- The loads of `r11`. -/
abbrev Loads64 : (bytes operand rest : List UInt8) → Prop :=
  Loads (isSkipped · = true) (loadRexes.map fun rex => [rex, 0xBB]) 8

/-- The opcode alone opens no load of `r11`, and it is never skipped. -/
theorem Loads64.head_ne {bytes operand rest : List UInt8} (h : Loads64 bytes operand rest) :
    bytes.head? ≠ some 0xBB := by
  intro hhead
  cases h with
  | bare _ hopening _ =>
      obtain ⟨rex, hrex, rfl⟩ := List.mem_map.mp hopening
      cases Option.some.inj hhead
      exact absurd hrex (by decide)
  | skip hskips _ =>
      cases Option.some.inj hhead
      cases hskips

theorem load64?_of_rex {b : UInt8} (h : b ∈ loadRexes) (bytes : List UInt8) :
    load64? (b :: 0xBB :: bytes) = immediate? 8 bytes := by
  have hwide := (isWideHighRex_iff b).mpr h
  have hhead : ((0xBB :: bytes).head? == some (0xBB : UInt8)) = true := beq_self_eq_true _
  rw [load64?, if_pos (isRex_of_isWideHighRex hwide), if_pos hhead, if_pos hwide]
  rfl

theorem load64?_of_skip {b : UInt8} (h : isSkipped b = true) {bytes : List UInt8}
    (hhead : bytes.head? ≠ some 0xBB) : load64? (b :: bytes) = load64? bytes := by
  rw [load64?, beq_eq_false_iff_ne.mpr hhead]
  split
  · rfl
  · rename_i hrex
    rw [isSkipped, Bool.eq_false_iff.mpr hrex, Bool.false_or] at h
    exact if_pos h

/-- The first byte of a load is the REX byte of its opcode, or it is skipped. -/
theorem load64?_cons {b : UInt8} {bytes : List UInt8} {found : Nat × List UInt8}
    (h : load64? (b :: bytes) = some found) :
    (b ∈ loadRexes ∧ ∃ tail, bytes = 0xBB :: tail ∧ immediate? 8 tail = some found)
    ∨ (isSkipped b = true ∧ load64? bytes = some found) := by
  rw [load64?] at h
  split at h
  · rename_i hrex
    split at h
    · rename_i hhead
      obtain ⟨tail, rfl⟩ := List.head?_eq_some_iff.mp (eq_of_beq hhead)
      split at h
      · rename_i hwide
        exact .inl ⟨(isWideHighRex_iff b).mp hwide, tail, rfl, h⟩
      · cases h
    · exact .inr ⟨by rw [isSkipped, hrex, Bool.true_or], h⟩
  · split at h
    · rename_i hskips
      exact .inr ⟨by rw [isSkipped, hskips, Bool.or_true], h⟩
    · cases h

theorem load64?_of_loads {bytes operand rest : List UInt8} (h : Loads64 bytes operand rest) :
    load64? bytes = some (ofBytes operand, rest) := by
  induction h with
  | @bare _ operand rest hopening hlength =>
      obtain ⟨rex, hrex, rfl⟩ := List.mem_map.mp hopening
      exact (load64?_of_rex hrex (operand ++ rest)).trans (immediate?_append hlength rest)
  | skip hskips hloads ih => exact (load64?_of_skip hskips (Loads64.head_ne hloads)).trans ih

theorem loads_of_load64? {bytes rest : List UInt8} {n : Nat} (h : load64? bytes = some (n, rest)) :
    ∃ operand, Loads64 bytes operand rest ∧ ofBytes operand = n := by
  induction bytes with
  | nil => cases h
  | cons b bytes ih =>
      rcases load64?_cons h with ⟨hrex, tail, rfl, himmediate⟩ | ⟨hskips, hbytes⟩
      · obtain ⟨operand, hlength, hvalue, rfl⟩ := immediate?_eq_some_iff.mp himmediate
        have hopening := List.mem_map_of_mem (f := fun rex => [rex, (0xBB : UInt8)]) hrex
        exact ⟨operand, .bare rest hopening hlength, hvalue⟩
      · obtain ⟨operand, hloads, hvalue⟩ := ih hbytes
        exact ⟨operand, .skip hskips hloads, hvalue⟩

namespace Arch

/-- `code` is a trampoline of the instruction set, and `operand` are the bytes of its address. -/
inductive Spells : Arch → (code operand : List UInt8) → Prop
  | x86 {operand : List UInt8} : operand.length = 4 →
      Spells x86 ([0xB8] ++ (operand ++ [0xFF, 0xE0])) operand
  | x64 {r s : UInt8} {operand : List UInt8} : r ∈ loadRexes → s ∈ jumpRexes →
      operand.length = 8 → Spells x64 ([r, 0xBB] ++ (operand ++ [s, 0xFF, 0xE3])) operand
  | arm64 {operand : List UInt8} : operand.length = 8 →
      Spells arm64 ([0x50, 0x00, 0x00, 0x58, 0x00, 0x02, 0x1F, 0xD6] ++ operand) operand

/-- The forms of the jump through the scratch register. -/
def jumps : Arch → List (List UInt8)
  | x86 => [[0xFF, 0xE0]]
  | x64 => jumpRexes.map fun rex => [rex, 0xFF, 0xE3]
  | arm64 => [[0x00, 0x02, 0x1F, 0xD6]]

theorem isJump_iff {arch : Arch} {rest : List UInt8} :
    arch.isJump rest = true ↔ rest ∈ arch.jumps := by
  constructor
  · intro h
    unfold isJump at h
    split at h
    · rw [Bool.and_eq_true, beq_iff_eq, beq_iff_eq] at h
      obtain ⟨rfl, rfl⟩ := h
      exact List.mem_singleton.mpr rfl
    · rename_i rex a b
      rw [Bool.and_eq_true, Bool.and_eq_true, beq_iff_eq, beq_iff_eq] at h
      obtain ⟨⟨hrex, rfl⟩, rfl⟩ := h
      exact List.mem_map_of_mem ((isHighRex_iff rex).mp hrex)
    · simp only [Bool.and_eq_true, beq_iff_eq] at h
      obtain ⟨⟨⟨rfl, rfl⟩, rfl⟩, rfl⟩ := h
      exact List.mem_singleton.mpr rfl
    · cases h
  · intro h
    cases arch with
    | x86 =>
        cases List.mem_singleton.mp h
        rfl
    | x64 =>
        obtain ⟨rex, hrex, rfl⟩ := List.mem_map.mp h
        show (isHighRex rex && true && true) = true
        rw [(isHighRex_iff rex).mpr hrex]
        rfl
    | arm64 =>
        cases List.mem_singleton.mp h
        rfl

theorem Spells.length_operand {arch : Arch} {code operand : List UInt8}
    (h : arch.Spells code operand) : operand.length = arch.bits / 8 := by
  cases h <;> assumption

theorem target_eq_ok_iff {arch : Arch} {code : List UInt8} {target : Address} :
    arch.target code = .ok target
      ↔ code.length = arch.trampolineLength
        ∧ ∃ n rest, arch.load? code = some (n, rest) ∧ arch.isJump rest = true
          ∧ UInt64.ofNat n = target := by
  constructor
  · intro h
    rw [Arch.target] at h
    split at h
    · cases h
    · rename_i hlength
      split at h
      · cases h
      · rename_i n rest hload
        split at h
        · rename_i hjump
          exact ⟨Decidable.not_not.mp hlength, n, rest, hload, hjump, Except.ok.inj h⟩
        · cases h
  · rintro ⟨hlength, n, rest, hload, hjump, rfl⟩
    rw [Arch.target, if_neg (Decidable.not_not.mpr hlength), hload]
    exact if_pos hjump

/-- Reading fails in one way: the code is malformed. -/
theorem malformed_of_target {arch : Arch} {code : List UInt8} {cause : CodeError}
    (h : arch.target code = .error cause) : ∃ flaw, cause = .malformed arch flaw := by
  rw [Arch.target] at h
  split at h
  · exact ⟨_, (Except.error.inj h).symm⟩
  · split at h
    · exact ⟨_, (Except.error.inj h).symm⟩
    · split at h
      · cases h
      · exact ⟨_, (Except.error.inj h).symm⟩

/-- On `arm64` the instruction behind the load is a word, and the rest is the address. -/
theorem exists_operand_of_load_arm64 {code rest : List UInt8} {n : Nat}
    (h : load? arm64 code = some (n, rest)) :
    ∃ operand, code = [0x50, 0x00, 0x00, 0x58] ++ (rest ++ operand) ∧ ofBytes operand = n := by
  rw [load?] at h
  split at h
  · rename_i hopening
    cases h
    refine ⟨code.drop 8, ?_, rfl⟩
    have hword : (code.drop 4).take 4 ++ code.drop 8 = code.drop 4 := by
      have h := List.take_append_drop 4 (code.drop 4)
      rwa [List.drop_drop] at h
    rw [hword, ← eq_of_beq hopening, List.take_append_drop]
  · cases h

theorem target_of_spells {arch : Arch} {code operand : List UInt8} (h : arch.Spells code operand) :
    arch.target code = .ok (UInt64.ofNat (ofBytes operand)) := by
  rw [target_eq_ok_iff]
  cases h with
  | x86 hlength =>
      have hload := load32?_of_loads (.bare [0xFF, 0xE0] (List.mem_singleton.mpr rfl) hlength)
      exact ⟨by simp [hlength, trampolineLength], _, _, hload, rfl, rfl⟩
  | @x64 r s _ hr hs hlength =>
      have hopening := List.mem_map_of_mem (f := fun rex => [rex, (0xBB : UInt8)]) hr
      have hload := load64?_of_loads (.bare [s, 0xFF, 0xE3] hopening hlength)
      exact ⟨by simp [hlength, trampolineLength], _, _, hload,
        isJump_iff.mpr (List.mem_map_of_mem hs), rfl⟩
  | arm64 hlength => exact ⟨by simp [hlength, trampolineLength], _, _, rfl, rfl, rfl⟩

theorem spells_of_target {arch : Arch} {code : List UInt8} {target : Address}
    (h : arch.target code = .ok target) :
    ∃ operand, arch.Spells code operand ∧ target = UInt64.ofNat (ofBytes operand) := by
  obtain ⟨hlength, n, rest, hload, hjump, rfl⟩ := target_eq_ok_iff.mp h
  have hjump := isJump_iff.mp hjump
  cases arch with
  | x86 =>
      obtain ⟨operand, hloads, rfl⟩ := loads_of_load32? hload
      cases List.mem_singleton.mp hjump
      obtain ⟨opening, hopening, rfl⟩ := hloads.exists_opening (by decide) (Nat.le_of_eq hlength)
      cases List.mem_singleton.mp hopening
      exact ⟨operand, .x86 hloads.length_operand, rfl⟩
  | x64 =>
      obtain ⟨operand, hloads, rfl⟩ := loads_of_load64? hload
      obtain ⟨s, hs, rfl⟩ := List.mem_map.mp hjump
      obtain ⟨opening, hopening, rfl⟩ := hloads.exists_opening (by decide) (Nat.le_of_eq hlength)
      obtain ⟨r, hr, rfl⟩ := List.mem_map.mp hopening
      exact ⟨operand, .x64 hr hs hloads.length_operand, rfl⟩
  | arm64 =>
      obtain ⟨operand, rfl, rfl⟩ := exists_operand_of_load_arm64 hload
      cases List.mem_singleton.mp hjump
      have hoperand : 8 + operand.length = 8 + 8 := by
        rwa [← List.append_assoc, List.length_append] at hlength
      exact ⟨operand, .arm64 (Nat.add_left_cancel hoperand), rfl⟩

end Arch
end Hotswap.Machine
