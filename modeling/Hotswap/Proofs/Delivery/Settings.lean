import Hotswap.Delivery.Settings
import Mathlib.Data.List.Induction
import Mathlib.Data.List.TakeWhile
import Mathlib.Logic.Function.Basic

/-!
# What the variables set

Two variables override the defaults, each of them one setting.  The directory is taken as it is,
unless it is empty.  The interval is read from a text, and the texts that are read are those that
spell a number below 2^64 other than zero:

    blanks  +  000  250  blanks        blanks and zeros as many as one likes, the sign at most once

On the right of the zeros stands the number as it is printed (`Nat.toDigits`).  So the number is the
one that was meant, however many digits there are: nothing is cut off at 2^64 and nothing wraps.
-/

namespace Hotswap

/-! ## Trimming -/

namespace Text

variable {cs : List Char}

theorem exists_blanks (cs : List Char) :
    ∃ before after, cs = before ++ (trim cs ++ after)
      ∧ ∀ c ∈ before ++ after, isBlank c = true := by
  have hfront := (List.takeWhile_append_dropWhile (p := isBlank) (l := cs)).symm
  have hback := congrArg List.reverse
    (List.takeWhile_append_dropWhile (p := isBlank) (l := (cs.dropWhile isBlank).reverse)).symm
  rw [List.reverse_reverse, List.reverse_append] at hback
  refine ⟨cs.takeWhile isBlank, ((cs.dropWhile isBlank).reverse.takeWhile isBlank).reverse, ?_, ?_⟩
  · rw [trim, ← hback, ← hfront]
  · intro c hc
    rcases List.mem_append.mp hc with hc | hc
    · exact List.mem_takeWhile_imp hc
    · exact List.mem_takeWhile_imp (List.mem_reverse.mp hc)

theorem dropWhile_blanks {before word after : List Char} (hbefore : ∀ c ∈ before, isBlank c = true)
    (hword : ∀ c ∈ word, isBlank c = false) (hne : word ≠ []) :
    (before ++ (word ++ after)).dropWhile isBlank = word ++ after := by
  obtain ⟨first, rest, rfl⟩ := List.exists_cons_of_ne_nil hne
  have hfirst : ¬ isBlank first = true := by
    rw [hword first List.mem_cons_self]
    exact Bool.false_ne_true
  rw [List.dropWhile_append_of_pos hbefore, List.cons_append, List.dropWhile_cons_of_neg hfirst]

theorem trim_eq {before word after : List Char} (hbefore : ∀ c ∈ before, isBlank c = true)
    (hafter : ∀ c ∈ after, isBlank c = true) (hword : ∀ c ∈ word, isBlank c = false)
    (hne : word ≠ []) : trim (before ++ (word ++ after)) = word := by
  have hback : (word ++ after).reverse = after.reverse ++ (word.reverse ++ []) := by
    simp
  rw [trim, dropWhile_blanks hbefore hword hne, hback,
    dropWhile_blanks (fun c hc => hafter c (List.mem_reverse.mp hc))
      (fun c hc => hword c (List.mem_reverse.mp hc)) (List.reverse_ne_nil_iff.mpr hne),
    List.append_nil, List.reverse_reverse]

end Text

namespace Delivery

/-! ## Decimal digits -/

theorem decimal_eq_ofDigitChars (digits : List Char) :
    decimal digits = Nat.ofDigitChars 10 digits 0 := rfl

theorem decimal_concat (digits : List Char) (c : Char) :
    decimal (digits ++ [c]) = 10 * decimal digits + digitValue c := by
  rw [decimal, List.foldl_append]
  rfl

theorem decimal_zeros_append (zeros n : Nat) :
    decimal (List.replicate zeros '0' ++ Nat.toDigits 10 n) = n := by
  rw [decimal_eq_ofDigitChars, Nat.ofDigitChars_append, Nat.ofDigitChars_replicate_zero,
    Nat.mul_zero, Nat.ofDigitChars_ten_toDigits]

theorem digitValue_spec {c : Char} (h : c.isDigit = true) :
    digitValue c < 10 ∧ Nat.digitChar (digitValue c) = c := by
  have hprinted : ∀ n < 10, Nat.digitChar n = Char.ofNat ('0'.toNat + n) := by decide
  obtain ⟨hfrom, hto⟩ := Char.isDigit_iff_toNat.mp h
  have hlt : digitValue c < 10 := by
    have hnine : '9'.toNat = '0'.toNat + 9 := rfl
    rw [digitValue]
    omega
  refine ⟨hlt, ?_⟩
  rw [hprinted _ hlt, digitValue, Nat.add_sub_cancel' hfrom, Char.ofNat_toNat]

/-- Digits are zeros and then the number that they stand for, of which nothing is left if it is
zero.  The induction is from the end, where the last digit is the last one of the number. -/
theorem exists_zeros {digits : List Char} (h : ∀ c ∈ digits, c.isDigit = true) :
    ∃ zeros, digits = List.replicate zeros '0'
      ++ if decimal digits = 0 then [] else Nat.toDigits 10 (decimal digits) := by
  induction digits using List.reverseRecOn with
  | nil => exact ⟨0, rfl⟩
  | append_singleton digits c ih =>
      obtain ⟨zeros, hzeros⟩ := ih fun d hd => h d (List.mem_append_left _ hd)
      obtain ⟨hlt, hchar⟩ := digitValue_spec (h c (List.mem_append_right _ List.mem_cons_self))
      rw [decimal_concat]
      by_cases hvalue : decimal digits = 0
      · rw [if_pos hvalue, List.append_nil] at hzeros
        rw [hvalue, Nat.mul_zero, Nat.zero_add]
        by_cases hzero : digitValue c = 0
        · have hc : c = '0' := by
            rw [← hchar, hzero]
            rfl
          exact ⟨zeros + 1, by rw [if_pos hzero, hc, List.replicate_succ', List.append_nil, ← hzeros]⟩
        · refine ⟨zeros, ?_⟩
          rw [if_neg hzero, Nat.toDigits_of_lt_base hlt, hchar, ← hzeros]
      · rw [if_neg hvalue] at hzeros
        refine ⟨zeros, ?_⟩
        rw [if_neg (by omega), ← Nat.toDigits_append_toDigits (by decide) (by omega) hlt,
          Nat.toDigits_of_lt_base hlt, hchar, ← List.append_assoc, ← hzeros]

/-! ## Intervals -/

/-- The text spells the number: blanks, a plus sign or none, zeros, the digits of the number,
blanks. -/
def Spells (text : String) (n : Nat) : Prop :=
  ∃ before sign zeros after,
    text.toList
      = before ++ (sign ++ (List.replicate zeros '0' ++ Nat.toDigits 10 n) ++ after)
    ∧ (∀ c ∈ before ++ after, Text.isBlank c = true) ∧ (sign = [] ∨ sign = ['+'])

/-- The text spells an interval: a number that is not zero and fits into 64 bits. -/
def SpellsInterval (text : String) (n : Nat) : Prop :=
  Spells text n ∧ 0 < n ∧ n < UInt64.size

variable {text : String} {n : Nat}

theorem isDigit_of_mem_zeros_append {zeros : Nat} {c : Char}
    (h : c ∈ List.replicate zeros '0' ++ Nat.toDigits 10 n) : c.isDigit = true := by
  rcases List.mem_append.mp h with h | h
  · rw [List.eq_of_mem_replicate h]
    rfl
  · exact Nat.isDigit_of_mem_toDigits (by decide) (by decide) h

theorem isBlank_of_isDigit {c : Char} (h : c.isDigit = true) : Text.isBlank c = false := by
  obtain ⟨hlt, hchar⟩ := digitValue_spec h
  have hdigits : ∀ d < 10, Text.isBlank (Nat.digitChar d) = false := by decide
  rw [← hchar, hdigits _ hlt]

/-- Behind the sign, if there is one, the trimmed text is read digit by digit. -/
theorem interval?_eq {sign digits : List Char} (htrim : Text.trim text.toList = sign ++ digits)
    (hsign : sign = ['+'] ∨ sign = [] ∧ digits.head? ≠ some '+') :
    interval? text
      = if digits ≠ [] ∧ digits.all Char.isDigit ∧ 0 < decimal digits
          ∧ decimal digits < UInt64.size
        then some (decimal digits) else none := by
  unfold interval?
  rw [htrim]
  rcases hsign with rfl | ⟨rfl, hplus⟩
  · rfl
  · rw [List.nil_append]
    dsimp only
    split
    · exact absurd rfl hplus
    · rfl

theorem exists_sign (cs : List Char) :
    ∃ sign digits, cs = sign ++ digits
      ∧ (sign = ['+'] ∨ sign = [] ∧ digits.head? ≠ some '+') := by
  by_cases hplus : cs.head? = some '+'
  · obtain ⟨digits, rfl⟩ := List.head?_eq_some_iff.mp hplus
    exact ⟨['+'], digits, rfl, .inl rfl⟩
  · exact ⟨[], cs, rfl, .inr ⟨rfl, hplus⟩⟩

/-- Exactly the texts that spell an interval are read, each as the number that it spells. -/
theorem interval?_eq_some_iff : interval? text = some n ↔ SpellsInterval text n := by
  constructor
  · intro h
    obtain ⟨sign, digits, htrim, hsign⟩ := exists_sign (Text.trim text.toList)
    rw [interval?_eq htrim hsign] at h
    obtain ⟨⟨-, hdigits, hpos, hlt⟩, hn⟩ := Option.ite_none_right_eq_some.mp h
    cases hn
    obtain ⟨before, after, htext, hblanks⟩ := Text.exists_blanks text.toList
    obtain ⟨zeros, hzeros⟩ := exists_zeros (List.all_eq_true.mp hdigits)
    rw [if_neg (Nat.ne_of_gt hpos)] at hzeros
    refine ⟨⟨before, sign, zeros, after, ?_, hblanks, ?_⟩, hpos, hlt⟩
    · rw [← hzeros, ← htrim, ← htext]
    · rcases hsign with hsign | ⟨hsign, -⟩
      · exact .inr hsign
      · exact .inl hsign
  · rintro ⟨⟨before, sign, zeros, after, htext, hblanks, hsign⟩, hpos, hlt⟩
    -- neither a digit nor the sign is blank, so that trimming stops at them
    have hword : ∀ c ∈ sign ++ (List.replicate zeros '0' ++ Nat.toDigits 10 n),
        Text.isBlank c = false := by
      intro c hc
      rcases List.mem_append.mp hc with hc | hc
      · rcases hsign with rfl | rfl
        · exact absurd hc List.not_mem_nil
        · rw [List.mem_singleton.mp hc]
          rfl
      · exact isBlank_of_isDigit (isDigit_of_mem_zeros_append hc)
    have hne : List.replicate zeros '0' ++ Nat.toDigits 10 n ≠ [] := by
      intro hnil
      exact Nat.toDigits_ne_nil (List.append_eq_nil_iff.mp hnil).2
    have htrim : Text.trim text.toList
        = sign ++ (List.replicate zeros '0' ++ Nat.toDigits 10 n) := by
      rw [htext]
      exact Text.trim_eq (fun c hc => hblanks c (List.mem_append_left _ hc))
        (fun c hc => hblanks c (List.mem_append_right _ hc)) hword
        fun hnil => hne (List.append_eq_nil_iff.mp hnil).2
    have hplus : (List.replicate zeros '0' ++ Nat.toDigits 10 n).head? ≠ some '+' := by
      intro hhead
      exact absurd (isDigit_of_mem_zeros_append (List.mem_of_head? hhead)) (by decide)
    rw [interval?_eq htrim (hsign.symm.imp_right fun hnil => ⟨hnil, hplus⟩), decimal_zeros_append,
      if_pos ⟨hne, List.all_eq_true.mpr fun c hc => isDigit_of_mem_zeros_append hc, hpos, hlt⟩]

/-! ## The settings -/

/-- The interval that the variable sets, if its value spells one. -/
def chosenInterval? (value : Option String) : Option Nat :=
  value.bind interval?

/-- The directory that the variable sets, if its value is not empty. -/
def chosenDirectory? (value : Option String) : Option Path :=
  (value.filter fun text => !text.isEmpty).map Path.mk

theorem chosenInterval?_eq_some_iff {value : Option String} :
    chosenInterval? value = some n ↔ ∃ text, value = some text ∧ SpellsInterval text n := by
  simp only [chosenInterval?, Option.bind_eq_some_iff, interval?_eq_some_iff]

theorem chosenInterval?_eq_none_iff {value : Option String} :
    chosenInterval? value = none ↔ ¬ ∃ text n, value = some text ∧ SpellsInterval text n := by
  rw [Option.eq_none_iff_forall_ne_some, exists_comm, not_exists]
  refine forall_congr' fun n => not_congr chosenInterval?_eq_some_iff

theorem chosenDirectory?_eq_some_iff {value : Option String} {path : Path} :
    chosenDirectory? value = some path ↔ value = some path.text ∧ path.text ≠ "" := by
  rw [chosenDirectory?, Option.map_eq_some_iff]
  constructor
  · rintro ⟨text, hfilter, rfl⟩
    obtain ⟨hvalue, htext⟩ := Option.filter_eq_some_iff.mp hfilter
    exact ⟨hvalue, by simpa using htext⟩
  · rintro ⟨hvalue, htext⟩
    exact ⟨path.text, Option.filter_eq_some_iff.mpr ⟨hvalue, by simpa using htext⟩, rfl⟩

theorem chosenDirectory?_eq_none_iff {value : Option String} :
    chosenDirectory? value = none ↔ ¬ ∃ text, value = some text ∧ text ≠ "" := by
  rw [Option.eq_none_iff_forall_ne_some]
  constructor
  · rintro h ⟨text, hvalue⟩
    exact h ⟨text⟩ (chosenDirectory?_eq_some_iff.mpr hvalue)
  · intro h path hpath
    exact h ⟨path.text, chosenDirectory?_eq_some_iff.mp hpath⟩

namespace Settings

variable (s : Settings) (value : Option String) (lookup : String → Option String)

theorem withVariableDirectory_eq :
    s.withVariableDirectory value
      = { s with directory := (chosenDirectory? value).getD s.directory } := by
  cases value with
  | none => rfl
  | some text =>
      rw [withVariableDirectory, chosenDirectory?, Option.filter_some]
      split
      · rename_i hempty
        rw [hempty]
        rfl
      · rename_i hempty
        rw [Bool.not_eq_true] at hempty
        rw [hempty]
        rfl

theorem fst_withVariableInterval :
    (s.withVariableInterval value).1
      = { s with interval := (chosenInterval? value).getD s.interval } := by
  cases value with
  | none => rfl
  | some text =>
      rw [withVariableInterval, chosenInterval?, Option.bind_some]
      cases interval? text with
      | none => rfl
      | some ms => rfl

/-- Each variable has a setting of its own, and the others have none. -/
theorem fst_ofLookup :
    (ofLookup lookup).1
      = { directory := (chosenDirectory? (lookup directoryVariable)).getD ⟨"."⟩
          interval := (chosenInterval? (lookup intervalVariable)).getD 1000 } := by
  rw [ofLookup, fst_withVariableInterval, withVariableDirectory_eq]

/-- **What two variables make of the defaults.**  Whatever the variables hold:

    the interval     n milliseconds exactly if its variable spells n between optional blanks, n not
                     zero and below 2^64; the default if it spells no such number
    the directory    the value of its variable if that is not empty, else the default
    the others       the defaults

Another value of the one variable changes nothing in the setting of the other, and the interval is
never zero. -/
theorem variables_decide :
    (∀ n, (ofLookup lookup).1.interval = n
      ↔ (∃ text, lookup intervalVariable = some text ∧ SpellsInterval text n)
        ∨ n = ({} : Settings).interval
          ∧ ¬ ∃ text k, lookup intervalVariable = some text ∧ SpellsInterval text k)
    ∧ (∀ path, (ofLookup lookup).1.directory = path
      ↔ lookup directoryVariable = some path.text ∧ path.text ≠ ""
        ∨ path = ({} : Settings).directory
          ∧ ¬ ∃ text, lookup directoryVariable = some text ∧ text ≠ "")
    ∧ (0 < (ofLookup lookup).1.interval ∧ (ofLookup lookup).1.interval < UInt64.size)
    ∧ (∀ value, (ofLookup (Function.update lookup directoryVariable value)).1.interval
        = (ofLookup lookup).1.interval)
    ∧ (∀ value, (ofLookup (Function.update lookup intervalVariable value)).1.directory
        = (ofLookup lookup).1.directory)
    ∧ (ofLookup lookup).1.extension = ({} : Settings).extension
    ∧ (ofLookup lookup).1.removeAfterLoad = ({} : Settings).removeAfterLoad := by
  have hne : directoryVariable ≠ intervalVariable := by decide
  rw [fst_ofLookup]
  dsimp only
  refine ⟨fun n => ?_, fun path => ?_, ?_, fun value => ?_, fun value => ?_, rfl, rfl⟩
  · rw [Option.getD_eq_iff, chosenInterval?_eq_some_iff, chosenInterval?_eq_none_iff,
      and_comm (b := 1000 = n), eq_comm (a := 1000)]
  · rw [Option.getD_eq_iff, chosenDirectory?_eq_some_iff, chosenDirectory?_eq_none_iff,
      and_comm (b := ⟨"."⟩ = path), eq_comm (b := path)]
  · cases hchosen : chosenInterval? (lookup intervalVariable) with
    | none => decide
    | some n =>
        obtain ⟨text, -, -, hpos, hlt⟩ := chosenInterval?_eq_some_iff.mp hchosen
        exact ⟨hpos, hlt⟩
  · rw [fst_ofLookup, Function.update_of_ne hne.symm]
  · rw [fst_ofLookup, Function.update_of_ne hne]

/-- Signs and zeros in front, blanks around; one digit more and the number no longer fits. -/
example : interval? "\t+00018446744073709551615\n" = some 18446744073709551615
    ∧ interval? "18446744073709551616" = none ∧ interval? "++1" = none ∧ interval? "000" = none := by
  decide +kernel

end Settings
end Delivery
end Hotswap
