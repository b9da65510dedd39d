/-!
# Machine words as bytes

A word is written least significant byte first. Reading undoes writing (`ofBytes_toBytes`), and
every string of bytes is the written form of the number it reads as (`toBytes_ofBytes`).
-/

namespace Hotswap.Machine

/-- A place in the 64-bit address space. -/
abbrev Address := UInt64

/-- The `k` low bytes of `n`, least significant first. -/
def toBytes : Nat → Nat → List UInt8
  | 0, _ => []
  | k + 1, n => UInt8.ofNat n :: toBytes k (n / 256)

/-- The number that the bytes stand for, least significant first. -/
def ofBytes : List UInt8 → Nat
  | [] => 0
  | b :: bs => b.toNat + 256 * ofBytes bs

/-- The number of words of `k` bytes. -/
def wordCount : Nat → Nat
  | 0 => 1
  | k + 1 => 256 * wordCount k

@[simp] theorem length_toBytes (k n : Nat) : (toBytes k n).length = k := by
  induction k generalizing n with
  | zero => rfl
  | succ k ih => simp [toBytes, ih]

theorem ofBytes_lt (bs : List UInt8) : ofBytes bs < wordCount bs.length := by
  induction bs with
  | nil => simp [ofBytes, wordCount]
  | cons b bs ih =>
    have hb : b.toNat < 256 := b.toNat_lt
    simp only [ofBytes, List.length_cons, wordCount]
    omega

theorem ofBytes_toBytes {k n : Nat} (h : n < wordCount k) : ofBytes (toBytes k n) = n := by
  induction k generalizing n with
  | zero => simp [wordCount] at h; simp [toBytes, ofBytes, h]
  | succ k ih =>
    have hk : n / 256 < wordCount k := by
      simp only [wordCount] at h
      omega
    simp only [toBytes, ofBytes, ih hk, UInt8.toNat_ofNat']
    omega

theorem toBytes_ofBytes (bs : List UInt8) : toBytes bs.length (ofBytes bs) = bs := by
  induction bs with
  | nil => rfl
  | cons b bs ih =>
    have hb : b.toNat < 256 := b.toNat_lt
    have hdiv : (b.toNat + 256 * ofBytes bs) / 256 = ofBytes bs := by omega
    have hlow : UInt8.ofNat (b.toNat + 256 * ofBytes bs) = b := by
      apply UInt8.toNat_inj.1
      rw [UInt8.toNat_ofNat']
      omega
    simp only [List.length_cons, toBytes, ofBytes, hdiv, hlow, ih]

end Hotswap.Machine
