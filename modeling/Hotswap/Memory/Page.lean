import Hotswap.Machine.Bytes

/-!
# Pages

Memory comes in pages of a fixed size, each with a protection of its own. Some pages are not there,
and some are sealed: those can be read and can never be made writable.
-/

namespace Hotswap

open Machine (Address)

/-- What may be done with the bytes of a page. -/
structure Protection where
  read : Bool
  write : Bool
  execute : Bool
deriving DecidableEq, Repr

namespace Protection

/-- Everything is allowed. -/
def full : Protection := ⟨true, true, true⟩

/-- The three letters, a dash for what is not allowed. -/
def text (p : Protection) : String :=
  (if p.read then "r" else "-") ++ (if p.write then "w" else "-")
    ++ (if p.execute then "x" else "-")

end Protection

/-- The state of a page. -/
inductive Page where
  | unmapped
  | mapped (protection : Protection)
  /-- A page that refuses to become writable. -/
  | sealed (protection : Protection)
deriving DecidableEq, Repr

namespace Page

/-- The protection, if the page is there. -/
def protection? : Page → Option Protection
  | unmapped => none
  | mapped p => some p
  | sealed p => some p

/-- The page under the protection `p`, unless it refuses. -/
def protect (p : Protection) : Page → Option Page
  | unmapped => none
  | mapped _ => some (mapped p)
  | sealed _ => if p.write then none else some (sealed p)

end Page

/-! ## Addresses of pages -/

/-- How a system divides the address space into pages, and how it rounds addresses to their
starts. -/
class Paging where
  /-- The number of bytes in a page. -/
  pageSize : Nat
  /-- The pages divide the address space evenly, so that their size is a power of two. -/
  pageSize_dvd : pageSize ∣ UInt64.size
  pageSize_lt : pageSize < UInt64.size
  /-- The start of the page that holds an address. -/
  pageFloor : Address → Address
  toNat_pageFloor (a : Address) : (pageFloor a).toNat = a.toNat / pageSize * pageSize
  /-- The first page start from an address on; the start of the last page where the address space
  ends first. -/
  pageCeil : Address → Address
  toNat_pageCeil (a : Address) :
    (pageCeil a).toNat
      = min ((a.toNat + (pageSize - 1)) / pageSize * pageSize) (UInt64.size - pageSize)

export Paging (pageSize pageFloor pageCeil toNat_pageFloor toNat_pageCeil)

namespace Paging

/-! Rounding a number is compared with the multiples of the size alone. -/

section
variable {size a p : Nat} (hsize : 0 < size) (hp : size ∣ p)
include hsize hp

theorem le_floor_iff : p ≤ a / size * size ↔ p ≤ a := by
  obtain ⟨k, rfl⟩ := hp
  rw [Nat.mul_comm size k, Nat.mul_le_mul_right_iff hsize, Nat.le_div_iff_mul_le hsize]

theorem floor_le_iff : a / size * size ≤ p ↔ a < p + size := by
  obtain ⟨k, rfl⟩ := hp
  rw [Nat.mul_comm size k, Nat.mul_le_mul_right_iff hsize, ← Nat.lt_succ_iff,
    Nat.div_lt_iff_lt_mul hsize, Nat.succ_mul]

theorem lt_ceil_iff : p < (a + (size - 1)) / size * size ↔ p < a := by
  obtain ⟨k, rfl⟩ := hp
  rw [Nat.mul_comm size k, Nat.mul_lt_mul_right hsize, ← Nat.succ_le_iff,
    Nat.le_div_iff_mul_le hsize, Nat.succ_mul]
  omega

end

/-- Pages of the given size. -/
@[reducible] def ofSize (size : Nat) (hdvd : size ∣ UInt64.size) (hlt : size < UInt64.size) :
    Paging where
  pageSize := size
  pageSize_dvd := hdvd
  pageSize_lt := hlt
  pageFloor a := UInt64.ofNat (a.toNat / size * size)
  toNat_pageFloor a := by
    rw [UInt64.toNat_ofNat']
    exact Nat.mod_eq_of_lt (Nat.lt_of_le_of_lt (Nat.div_mul_le_self _ _) a.toNat_lt)
  pageCeil a :=
    if a.toNat + size < UInt64.size then
      UInt64.ofNat ((a.toNat + (size - 1)) / size * size)
    else UInt64.ofNat (a.toNat / size * size)
  toNat_pageCeil a := by
    have hsize : 0 < size := Nat.pos_of_dvd_of_pos hdvd (by decide)
    have hlast : size ∣ UInt64.size - size := Nat.dvd_sub hdvd (Nat.dvd_refl size)
    have hceil := lt_ceil_iff (a := a.toNat) hsize hlast
    have hself := lt_ceil_iff (a := a.toNat) hsize
      (Nat.dvd_mul_left size ((a.toNat + (size - 1)) / size))
    have ha := a.toNat_lt
    simp only [UInt64.size] at hlt hlast hceil ⊢
    split
    · rename_i hfits
      have hbelow := Nat.div_mul_le_self (a.toNat + (size - 1)) size
      rw [UInt64.toNat_ofNat', Nat.mod_eq_of_lt (by omega)]
      omega
    · rename_i hfits
      have hfrom := le_floor_iff (a := a.toNat) hsize hlast
      have hto := floor_le_iff (a := a.toNat) hsize hlast
      rw [UInt64.toNat_ofNat', Nat.mod_eq_of_lt (by omega)]
      omega

/-- Pages of 4096 bytes. -/
instance fourKiB : Paging :=
  .ofSize 4096 (by decide) (by decide)

end Paging

variable [Paging]

/-- The page starts from `start` up to `stop`, ascending. -/
def pagesBetween (start stop : Address) : List Address :=
  (List.range ((stop.toNat - start.toNat) / pageSize)).map fun i =>
    start + UInt64.ofNat (i * pageSize)

/-- Where the pages of the bytes `[location, location + length)` end; no bytes need no page. -/
def coverEnd (location : Address) (length : Nat) : Address :=
  if length = 0 then pageFloor location else pageCeil (location + UInt64.ofNat length)

/-- The pages that hold the bytes `[location, location + length)`, for a range that ends before the
last page of the address space. -/
def coveredPages (location : Address) (length : Nat) : List Address :=
  pagesBetween (pageFloor location) (coverEnd location length)

end Hotswap
