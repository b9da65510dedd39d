import Hotswap.Memory.Page

/-!
# Which pages a range of bytes lies on

`coveredPages` computes a list of page starts by rounding the ends of a range.  The list ascends.
Here it is compared with the bytes themselves: a page is on the list exactly if one of the bytes
lies on it, unless it is the last page of the address space.

Nothing is used of the rounding but what it says about page starts, which are the multiples of the
page size:

    floor of a ≤ page      the byte in front of the next page is a, or behind it
    page < ceiling of a    page < a, and not the last page

There is no page start behind the last page to round up to, so that page is never on the list
(`mem_coveredPages_iff_meets`).  The ranges of which that is the whole story are those that stay
clear of it (`ClearOfEnd`).
-/

namespace Hotswap

open Machine (Address)

theorem toNat_add_of_lt {location : Address} {i : Nat} (h : location.toNat + i < UInt64.size) :
    (location + UInt64.ofNat i).toNat = location.toNat + i := by
  rw [UInt64.toNat_add, UInt64.toNat_ofNat']
  simp only [UInt64.size] at h
  omega

/-! ## Page starts -/

section
variable [Paging]

theorem pageSize_pos : 0 < pageSize :=
  Nat.pos_of_dvd_of_pos Paging.pageSize_dvd (by decide)

theorem add_pageSize_le {p q : Nat} (hp : pageSize ∣ p) (hq : pageSize ∣ q) (h : p < q) :
    p + pageSize ≤ q := by
  have hle := Nat.le_of_dvd (Nat.sub_pos_of_lt h) (Nat.dvd_sub hq hp)
  omega

/-- The start of the last page of the address space. -/
def lastPage : Address :=
  UInt64.ofNat (UInt64.size - pageSize)

theorem toNat_lastPage : lastPage.toNat = UInt64.size - pageSize := by
  have hpos := pageSize_pos
  rw [lastPage, UInt64.toNat_ofNat']
  refine Nat.mod_eq_of_lt ?_
  simp only [UInt64.size]
  omega

theorem pageSize_dvd_lastPage : pageSize ∣ lastPage.toNat := by
  rw [toNat_lastPage]
  exact Nat.dvd_sub Paging.pageSize_dvd (Nat.dvd_refl pageSize)

theorem toNat_lastPage_add : lastPage.toNat + pageSize = UInt64.size := by
  rw [toNat_lastPage]
  exact Nat.sub_add_cancel (Nat.le_of_lt Paging.pageSize_lt)

variable {a page start stop location : Address} {length : Nat}

theorem lt_lastPage_iff (hpage : pageSize ∣ page.toNat) :
    page.toNat < lastPage.toNat ↔ page ≠ lastPage := by
  have hlast := toNat_lastPage_add
  have hbelow := page.toNat_lt
  rw [ne_eq, ← UInt64.toNat_inj]
  constructor
  · exact Nat.ne_of_lt
  · intro hne
    refine Nat.lt_of_le_of_ne (Nat.le_of_not_lt fun hgt => ?_) hne
    have habove := add_pageSize_le pageSize_dvd_lastPage hpage hgt
    simp only [UInt64.size] at hlast
    omega

theorem pageSize_dvd_pageFloor (a : Address) : pageSize ∣ (pageFloor a).toNat := by
  rw [toNat_pageFloor]
  exact Nat.dvd_mul_left _ _

theorem pageFloor_eq_iff :
    pageFloor a = page
      ↔ pageSize ∣ page.toNat ∧ page.toNat ≤ a.toNat ∧ a.toNat < page.toNat + pageSize := by
  constructor
  · rintro rfl
    have hdvd := pageSize_dvd_pageFloor a
    refine ⟨hdvd, ?_, ?_⟩
    · rw [toNat_pageFloor]
      exact Nat.div_mul_le_self _ _
    · exact (Paging.floor_le_iff pageSize_pos hdvd).mp (Nat.le_of_eq (toNat_pageFloor a).symm)
  · rintro ⟨hdvd, hfrom, hto⟩
    apply UInt64.toNat_inj.mp
    rw [toNat_pageFloor]
    exact Nat.le_antisymm ((Paging.floor_le_iff pageSize_pos hdvd).mpr hto)
      ((Paging.le_floor_iff pageSize_pos hdvd).mpr hfrom)

/-! ## Lists of page starts -/

/-- Counting pages from `start` on leads nowhere beyond `stop`, and so nowhere around the end of the
address space. -/
theorem toNat_add_pages {i : Nat} (hi : i < (stop.toNat - start.toNat) / pageSize) :
    (start + UInt64.ofNat (i * pageSize)).toNat = start.toNat + i * pageSize
      ∧ start.toNat + i * pageSize + pageSize ≤ stop.toNat := by
  have hstop := stop.toNat_lt
  have hpos := pageSize_pos
  have hmul := (Nat.le_div_iff_mul_le hpos).mp (Nat.succ_le_of_lt hi)
  rw [Nat.succ_mul] at hmul
  rw [UInt64.toNat_add, UInt64.toNat_ofNat']
  omega

theorem mem_pagesBetween_iff (hstart : pageSize ∣ start.toNat) (hstop : pageSize ∣ stop.toNat) :
    page ∈ pagesBetween start stop
      ↔ pageSize ∣ page.toNat ∧ start.toNat ≤ page.toNat ∧ page.toNat < stop.toNat := by
  have hpos := pageSize_pos
  simp only [pagesBetween, List.mem_map, List.mem_range]
  constructor
  · rintro ⟨i, hi, rfl⟩
    obtain ⟨hpage, hend⟩ := toNat_add_pages hi
    rw [hpage]
    exact ⟨Nat.dvd_add hstart (Nat.dvd_mul_left _ _), Nat.le_add_right _ _, by omega⟩
  · rintro ⟨hdvd, hfrom, hto⟩
    obtain ⟨i, hi⟩ := Nat.dvd_sub hdvd hstart
    rw [Nat.mul_comm] at hi
    have hend := add_pageSize_le hdvd hstop hto
    have hlt : i < (stop.toNat - start.toNat) / pageSize := by
      rw [← Nat.succ_le_iff, Nat.le_div_iff_mul_le hpos, Nat.succ_mul]
      omega
    refine ⟨i, hlt, UInt64.toNat_inj.mp ?_⟩
    rw [(toNat_add_pages hlt).1]
    omega

/-- Wherever a list of pages may end, its end is an address, and so it ends before the last page. -/
theorem lastPage_not_mem_pagesBetween (start stop : Address) :
    lastPage ∉ pagesBetween start stop := by
  intro hmem
  obtain ⟨i, hi, hpage⟩ := List.mem_map.mp hmem
  obtain ⟨hlast, hend⟩ := toNat_add_pages (List.mem_range.mp hi)
  have hsize := toNat_lastPage_add
  have hstop := stop.toNat_lt
  rw [hpage] at hlast
  simp only [UInt64.size] at hsize
  omega

/-! ## Where the list of a range ends -/

theorem coverEnd_zero (location : Address) : coverEnd location 0 = pageFloor location :=
  if_pos rfl

theorem pageSize_dvd_coverEnd (location : Address) (length : Nat) :
    pageSize ∣ (coverEnd location length).toNat := by
  unfold coverEnd
  split
  · exact pageSize_dvd_pageFloor location
  · rw [toNat_pageCeil, ← toNat_lastPage, Nat.min_def]
    split
    · exact Nat.dvd_mul_left _ _
    · exact pageSize_dvd_lastPage

theorem lt_coverEnd_iff (hlength : 0 < length) (h : location.toNat + length < UInt64.size)
    {p : Nat} (hp : pageSize ∣ p) :
    p < (coverEnd location length).toNat
      ↔ p < location.toNat + length ∧ p < lastPage.toNat := by
  rw [coverEnd, if_neg (Nat.ne_of_gt hlength), toNat_pageCeil, toNat_add_of_lt h, Nat.lt_min,
    Paging.lt_ceil_iff pageSize_pos hp, toNat_lastPage]

/-- The end of a range that goes up to 2^64 is taken for the address 0. -/
theorem coverEnd_of_full (hlength : 0 < length) (h : location.toNat + length = UInt64.size) :
    coverEnd location length = 0 := by
  have hend : (location + UInt64.ofNat length).toNat = 0 := by
    rw [UInt64.toNat_add, UInt64.toNat_ofNat']
    simp only [UInt64.size] at h
    omega
  apply UInt64.toNat_inj.mp
  have hfirst := Paging.lt_ceil_iff (a := 0) pageSize_pos (Nat.dvd_zero pageSize)
  rw [coverEnd, if_neg (Nat.ne_of_gt hlength), toNat_pageCeil, hend, UInt64.toNat_zero]
  omega

/-! ## The pages of a range -/

/-- `x` is a byte of `[location, location + length)`. -/
def Spans (location : Address) (length : Nat) (x : Address) : Prop :=
  ∃ i < length, location + UInt64.ofNat i = x

/-- Some byte of `[location, location + length)` lies on the page that starts at `page`. -/
def Covers (location : Address) (length : Nat) (page : Address) : Prop :=
  ∃ i < length, pageFloor (location + UInt64.ofNat i) = page

/-- A page starts at `page`, and one of the `length` bytes from `location` on lies on it.  Bytes are
counted by numbers, which do not wrap around. -/
def Meets (location : Address) (length : Nat) (page : Address) : Prop :=
  pageSize ∣ page.toNat ∧ ∃ x, (location.toNat ≤ x ∧ x < location.toNat + length)
    ∧ page.toNat ≤ x ∧ x < page.toNat + pageSize

theorem meets_iff :
    Meets location length page
      ↔ 0 < length ∧ pageSize ∣ page.toNat ∧ location.toNat < page.toNat + pageSize
        ∧ page.toNat < location.toNat + length := by
  have hpos := pageSize_pos
  constructor
  · rintro ⟨hdvd, x, ⟨hfrom, hto⟩, hon, hbelow⟩
    exact ⟨by omega, hdvd, by omega, by omega⟩
  · rintro ⟨hlength, hdvd, hfrom, hto⟩
    -- the first byte on the page: its start, or the start of the range if that is later
    exact ⟨hdvd, max location.toNat page.toNat, by omega, by omega⟩

theorem covers_iff_meets (h : location.toNat + length ≤ UInt64.size) :
    Covers location length page ↔ Meets location length page := by
  constructor
  · rintro ⟨i, hi, hfloor⟩
    obtain ⟨hdvd, hfrom, hto⟩ := pageFloor_eq_iff.mp hfloor
    rw [toNat_add_of_lt (Nat.lt_of_lt_of_le (Nat.add_lt_add_left hi _) h)] at hfrom hto
    exact ⟨hdvd, location.toNat + i, by omega, hfrom, hto⟩
  · rintro ⟨hdvd, x, ⟨hfrom, hto⟩, hon⟩
    refine ⟨x - location.toNat, by omega, pageFloor_eq_iff.mpr ?_⟩
    rw [toNat_add_of_lt (by omega), Nat.add_sub_cancel' hfrom]
    exact ⟨hdvd, hon⟩

/-- The pages on the list, wherever the range lies. -/
theorem mem_coveredPages_iff_meets (h : location.toNat + length ≤ UInt64.size) :
    page ∈ coveredPages location length
      ↔ Meets location length page ∧ page ≠ lastPage
        ∧ location.toNat + length < UInt64.size := by
  rw [coveredPages, mem_pagesBetween_iff (pageSize_dvd_pageFloor location)
    (pageSize_dvd_coverEnd location length), meets_iff]
  rcases Nat.eq_zero_or_pos length with rfl | hlength
  · rw [coverEnd_zero]
    omega
  rcases Nat.eq_or_lt_of_le h with hfull | hshort
  · rw [coverEnd_of_full hlength hfull, UInt64.toNat_zero]
    omega
  · refine ⟨fun ⟨hdvd, hfrom, hto⟩ => ?_, fun ⟨⟨_, hdvd, hfrom, hto⟩, hlast, _⟩ => ?_⟩
    · rw [lt_coverEnd_iff hlength hshort hdvd, lt_lastPage_iff hdvd] at hto
      rw [toNat_pageFloor, Paging.floor_le_iff pageSize_pos hdvd] at hfrom
      exact ⟨⟨hlength, hdvd, hfrom, hto.1⟩, hto.2, hshort⟩
    · rw [lt_coverEnd_iff hlength hshort hdvd, lt_lastPage_iff hdvd, toNat_pageFloor,
        Paging.floor_le_iff pageSize_pos hdvd]
      exact ⟨hdvd, hfrom, hto, hlast⟩

theorem coveredPages_ascending (location : Address) (length : Nat) :
    (coveredPages location length).Pairwise (· < ·) := by
  unfold coveredPages pagesBetween
  rw [List.pairwise_map]
  refine List.Pairwise.imp_of_mem ?_ List.pairwise_lt_range
  intro j k hj hk hjk
  rw [UInt64.lt_iff_toNat_lt, (toNat_add_pages (List.mem_range.mp hj)).1,
    (toNat_add_pages (List.mem_range.mp hk)).1]
  exact Nat.add_lt_add_left (Nat.mul_lt_mul_of_pos_right hjk pageSize_pos) _

theorem coveredPages_nodup (location : Address) (length : Nat) :
    (coveredPages location length).Nodup :=
  (coveredPages_ascending location length).imp fun hlt => UInt64.ne_of_lt hlt

/-! ## Ranges away from the end of the address space -/

/-- No byte of `[location, location + length)` lies on the last page of the address space. -/
def ClearOfEnd (location : Address) (length : Nat) : Prop :=
  ∀ i < length, location.toNat + i < UInt64.size - pageSize

instance (location : Address) (length : Nat) : Decidable (ClearOfEnd location length) :=
  inferInstanceAs (Decidable (∀ i < length, location.toNat + i < UInt64.size - pageSize))

theorem ClearOfEnd.toNat_add (h : ClearOfEnd location length) {i : Nat} (hi : i < length) :
    (location + UInt64.ofNat i).toNat = location.toNat + i :=
  toNat_add_of_lt (Nat.lt_of_lt_of_le (h i hi) (Nat.sub_le _ _))

theorem ClearOfEnd.add_lt (h : ClearOfEnd location length) :
    location.toNat + length < UInt64.size := by
  have hlocation := location.toNat_lt
  have hpos := pageSize_pos
  rcases Nat.eq_zero_or_pos length with rfl | hlength
  · exact hlocation
  · have hlast := h (length - 1) (by omega)
    omega

theorem ClearOfEnd.length_le (h : ClearOfEnd location length) : length ≤ UInt64.size :=
  Nat.le_of_lt (Nat.lt_of_le_of_lt (Nat.le_add_left _ _) h.add_lt)

theorem ClearOfEnd.spans_iff (h : ClearOfEnd location length) {x : Address} :
    Spans location length x
      ↔ location.toNat ≤ x.toNat ∧ x.toNat < location.toNat + length := by
  constructor
  · rintro ⟨i, hi, rfl⟩
    rw [h.toNat_add hi]
    omega
  · rintro ⟨hfrom, hto⟩
    refine ⟨x.toNat - location.toNat, by omega, UInt64.toNat_inj.mp ?_⟩
    rw [h.toNat_add (by omega)]
    omega

/-- The last page covers a byte of every range that is not clear of it, also of one that wraps
around. -/
theorem covers_lastPage_iff : Covers location length lastPage ↔ ¬ ClearOfEnd location length := by
  have hpos := pageSize_pos
  have hlast := toNat_lastPage_add
  have hlocation := location.toNat_lt
  simp only [UInt64.size] at hlast
  constructor
  · rintro ⟨i, hi, hfloor⟩ hclear
    obtain ⟨-, hon, -⟩ := pageFloor_eq_iff.mp hfloor
    rw [hclear.toNat_add hi, toNat_lastPage] at hon
    exact Nat.not_lt_of_le hon (hclear i hi)
  · intro hnot
    rw [ClearOfEnd, ← toNat_lastPage] at hnot
    obtain ⟨i, hi, hbeyond⟩ : ∃ i < length, lastPage.toNat ≤ location.toNat + i := by
      refine Classical.byContradiction fun hnone => hnot fun i hi => Nat.lt_of_not_le fun hle => ?_
      exact hnone ⟨i, hi, hle⟩
    -- the first byte from there on: the start of the last page, or the start of the range
    refine ⟨lastPage.toNat - location.toNat, by omega, pageFloor_eq_iff.mpr ?_⟩
    rw [toNat_add_of_lt (by simp only [UInt64.size]; omega)]
    exact ⟨pageSize_dvd_lastPage, by omega, by omega⟩

theorem ClearOfEnd.mem_coveredPages_iff (h : ClearOfEnd location length) :
    page ∈ coveredPages location length ↔ Covers location length page := by
  have hcovers : Covers location length page ↔ Meets location length page :=
    covers_iff_meets (Nat.le_of_lt h.add_lt)
  rw [mem_coveredPages_iff_meets (Nat.le_of_lt h.add_lt), ← hcovers]
  refine and_iff_left_of_imp fun hpage => ⟨?_, h.add_lt⟩
  rintro rfl
  exact covers_lastPage_iff.mp hpage h

end

/-! ## The lowest page -/

/-- Of the pages with a property, an ascending list has a lowest one, and that is the first. -/
theorem exists_lowest {P : Address → Prop} {pages : List Address}
    (hascending : pages.Pairwise (· < ·)) (h : ∃ x ∈ pages, P x) :
    ∃ before page after, pages = before ++ page :: after ∧ P page ∧ (∀ x ∈ before, ¬ P x)
      ∧ ∀ x ∈ pages, P x → page ≤ x := by
  induction pages with
  | nil =>
      obtain ⟨x, hx, -⟩ := h
      exact absurd hx List.not_mem_nil
  | cons first rest ih =>
      obtain ⟨hbelow, hrest⟩ := List.pairwise_cons.mp hascending
      by_cases hfirst : P first
      · refine ⟨[], first, rest, rfl, hfirst, nofun, fun x hx _ => ?_⟩
        rcases List.mem_cons.mp hx with rfl | hx
        · exact UInt64.le_refl x
        · exact UInt64.le_of_lt (hbelow x hx)
      · obtain ⟨x, hx, hP⟩ := h
        have hx : x ∈ rest := (List.mem_cons.mp hx).resolve_left fun hfx => hfirst (hfx ▸ hP)
        obtain ⟨before, page, after, rfl, hpage, hbefore, hlowest⟩ := ih hrest ⟨x, hx, hP⟩
        refine ⟨first :: before, page, after, rfl, hpage, fun y hy => ?_, fun y hy hPy => ?_⟩
        · rcases List.mem_cons.mp hy with rfl | hy
          · exact hfirst
          · exact hbefore y hy
        · rcases List.mem_cons.mp hy with rfl | hy
          · exact absurd hPy hfirst
          · exact hlowest y hy hPy

end Hotswap
