import Hotswap.Proofs.Memory.Closing
import Mathlib.Data.Set.Card

/-!
# The last page of the address space

The pages of a range are listed from the page of its first byte up to the first page start from its
end on.  Next to the end of the address space that end cannot be had: above the start of the last
page there is no page start to round up to, and a range that goes up to 2^64 ends at the address 0.

    where the range ends                  the pages on the list
    up to the start of the last page      those with a byte of the range
    above that, below 2^64                the same without the last page of the address space
    at 2^64                               none; the end of the list lies before its start

What a window holds follows from `Cover`; here it is put together for every range that ends at 2^64
or before.
-/

namespace Hotswap

open Machine (Address)

section
variable [Paging] {location : Address} {length : Nat}

/-! ## The two ends of the list -/

/-- The list ends before it starts exactly if the range goes up to 2^64; from the first page on
there is nothing before it. -/
theorem coverEnd_lt_iff (h : location.toNat + length ≤ UInt64.size) :
    coverEnd location length < pageFloor location
      ↔ 0 < length ∧ location.toNat + length = UInt64.size ∧ pageSize ≤ location.toNat := by
  have hpos := pageSize_pos
  have hfloor := pageSize_dvd_pageFloor location
  obtain ⟨-, hfrom, -⟩ := pageFloor_eq_iff.mp (rfl : pageFloor location = pageFloor location)
  rw [UInt64.lt_iff_toNat_lt]
  rcases Nat.eq_zero_or_pos length with rfl | hlength
  · rw [coverEnd_zero]
    omega
  rcases Nat.eq_or_lt_of_le h with hfull | hshort
  · rw [coverEnd_of_full hlength hfull, UInt64.toNat_zero]
    refine ⟨fun hlt => ⟨hlength, hfull, ?_⟩, fun ⟨_, _, hle⟩ => ?_⟩
    · have hfirst := add_pageSize_le (Nat.dvd_zero pageSize) hfloor hlt
      omega
    · have hfirst := (Paging.le_floor_iff hpos (Nat.dvd_refl pageSize)).mpr hle
      rw [← toNat_pageFloor] at hfirst
      omega
  · -- the end of the list does not lie before itself
    have hend := lt_coverEnd_iff hlength hshort (pageSize_dvd_coverEnd location length)
    have hlast : (pageFloor location).toNat ≤ lastPage.toNat := by
      rw [toNat_pageFloor, Paging.floor_le_iff hpos pageSize_dvd_lastPage, toNat_lastPage_add]
      exact location.toNat_lt
    omega

theorem meets_lastPage_iff (h : location.toNat + length ≤ UInt64.size) :
    Meets location length lastPage ↔ ¬ ClearOfEnd location length := by
  rw [← covers_iff_meets h, covers_lastPage_iff]

end

/-! ## Windows -/

namespace Window

theorem Opened.size_eq [Paging] {m : Memory} {location : Address} {length : Nat} {w : Window}
    (h : Opened m location length w) : w.size = {page | w.Holds page}.ncard := by
  have hpages : {page | w.Holds page} = ((w.pages.map Saved.page).toFinset : Set Address) :=
    (List.coe_toFinset _).symm
  rw [hpages, Set.ncard_coe_finset, List.toFinset_card_of_nodup h.nodup, List.length_map, size]

/-- **Which pages a window holds, up to the end of the address space.**  For every range that ends
at 2^64 or before:

    the ends of the list     in order, unless the range goes up to 2^64 from behind the first page
    the last page            on no list, wherever the end of the range is rounded to
    an open window           holds, ascending and each once, the pages with a byte of the range, but
                             not the last page of the address space, and none at all if the range
                             goes up to 2^64; its size is their number

So a window holds the pages of its bytes exactly if none of them lies on the last page. -/
theorem pages_up_to_last [Paging] (location : Address) (length : Nat)
    (h : location.toNat + length ≤ UInt64.size) :
    (coverEnd location length < pageFloor location
      ↔ 0 < length ∧ location.toNat + length = UInt64.size ∧ pageSize ≤ location.toNat)
    ∧ (∀ stop, lastPage ∉ pagesBetween (pageFloor location) stop)
    ∧ ∀ m w, (openAt location length m).answer = .ok w →
      (w.pages.map Saved.page).Pairwise (· < ·)
      ∧ (∀ page, w.Holds page ↔ Meets location length page ∧ page ≠ lastPage
          ∧ location.toNat + length < UInt64.size)
      ∧ w.size = {page | w.Holds page}.ncard
      ∧ ((∀ page, w.Holds page ↔ Meets location length page)
          ↔ ClearOfEnd location length) := by
  refine ⟨coverEnd_lt_iff h, lastPage_not_mem_pagesBetween _, fun m w hopen => ?_⟩
  have hopened := opened_of_ok hopen
  have hholds : ∀ page, w.Holds page ↔ Meets location length page ∧ page ≠ lastPage
      ∧ location.toNat + length < UInt64.size := by
    intro page
    rw [Holds, hopened.pages, mem_coveredPages_iff_meets h]
  refine ⟨hopened.ascending, hholds, hopened.size_eq, ?_⟩
  constructor
  · intro hexact
    by_contra hclear
    have hlast := (hexact lastPage).mpr ((meets_lastPage_iff h).mpr hclear)
    exact ((hholds lastPage).mp hlast).2.1 rfl
  · intro hclear page
    rw [hopened.holds_iff hclear, covers_iff_meets h]

/-- From the last page but one onto the last: the window holds the one and not the other. -/
theorem pages_up_to_last_across :
    let code : Protection := ⟨true, false, true⟩
    let m : Memory := ⟨fun _ => 0, fun _ => .mapped code⟩
    let w : Window := ⟨[⟨0xFFFFFFFFFFFFE000, code⟩]⟩
    (0xFFFFFFFFFFFFEFF8 : Address).toNat + 24 ≤ UInt64.size
      ∧ (openAt 0xFFFFFFFFFFFFEFF8 24 m).answer = .ok w
      ∧ w.Holds 0xFFFFFFFFFFFFE000
      ∧ Meets 0xFFFFFFFFFFFFEFF8 24 lastPage
      ∧ ¬ w.Holds lastPage
      ∧ w.size = {page | w.Holds page}.ncard
      ∧ ¬ coverEnd 0xFFFFFFFFFFFFEFF8 24 < pageFloor 0xFFFFFFFFFFFFEFF8 := by
  intro code m w
  have hrange : (0xFFFFFFFFFFFFEFF8 : Address).toNat + 24 ≤ UInt64.size := by decide
  have hopen : (openAt 0xFFFFFFFFFFFFEFF8 24 m).answer = .ok w := rfl
  obtain ⟨hends, -, hwindow⟩ := pages_up_to_last 0xFFFFFFFFFFFFEFF8 24 hrange
  obtain ⟨-, hholds, hsize, -⟩ := hwindow m w hopen
  have hfirst : Meets 0xFFFFFFFFFFFFEFF8 24 0xFFFFFFFFFFFFE000 :=
    ⟨by decide, 0xFFFFFFFFFFFFEFF8, by decide, by decide⟩
  have hlast : Meets 0xFFFFFFFFFFFFEFF8 24 lastPage :=
    ⟨by decide, 0xFFFFFFFFFFFFF000, by decide, by decide⟩
  refine ⟨hrange, hopen, (hholds _).mpr ⟨hfirst, by decide, by decide⟩, hlast, ?_, hsize, ?_⟩
  · intro h
    exact ((hholds lastPage).mp h).2.1 rfl
  · intro h
    exact absurd (hends.mp h).2.1 (by decide)

/-- Sixteen bytes on the last page, which is not there: the window opens all the same and holds
nothing.  Where the range takes in the whole page, its list of pages ends before it starts. -/
theorem opens_over_missing_last_page :
    let m : Memory := ⟨fun _ => 0, fun _ => .unmapped⟩
    let w : Window := ⟨[]⟩
    (0xFFFFFFFFFFFFF010 : Address).toNat + 16 ≤ UInt64.size
      ∧ (openAt 0xFFFFFFFFFFFFF010 16 m).answer = .ok w
      ∧ Meets 0xFFFFFFFFFFFFF010 16 0xFFFFFFFFFFFFF000
      ∧ ¬ w.Holds 0xFFFFFFFFFFFFF000
      ∧ (0xFFFFFFFFFFFFF000 : Address).toNat + 4096 ≤ UInt64.size
      ∧ coverEnd 0xFFFFFFFFFFFFF000 4096 < pageFloor 0xFFFFFFFFFFFFF000 := by
  intro m w
  refine ⟨by decide, rfl, ⟨by decide, 0xFFFFFFFFFFFFF010, by decide, by decide⟩, ?_, by decide,
    by decide⟩
  exact List.not_mem_nil

end Window
end Hotswap
