import Hotswap.Proofs.Memory.Install

/-!
# Closing a window over memory that has changed

A window remembers the protections its pages had when it was opened.  By the time it is closed the
memory may be another one: pages may be gone, or refuse.  `Memory.restore` goes through all pages
all the same, and a page that refuses does not stop it, so that each page is decided on its own
(`Memory.Refuses`), by the memory in which closing starts:

    the page takes its protection back      it has it afterwards, wherever in the window it lies
    the page refuses                        it stays as it is, and the lowest such page is named

The second part of the module is the case of pages that were taken away while the window was open.
There the pages that refuse are those that are gone, and closing gives the memory from before the
window without them.  The pages of a window are those that its range covers, unless the range comes
to lie on the last page of the address space, which no window holds (`Opened.holds_covers_iff`).
-/

namespace Hotswap

open Machine (Address)

namespace Memory

variable {m : Memory} {saved : List Saved}

/-! ## Pages that refuse -/

/-- The page of `s` does not take its protection back. -/
def Refuses (m : Memory) (s : Saved) : Prop :=
  (m.page s.page).protect s.protection = none

instance (m : Memory) (s : Saved) : Decidable (m.Refuses s) :=
  inferInstanceAs (Decidable (_ = none))

/-- A page that is gone refuses, and a sealed one that is to become writable again. -/
theorem refuses_iff {s : Saved} :
    m.Refuses s ↔ m.page s.page = .unmapped
      ∨ s.protection.write = true ∧ ∃ p, m.page s.page = .sealed p := by
  unfold Refuses
  cases m.page s.page with
  | unmapped => simp [Page.protect]
  | mapped p => simp [Page.protect]
  | sealed p => simp [Page.protect]

theorem protect_eq_none_iff {s : Saved} :
    m.protect s.page s.protection = none ↔ m.Refuses s := by
  rw [protect, Option.map_eq_none_iff, Refuses]

theorem refuses_protect_of_ne {s t : Saved} (h : s.page ≠ t.page) :
    ((m.protect t.page t.protection).getD m).Refuses s ↔ m.Refuses s := by
  rw [Refuses, page_protect, if_neg h, Refuses]

/-! ## What restoring answers and leaves behind -/

theorem restore_cons_of_refuses {s : Saved} (h : m.Refuses s) (rest : List Saved) :
    (restore (s :: rest) m).2 = some s.page := by
  rw [restore_cons, protect_eq_none_iff.mpr h]
  rfl

theorem restore_cons_of_not_refuses {s : Saved} (h : ¬ m.Refuses s) (rest : List Saved) :
    (restore (s :: rest) m).2
      = (restore rest ((m.protect s.page s.protection).getD m)).2 := by
  have hsome : (m.protect s.page s.protection).isSome = true := by
    rw [Option.isSome_iff_ne_none, ne_eq, protect_eq_none_iff]
    exact h
  rw [restore_cons, if_pos hsome]

theorem restore_eq_none_iff (hnodup : (saved.map Saved.page).Nodup) :
    (restore saved m).2 = none ↔ ∀ s ∈ saved, ¬ m.Refuses s := by
  induction saved generalizing m with
  | nil => exact ⟨fun _ => nofun, fun _ => rfl⟩
  | cons first rest ih =>
      rw [List.map_cons, List.nodup_cons] at hnodup
      obtain ⟨hnew, hrest⟩ := hnodup
      rw [List.forall_mem_cons]
      by_cases hfirst : m.Refuses first
      · rw [restore_cons_of_refuses hfirst]
        exact ⟨nofun, fun h => absurd hfirst h.1⟩
      · rw [restore_cons_of_not_refuses hfirst, ih hrest, and_iff_right hfirst]
        refine forall₂_congr fun s hs => ?_
        rw [refuses_protect_of_ne fun heq => hnew (heq ▸ List.mem_map_of_mem hs)]

/-- The page that is named is the lowest of those that refuse. -/
theorem restore_eq_some_iff (hascending : (saved.map Saved.page).Pairwise (· < ·))
    {page : Address} :
    (restore saved m).2 = some page
      ↔ ∃ s ∈ saved, s.page = page ∧ m.Refuses s
        ∧ ∀ t ∈ saved, m.Refuses t → page ≤ t.page := by
  induction saved generalizing m with
  | nil => exact ⟨nofun, fun ⟨_, hs, _⟩ => absurd hs List.not_mem_nil⟩
  | cons first rest ih =>
      obtain ⟨hbelow, hrest⟩ := List.pairwise_cons.mp hascending
      have hfirst_lt : ∀ t ∈ rest, first.page < t.page := fun t ht =>
        hbelow t.page (List.mem_map_of_mem ht)
      by_cases hfirst : m.Refuses first
      · rw [restore_cons_of_refuses hfirst, Option.some.injEq]
        constructor
        · rintro rfl
          refine ⟨first, List.mem_cons_self, rfl, hfirst, fun t ht _ => ?_⟩
          rcases List.mem_cons.mp ht with rfl | ht
          · exact UInt64.le_refl _
          · exact UInt64.le_of_lt (hfirst_lt t ht)
        · rintro ⟨s, hs, rfl, -, hlowest⟩
          rcases List.mem_cons.mp hs with rfl | hs
          · rfl
          · exact absurd (hlowest first List.mem_cons_self hfirst)
              (UInt64.not_le.mpr (hfirst_lt s hs))
      · rw [restore_cons_of_not_refuses hfirst, ih hrest]
        -- the pages behind the first one answer as they did before it was put back
        have hsame : ∀ t ∈ rest, ((m.protect first.page first.protection).getD m).Refuses t
            ↔ m.Refuses t := fun t ht =>
          refuses_protect_of_ne (UInt64.ne_of_lt (hfirst_lt t ht)).symm
        constructor
        · rintro ⟨s, hs, hpage, hrefuses, hlowest⟩
          refine ⟨s, List.mem_cons_of_mem _ hs, hpage, (hsame s hs).mp hrefuses,
            fun t ht hrefuses' => ?_⟩
          rcases List.mem_cons.mp ht with rfl | ht
          · exact absurd hrefuses' hfirst
          · exact hlowest t ht ((hsame t ht).mpr hrefuses')
        · rintro ⟨s, hs, hpage, hrefuses, hlowest⟩
          rcases List.mem_cons.mp hs with rfl | hs
          · exact absurd hrefuses hfirst
          · exact ⟨s, hs, hpage, (hsame s hs).mpr hrefuses, fun t ht hrefuses' =>
              hlowest t (List.mem_cons_of_mem _ ht) ((hsame t ht).mp hrefuses')⟩

theorem page_restore_of_refuses (hnodup : (saved.map Saved.page).Nodup) {s : Saved}
    (hs : s ∈ saved) (h : m.Refuses s) :
    (restore saved m).1.page s.page = m.page s.page := by
  rw [page_restore hnodup hs, show (m.page s.page).protect s.protection = none from h,
    Option.getD_none]

theorem protection_restore (hnodup : (saved.map Saved.page).Nodup) {s : Saved} (hs : s ∈ saved)
    (h : ¬ m.Refuses s) :
    ((restore saved m).1.page s.page).protection? = some s.protection := by
  rw [page_restore hnodup hs]
  rw [refuses_iff, not_or, not_and'] at h
  cases hpage : m.page s.page with
  | unmapped => exact absurd hpage h.1
  | mapped p => rfl
  | sealed p =>
      rw [Page.protect, if_neg (h.2 ⟨p, hpage⟩)]
      rfl

/-! ## Pages that are taken away -/

/-- The memory without the given pages. -/
def unmapAll (m : Memory) (pages : List Address) : Memory :=
  pages.foldl unmap m

theorem byte_unmapAll (pages : List Address) : (m.unmapAll pages).byte = m.byte := by
  induction pages generalizing m with
  | nil => rfl
  | cons page pages ih => exact ih

theorem page_unmapAll (pages : List Address) (x : Address) :
    (m.unmapAll pages).page x = if x ∈ pages then .unmapped else m.page x := by
  induction pages generalizing m with
  | nil => rfl
  | cons page pages ih =>
      have hstep : (m.unmapAll (page :: pages)).page x
          = if x ∈ pages then .unmapped else (m.unmap page).page x := ih
      rw [hstep, unmap, page_setPage]
      by_cases hx : x = page
      · rw [if_pos hx, ite_self, if_pos (hx ▸ List.mem_cons_self)]
      · rw [if_neg hx]
        simp only [List.mem_cons, hx, false_or]

end Memory

/-! ## Open windows -/

namespace Window

variable {m : Memory} {location : Address} {length : Nat} {w : Window}

/-- The page is one of those that the window switches and gives back. -/
def Holds (w : Window) (page : Address) : Prop :=
  page ∈ w.pages.map Saved.page

instance (w : Window) (page : Address) : Decidable (w.Holds page) :=
  inferInstanceAs (Decidable (page ∈ _))

/-- How `w` and the memory stand after it was opened on `m`. -/
structure Opened [Paging] (m : Memory) (location : Address) (length : Nat) (w : Window) : Prop where
  pages : w.pages.map Saved.page = coveredPages location length
  mapped : ∀ s ∈ w.pages, m.page s.page = .mapped s.protection
  state : (openAt location length m).state = m.lifted (w.pages.map Saved.page)

theorem opened_of_ok [Paging] (h : (openAt location length m).answer = .ok w) :
    Opened m location length w := by
  rcases openAt_decided m location length with hmapped | ⟨page, -, -, hfails⟩
  · obtain ⟨saved, ⟨hpages, hsaved⟩, hanswer, hstate⟩ := openAt_of_mapped hmapped
    cases Except.ok.inj (hanswer.symm.trans h)
    refine ⟨hpages, fun s hs => ?_, by rw [hpages, hstate]⟩
    obtain ⟨p, hp⟩ := hmapped s.page (hpages ▸ List.mem_map_of_mem hs)
    have hprotection := hsaved s hs
    rw [hp, Page.protection?, Option.some.injEq] at hprotection
    rw [hp, hprotection]
  · rw [hfails m rfl] at h
    cases h

theorem openAt_of_error [Paging] {page : Address}
    (h : (openAt location length m).answer = .error page) :
    openAt location length m = .pure (.error page) m := by
  rcases openAt_decided m location length with hmapped | ⟨other, -, -, hfails⟩
  · obtain ⟨saved, -, hanswer, -⟩ := openAt_of_mapped hmapped
    cases hanswer.symm.trans h
  · have hother := hfails m rfl
    rw [hother] at h
    cases h
    exact hother

namespace Opened

variable [Paging]

theorem ascending (h : Opened m location length w) :
    (w.pages.map Saved.page).Pairwise (· < ·) :=
  h.pages ▸ coveredPages_ascending location length

theorem nodup (h : Opened m location length w) : (w.pages.map Saved.page).Nodup :=
  h.pages ▸ coveredPages_nodup location length

theorem holds_iff (h : Opened m location length w) (hclear : ClearOfEnd location length)
    {page : Address} : w.Holds page ↔ Covers location length page := by
  rw [Holds, h.pages, hclear.mem_coveredPages_iff]

theorem not_holds_lastPage (h : Opened m location length w) : ¬ w.Holds lastPage := by
  rw [Holds, h.pages]
  exact lastPage_not_mem_pagesBetween _ _

/-- Next to the end of the address space the window does not hold all pages of its range: the last
one is missing. -/
theorem holds_covers_iff (h : Opened m location length w) :
    (∀ page, w.Holds page ↔ Covers location length page) ↔ ClearOfEnd location length := by
  refine ⟨fun hexact => ?_, fun hclear page => h.holds_iff hclear⟩
  refine Classical.byContradiction fun hclear => ?_
  exact h.not_holds_lastPage ((hexact lastPage).mpr (covers_lastPage_iff.mpr hclear))

theorem refuses_iff_gone (h : Opened m location length w) (gone : List Address) {s : Saved}
    (hs : s ∈ w.pages) :
    ((openAt location length m).state.unmapAll gone).Refuses s ↔ s.page ∈ gone := by
  have hlifted := m.page_lifted_of_mem (List.mem_map_of_mem (f := Saved.page) hs)
  rw [Memory.Refuses, Memory.page_unmapAll, h.state, hlifted]
  split
  · rename_i hgone
    exact iff_of_true rfl hgone
  · rename_i hgone
    exact iff_of_false nofun hgone

/-- Closing gives back the memory from before the window, without the pages that are gone. -/
theorem restore_gone (h : Opened m location length w) (gone : List Address) :
    (Memory.restore w.pages ((openAt location length m).state.unmapAll gone)).1
      = m.unmapAll gone := by
  refine Memory.eq_of_byte_page ?_ fun x => ?_
  · rw [Memory.byte_restore, Memory.byte_unmapAll, Memory.byte_unmapAll, h.state]
    rfl
  · by_cases hx : x ∈ w.pages.map Saved.page
    · obtain ⟨s, hs, rfl⟩ := List.mem_map.mp hx
      rw [Memory.page_restore h.nodup hs, Memory.page_unmapAll, Memory.page_unmapAll, h.state,
        m.page_lifted_of_mem hx, h.mapped s hs]
      split
      · rfl
      · rfl
    · rw [Memory.page_restore_of_not_mem hx, Memory.page_unmapAll, Memory.page_unmapAll, h.state,
        m.page_lifted_of_not_mem hx]

end Opened

/-! ## Closing and releasing -/

theorem close_eq (w : Window) (m : Memory) :
    w.close m = .pure ((Memory.restore w.pages m).2.elim (.ok ()) .error)
      (Memory.restore w.pages m).1 := by
  rw [close]
  split
  · rename_i h
    rw [h]
    rfl
  · rename_i h
    rw [h]
    rfl

theorem state_close (w : Window) (m : Memory) :
    (w.close m).state = (Memory.restore w.pages m).1 := by
  rw [close_eq, Effect.state_pure]

theorem close_eq_ok_iff {w : Window} {m : Memory} :
    (w.close m).answer = .ok () ↔ (Memory.restore w.pages m).2 = none := by
  rw [close_eq, Effect.answer_pure]
  cases (Memory.restore w.pages m).2 with
  | none => exact iff_of_true rfl rfl
  | some page => exact iff_of_false nofun nofun

theorem close_eq_error_iff {w : Window} {m : Memory} {page : Address} :
    (w.close m).answer = .error page ↔ (Memory.restore w.pages m).2 = some page := by
  rw [close_eq, Effect.answer_pure]
  cases (Memory.restore w.pages m).2 with
  | none => exact iff_of_false nofun nofun
  | some other => rw [Option.elim_some, Except.error.injEq, Option.some.injEq]

theorem state_release (w : Window) (m : Memory) : (w.release m).state = (w.close m).state := by
  rw [release, Effect.state_andThen]
  split
  · rfl
  · rfl

/-- What closing leaves of a window: none of its pages is left in it. -/
def emptied : Window := ⟨[]⟩

theorem close_then_release (w : Window) (m : Memory) :
    ((w.close m).andThen fun answer after => (emptied.release after).map fun _ => answer)
      = w.close m := by
  rw [close_eq]
  rfl

/-- **A window gives back every page that is still there.**  For every memory, every range over
which a window opens, and every set of pages that go away while it is open:

    while it is open     its pages are readable, writable and executable, the others as before
    once it is closed    every page that is not gone is as it was before the window
    the answer           success if no page of the window is gone, else the lowest that is

Releasing the window instead leaves the same memory, and releasing it after it was closed does
nothing.  Its pages are those with a byte of the range exactly if none of these bytes lies on the
last page of the address space: that page is in no window, and so it is neither switched nor missed
when it is gone. -/
theorem gives_back_what_is_left [Paging] (h : (openAt location length m).answer = .ok w)
    (gone : List Address) :
    let inside := (openAt location length m).state.unmapAll gone
    (∀ page, inside.page page
        = if page ∈ gone then .unmapped else if w.Holds page then .mapped .full else m.page page)
    ∧ (∀ page, (w.close inside).state.page page
        = if page ∈ gone then .unmapped else m.page page)
    ∧ ((w.close inside).answer = .ok () ↔ ∀ page, w.Holds page → page ∉ gone)
    ∧ (∀ page, (w.close inside).answer = .error page
        ↔ w.Holds page ∧ page ∈ gone ∧ ∀ other, w.Holds other → other ∈ gone → page ≤ other)
    ∧ (w.release inside).state = (w.close inside).state
    ∧ ((w.close inside).andThen fun answer after => (emptied.release after).map fun _ => answer)
        = w.close inside
    ∧ ((∀ page, w.Holds page ↔ Covers location length page) ↔ ClearOfEnd location length)
    ∧ ¬ w.Holds lastPage := by
  intro inside
  have hopened := opened_of_ok h
  have hrefuses : ∀ s ∈ w.pages, (inside.Refuses s ↔ s.page ∈ gone) := fun s hs =>
    hopened.refuses_iff_gone gone hs
  refine ⟨fun page => ?_, fun page => ?_, ?_, fun page => ?_, state_release w inside,
    close_then_release w inside, hopened.holds_covers_iff, hopened.not_holds_lastPage⟩
  · rw [Memory.page_unmapAll, hopened.state]
    rfl
  · rw [state_close, hopened.restore_gone, Memory.page_unmapAll]
  · have hpages : (∀ page, w.Holds page → page ∉ gone) ↔ ∀ s ∈ w.pages, s.page ∉ gone :=
      List.forall_mem_map
    rw [close_eq_ok_iff, Memory.restore_eq_none_iff hopened.nodup, hpages]
    exact forall₂_congr fun s hs => not_congr (hrefuses s hs)
  · rw [close_eq_error_iff, Memory.restore_eq_some_iff hopened.ascending]
    constructor
    · rintro ⟨s, hs, rfl, hgone, hlowest⟩
      refine ⟨List.mem_map_of_mem hs, (hrefuses s hs).mp hgone, fun other hother hgone' => ?_⟩
      obtain ⟨t, ht, rfl⟩ := List.mem_map.mp hother
      exact hlowest t ht ((hrefuses t ht).mpr hgone')
    · rintro ⟨hholds, hgone, hlowest⟩
      obtain ⟨s, hs, rfl⟩ := List.mem_map.mp hholds
      exact ⟨s, hs, rfl, (hrefuses s hs).mpr hgone, fun t ht hgone' =>
        hlowest t.page (List.mem_map_of_mem ht) ((hrefuses t ht).mp hgone')⟩

/-- Three pages, and the first two go away together with one that is not in the window.  The first
is named, and the third has its protection back. -/
theorem gives_back_what_is_left_behind_gaps :
    let code : Protection := ⟨true, false, true⟩
    let m : Memory := ⟨fun _ => 0, fun x => if x < 0x5000 then .mapped code else .unmapped⟩
    let w : Window := ⟨[⟨0x1000, code⟩, ⟨0x2000, code⟩, ⟨0x3000, code⟩]⟩
    let inside := (openAt 0x1FFE 0x1003 m).state.unmapAll [0x2000, 0x4000, 0x1000]
    (openAt 0x1FFE 0x1003 m).answer = .ok w
      ∧ inside.page 0x3000 = .mapped .full
      ∧ (w.close inside).answer = .error 0x1000
      ∧ (w.close inside).state.page 0x3000 = .mapped code
      ∧ (w.close inside).state.page 0x4000 = .unmapped
      ∧ (w.release inside).state.page 0x3000 = .mapped code := by
  intro code m w inside
  have hopen : (openAt 0x1FFE 0x1003 m).answer = .ok w := rfl
  obtain ⟨hinside, hafter, -, herror, hrelease, -⟩ :=
    gives_back_what_is_left hopen [0x2000, 0x4000, 0x1000]
  refine ⟨hopen, hinside 0x3000, (herror 0x1000).mpr ⟨by decide, by decide, ?_⟩, hafter 0x3000,
    hafter 0x4000, ?_⟩
  · intro other hholds _
    obtain rfl | rfl | rfl : other = 0x1000 ∨ other = 0x2000 ∨ other = 0x3000 := by
      simpa [Holds, w] using hholds
    · decide
    · decide
    · decide
  · rw [hrelease]
    exact hafter 0x3000

/-- Sixteen bytes on the last page: the window opens without it.  Inside, the page keeps its
protection, and once it is gone the window closes as if nothing were missing. -/
theorem closes_without_last_page :
    let code : Protection := ⟨true, false, true⟩
    let m : Memory := ⟨fun _ => 0, fun _ => .mapped code⟩
    let w : Window := ⟨[]⟩
    let inside := (openAt 0xFFFFFFFFFFFFF010 16 m).state
    (openAt 0xFFFFFFFFFFFFF010 16 m).answer = .ok w
      ∧ Covers 0xFFFFFFFFFFFFF010 16 0xFFFFFFFFFFFFF000
      ∧ inside.page 0xFFFFFFFFFFFFF000 = .mapped code
      ∧ (inside.unmapAll [0xFFFFFFFFFFFFF000]).page 0xFFFFFFFFFFFFF000 = .unmapped
      ∧ (w.close (inside.unmapAll [0xFFFFFFFFFFFFF000])).answer = .ok () := by
  intro code m w inside
  exact ⟨rfl, ⟨0, by decide, by decide⟩, rfl, rfl, rfl⟩

end Window
end Hotswap
