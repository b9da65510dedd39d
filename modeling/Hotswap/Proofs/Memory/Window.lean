import Hotswap.Memory.Window

/-!
# What opening and closing a window does

Opening reads out every page, then lifts one page after the other, and at the first page that
refuses puts those back that it has lifted.  So there are three outcomes, decided by the states that
the pages have before:

    all pages mapped                        the window opens on the memory with these pages lifted
    some page not there                     the first such page is named, nothing was changed
    all there, some sealed                  the first such page is named, nothing was changed

`restore` goes through all pages whatever happens; page by page it does what `protect` does there
(`page_restore`), which needs that no page comes twice.
-/

namespace Hotswap

open Machine (Address)

namespace Memory

variable {m : Memory}

/-- The memory with the given pages readable, writable and executable. -/
def lifted (m : Memory) (pages : List Address) : Memory :=
  { m with page := fun x => if x ∈ pages then .mapped .full else m.page x }

theorem page_lifted_of_mem {pages : List Address} {x : Address} (h : x ∈ pages) :
    (m.lifted pages).page x = .mapped .full := if_pos h

theorem page_lifted_of_not_mem {pages : List Address} {x : Address} (h : x ∉ pages) :
    (m.lifted pages).page x = m.page x := if_neg h

theorem eq_of_byte_page {m' : Memory} (hbyte : m.byte = m'.byte)
    (hpage : ∀ x, m.page x = m'.page x) : m = m' := by
  cases m
  cases m'
  simp only [mk.injEq]
  exact ⟨hbyte, funext hpage⟩

theorem mapped_setPage {start x : Address} {p : Protection} (h : ∃ q, m.page x = .mapped q) :
    ∃ q, (m.setPage start (.mapped p)).page x = .mapped q := by
  rw [page_setPage]
  split
  · exact ⟨p, rfl⟩
  · exact h

theorem protect_of_mapped {start : Address} {p q : Protection} (h : m.page start = .mapped q) :
    m.protect start p = some (m.setPage start (.mapped p)) := by
  simp only [protect, h, Page.protect, Option.map_some]

/-! ## Reading out the protections -/

/-- `saved` are the given pages, each with the protection that it has in `m`. -/
def Recorded (m : Memory) (pages : List Address) (saved : List Saved) : Prop :=
  saved.map Saved.page = pages ∧ ∀ s ∈ saved, (m.page s.page).protection? = some s.protection

theorem query_of_mapped {pages : List Address} (h : ∀ page ∈ pages, m.page page ≠ .unmapped) :
    ∃ saved, m.query pages = .ok saved ∧ m.Recorded pages saved := by
  induction pages with
  | nil => exact ⟨[], rfl, rfl, nofun⟩
  | cons page rest ih =>
      obtain ⟨saved, hquery, hpages, hsaved⟩ := ih fun x hx => h x (List.mem_cons_of_mem _ hx)
      cases hprotection : (m.page page).protection? with
      | none =>
          refine absurd ?_ (h page List.mem_cons_self)
          cases hpage : m.page page <;> simp_all [Page.protection?]
      | some protection =>
          refine ⟨⟨page, protection⟩ :: saved, by simp only [query, hprotection, hquery], ?_, ?_⟩
          · simp only [List.map_cons, hpages]
          · intro s hs
            rcases List.mem_cons.mp hs with rfl | hs
            · exact hprotection
            · exact hsaved s hs

theorem query_of_first_unmapped {before after : List Address} {page : Address}
    (hbefore : ∀ x ∈ before, m.page x ≠ .unmapped) (hpage : m.page page = .unmapped) :
    m.query (before ++ page :: after) = .error page := by
  induction before with
  | nil => simp only [List.nil_append, query, hpage, Page.protection?]
  | cons first before ih =>
      have htail := ih fun x hx => hbefore x (List.mem_cons_of_mem _ hx)
      cases hfirst : m.page first with
      | unmapped => exact absurd hfirst (hbefore first List.mem_cons_self)
      | mapped p => simp only [List.cons_append, query, hfirst, Page.protection?, htail]
      | sealed p => simp only [List.cons_append, query, hfirst, Page.protection?, htail]

/-! ## Putting pages back -/

theorem restore_cons (s : Saved) (rest : List Saved) :
    restore (s :: rest) m
      = ((restore rest ((m.protect s.page s.protection).getD m)).1,
        if (m.protect s.page s.protection).isSome
        then (restore rest ((m.protect s.page s.protection).getD m)).2 else some s.page) := by
  rw [restore]
  cases m.protect s.page s.protection with
  | none => rfl
  | some m' => rfl

theorem byte_protect {start : Address} {p : Protection} :
    ((m.protect start p).getD m).byte = m.byte := by
  unfold protect
  cases (m.page start).protect p with
  | none => rfl
  | some page => rfl

theorem page_protect {start : Address} {p : Protection} (x : Address) :
    ((m.protect start p).getD m).page x
      = if x = start then ((m.page start).protect p).getD (m.page start) else m.page x := by
  unfold protect
  cases (m.page start).protect p with
  | none =>
      by_cases hx : x = start
      · rw [if_pos hx, hx]; rfl
      · rw [if_neg hx]; rfl
  | some page => rfl

theorem byte_restore (saved : List Saved) : (restore saved m).1.byte = m.byte := by
  induction saved generalizing m with
  | nil => rfl
  | cons s rest ih => rw [restore_cons, ih, byte_protect]

theorem page_restore_of_not_mem {saved : List Saved} {x : Address}
    (h : x ∉ saved.map Saved.page) : (restore saved m).1.page x = m.page x := by
  induction saved generalizing m with
  | nil => rfl
  | cons s rest ih =>
      rw [List.map_cons, List.mem_cons, not_or] at h
      rw [restore_cons, ih h.2, page_protect, if_neg h.1]

/-- Restoring does to each of its pages what changing the protection of that page alone does. -/
theorem page_restore {saved : List Saved} (hnodup : (saved.map Saved.page).Nodup) {s : Saved}
    (hs : s ∈ saved) :
    (restore saved m).1.page s.page
      = ((m.page s.page).protect s.protection).getD (m.page s.page) := by
  induction saved generalizing m with
  | nil => exact absurd hs List.not_mem_nil
  | cons first rest ih =>
      rw [List.map_cons, List.nodup_cons] at hnodup
      rw [restore_cons]
      rcases List.mem_cons.mp hs with rfl | hs
      · rw [page_restore_of_not_mem hnodup.1, page_protect, if_pos rfl]
      · have hne : s.page ≠ first.page := fun h => hnodup.1 (h ▸ List.mem_map_of_mem hs)
        rw [ih hnodup.2 hs, page_protect, if_neg hne]

theorem restore_succeeds {saved : List Saved} (h : ∀ s ∈ saved, ∃ p, m.page s.page = .mapped p) :
    (restore saved m).2 = none := by
  induction saved generalizing m with
  | nil => rfl
  | cons s rest ih =>
      obtain ⟨p, hp⟩ := h s List.mem_cons_self
      rw [restore_cons, protect_of_mapped hp, Option.isSome_some, if_pos rfl, Option.getD_some]
      exact ih fun t ht => mapped_setPage (h t (List.mem_cons_of_mem _ ht))

theorem restore_lifted {pages : List Address} {saved : List Saved} (hsaved : m.Recorded pages saved)
    (hnodup : pages.Nodup) (hmapped : ∀ page ∈ pages, ∃ p, m.page page = .mapped p) :
    restore saved (m.lifted pages) = (m, none) := by
  obtain ⟨rfl, hsaved⟩ := hsaved
  refine Prod.ext (eq_of_byte_page (byte_restore saved) fun x => ?_)
    (restore_succeeds fun s hs => ?_)
  · by_cases hx : x ∈ saved.map Saved.page
    · obtain ⟨s, hs, rfl⟩ := List.mem_map.mp hx
      obtain ⟨p, hp⟩ := hmapped _ hx
      have hprotection := hsaved s hs
      rw [hp, Page.protection?, Option.some.injEq] at hprotection
      rw [page_restore hnodup hs, page_lifted_of_mem hx, hp, hprotection]
      rfl
    · rw [page_restore_of_not_mem hx, page_lifted_of_not_mem hx]
  · exact ⟨.full, page_lifted_of_mem (List.mem_map_of_mem hs)⟩

/-! ## Lifting pages -/

theorem lifted_setPage (page : Address) (pages : List Address) :
    (m.setPage page (.mapped .full)).lifted pages = m.lifted (page :: pages) := by
  refine eq_of_byte_page rfl fun x => ?_
  by_cases hpages : x ∈ pages
  · rw [page_lifted_of_mem hpages, page_lifted_of_mem (List.mem_cons_of_mem _ hpages)]
  · rw [page_lifted_of_not_mem hpages, page_setPage]
    by_cases hx : x = page
    · rw [if_pos hx, page_lifted_of_mem (hx ▸ List.mem_cons_self)]
    · rw [if_neg hx, page_lifted_of_not_mem fun h => (List.mem_cons.mp h).elim hx hpages]

theorem lift_append {before rest done : List Saved}
    (hbefore : ∀ s ∈ before, ∃ p, m.page s.page = .mapped p) :
    lift done (before ++ rest) m
      = lift (done ++ before) rest (m.lifted (before.map Saved.page)) := by
  induction before generalizing m done with
  | nil =>
      rw [List.append_nil]
      rfl
  | cons s before ih =>
      obtain ⟨p, hp⟩ := hbefore s List.mem_cons_self
      have hrest : ∀ t ∈ before, ∃ p, (m.setPage s.page (.mapped .full)).page t.page = .mapped p :=
        fun t ht => mapped_setPage (hbefore t (List.mem_cons_of_mem _ ht))
      rw [List.cons_append, lift]
      simp only [protect_of_mapped hp]
      rw [ih hrest, List.append_assoc, lifted_setPage]
      rfl

theorem lift_of_mapped {saved : List Saved} (h : ∀ s ∈ saved, ∃ p, m.page s.page = .mapped p) :
    lift [] saved m = (m.lifted (saved.map Saved.page), none) := by
  have happend : lift [] (saved ++ []) m
      = lift ([] ++ saved) [] (m.lifted (saved.map Saved.page)) := lift_append h
  rwa [List.append_nil] at happend

/-- At a sealed page lifting stops, and what was lifted is put back. -/
theorem lift_of_first_sealed {pages : List Address} {before after : List Saved} {s : Saved}
    {protection : Protection} (hsaved : m.Recorded pages (before ++ s :: after))
    (hnodup : pages.Nodup) (hbefore : ∀ t ∈ before, ∃ p, m.page t.page = .mapped p)
    (hs : m.page s.page = .sealed protection) :
    lift [] (before ++ s :: after) m = (m, some s.page) := by
  obtain ⟨rfl, hsaved⟩ := hsaved
  rw [List.map_append, List.map_cons] at hnodup
  have hnew : s.page ∉ before.map Saved.page := fun h =>
    (List.nodup_append.mp hnodup).2.2 _ h _ List.mem_cons_self rfl
  have hprotect : (m.lifted (before.map Saved.page)).protect s.page .full = none := by
    simp only [protect, page_lifted_of_not_mem hnew, hs, Page.protect, Protection.full, if_pos,
      Option.map_none]
  have hrecorded : m.Recorded (before.map Saved.page) before :=
    ⟨rfl, fun t ht => hsaved t (List.mem_append_left _ ht)⟩
  have hback := restore_lifted hrecorded (List.nodup_append.mp hnodup).1 fun page hpage => by
    obtain ⟨t, ht, rfl⟩ := List.mem_map.mp hpage
    exact hbefore t ht
  rw [lift_append hbefore, lift]
  simp only [hprotect, List.nil_append, hback]

end Memory

/-! ## Opening a window -/

namespace Window

variable [Paging] {m : Memory} {location : Address} {length : Nat}

theorem openAt_of_mapped
    (h : ∀ page ∈ coveredPages location length, ∃ p, m.page page = .mapped p) :
    ∃ saved, m.Recorded (coveredPages location length) saved
      ∧ (openAt location length m).answer = .ok ⟨saved⟩
      ∧ (openAt location length m).state = m.lifted (coveredPages location length) := by
  obtain ⟨saved, hquery, hsaved⟩ := m.query_of_mapped fun page hpage hunmapped => by
    obtain ⟨p, hp⟩ := h page hpage
    exact absurd (hp.symm.trans hunmapped) nofun
  have hlift := Memory.lift_of_mapped fun s hs => h s.page (hsaved.1 ▸ List.mem_map_of_mem hs)
  rw [hsaved.1] at hlift
  refine ⟨saved, hsaved, ?_, ?_⟩ <;> simp only [openAt, hquery, hlift]

theorem openAt_of_first_unmapped {before after : List Address} {page : Address}
    (hsplit : coveredPages location length = before ++ page :: after)
    (hbefore : ∀ x ∈ before, m.page x ≠ .unmapped) (hpage : m.page page = .unmapped) :
    openAt location length m = .pure (.error page) m := by
  simp only [openAt, hsplit, Memory.query_of_first_unmapped hbefore hpage]

theorem openAt_of_first_sealed {before after : List Address} {page : Address}
    {protection : Protection} (hnodup : (coveredPages location length).Nodup)
    (hmapped : ∀ x ∈ coveredPages location length, m.page x ≠ .unmapped)
    (hsplit : coveredPages location length = before ++ page :: after)
    (hbefore : ∀ x ∈ before, ∃ p, m.page x = .mapped p)
    (hpage : m.page page = .sealed protection) :
    openAt location length m = .pure (.error page) m := by
  obtain ⟨saved, hquery, hsaved⟩ := Memory.query_of_mapped hmapped
  obtain ⟨lifted, rest, rfl, rfl, hrest⟩ := List.map_eq_append_iff.mp (hsaved.1.trans hsplit)
  obtain ⟨s, rest, rfl, rfl, rfl⟩ := List.map_eq_cons_iff.mp hrest
  have hlift := Memory.lift_of_first_sealed hsaved hnodup
    (fun t ht => hbefore t.page (List.mem_map_of_mem ht)) hpage
  simp only [openAt, hquery, hlift]

end Window
end Hotswap
