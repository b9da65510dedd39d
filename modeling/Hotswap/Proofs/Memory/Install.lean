import Hotswap.Memory.Install
import Hotswap.Proofs.Memory.Cover
import Hotswap.Proofs.Memory.Window

/-!
# Installing is all or nothing

`Memory.install` opens a window, stores, and closes the window again.  Whether it succeeds is
decided by the pages under the range before anything is changed:

    every covered page mapped      the bytes are stored, and nothing else is different afterwards
    otherwise                      the memory is the one before, and `FirstObstacle` is named

The range must stay clear of the last page of the address space, where `coveredPages` misses pages.
-/

namespace Hotswap

open Machine (Address)

theorem Page.mapped_of_not {page : Page} (hthere : page ≠ .unmapped)
    (hopen : ¬ ∃ p, page = .sealed p) : ∃ p, page = .mapped p := by
  cases page with
  | unmapped => exact absurd rfl hthere
  | mapped p => exact ⟨p, rfl⟩
  | sealed p => exact absurd ⟨p, rfl⟩ hopen

namespace Memory

variable {m : Memory} {location : Address}

/-! ## Stored bytes -/

theorem byte_store_of_not_spans {bytes : List UInt8} {x : Address}
    (h : ¬ Spans location bytes.length x) : (m.store location bytes).byte x = m.byte x := by
  have hbeyond : bytes.length ≤ (x - location).toNat := by
    refine Nat.le_of_not_lt fun hlt => h ⟨(x - location).toNat, hlt, ?_⟩
    rw [UInt64.ofNat_toNat, UInt64.add_comm, UInt64.sub_add_cancel]
  rw [byte_store, List.getElem?_eq_none hbeyond, Option.getD_none]

theorem load_store {bytes : List UInt8} (h : bytes.length ≤ UInt64.size) :
    (m.store location bytes).load location bytes.length = bytes := by
  refine List.ext_getElem (length_load _ _ _) fun i hi hi' => ?_
  have hindex : (location + UInt64.ofNat i - location).toNat = i := by
    rw [UInt64.add_comm, UInt64.add_sub_cancel, UInt64.toNat_ofNat']
    exact Nat.mod_eq_of_lt (Nat.lt_of_lt_of_le hi' h)
  simp only [load, List.getElem_map, List.getElem_range, byte_store, hindex,
    List.getElem?_eq_getElem hi', Option.getD_some]

/-! ## What stands in the way of a window -/

/-- The lowest covered page that is not there; if all are there, the lowest that is sealed. -/
def FirstObstacle [Paging] (m : Memory) (location : Address) (length : Nat) (page : Address) : Prop :=
  (Covers location length page ∧ m.page page = .unmapped
    ∧ ∀ x, Covers location length x → m.page x = .unmapped → page ≤ x)
  ∨ ((∀ x, Covers location length x → m.page x ≠ .unmapped)
    ∧ Covers location length page ∧ (∃ p, m.page page = .sealed p)
    ∧ ∀ x, Covers location length x → (∃ p, m.page x = .sealed p) → page ≤ x)

theorem FirstObstacle.exists_not_mapped [Paging] {length : Nat} {page : Address}
    (h : m.FirstObstacle location length page) :
    ∃ x, Covers location length x ∧ ∀ p, m.page x ≠ .mapped p := by
  rcases h with ⟨hcovers, hpage, -⟩ | ⟨-, hcovers, ⟨q, hpage⟩, -⟩
  · refine ⟨page, hcovers, fun p hp => ?_⟩
    rw [hpage] at hp
    cases hp
  · refine ⟨page, hcovers, fun p hp => ?_⟩
    rw [hpage] at hp
    cases hp

end Memory

/-- Whether a window opens is decided by the pages on the list, whatever the bytes are; if it does
not, the memory stays as it is. -/
theorem Window.openAt_decided [Paging] (m : Memory) (location : Address) (length : Nat) :
    (∀ page ∈ coveredPages location length, ∃ p, m.page page = .mapped p)
    ∨ ∃ page ∈ coveredPages location length,
        ((m.page page = .unmapped
            ∧ ∀ x ∈ coveredPages location length, m.page x = .unmapped → page ≤ x)
          ∨ ((∀ x ∈ coveredPages location length, m.page x ≠ .unmapped)
            ∧ (∃ p, m.page page = .sealed p)
            ∧ ∀ x ∈ coveredPages location length, (∃ p, m.page x = .sealed p) → page ≤ x))
        ∧ ∀ m' : Memory, m'.page = m.page →
            openAt location length m' = .pure (.error page) m' := by
  have hascending := coveredPages_ascending location length
  by_cases hunmapped : ∃ x ∈ coveredPages location length, m.page x = .unmapped
  · obtain ⟨before, page, after, hsplit, hpage, hbefore, hlowest⟩ :=
      exists_lowest hascending hunmapped
    have hmem : page ∈ coveredPages location length := by
      rw [hsplit]
      exact List.mem_append_right _ List.mem_cons_self
    refine .inr ⟨page, hmem, .inl ⟨hpage, hlowest⟩, fun m' hm' => ?_⟩
    rw [← hm'] at hpage hbefore
    exact openAt_of_first_unmapped hsplit hbefore hpage
  · have hthere : ∀ x ∈ coveredPages location length, m.page x ≠ .unmapped :=
      fun x hx hxpage => hunmapped ⟨x, hx, hxpage⟩
    by_cases hsealed : ∃ x ∈ coveredPages location length, ∃ p, m.page x = .sealed p
    · obtain ⟨before, page, after, hsplit, ⟨p, hpage⟩, hbefore, hlowest⟩ :=
        exists_lowest hascending hsealed
      have hmem : page ∈ coveredPages location length := by
        rw [hsplit]
        exact List.mem_append_right _ List.mem_cons_self
      have hmapped : ∀ x ∈ before, ∃ p, m.page x = .mapped p := fun x hx =>
        Page.mapped_of_not (hthere x (hsplit ▸ List.mem_append_left _ hx)) (hbefore x hx)
      refine .inr ⟨page, hmem, .inr ⟨hthere, ⟨p, hpage⟩, hlowest⟩, fun m' hm' => ?_⟩
      rw [← hm'] at hpage hthere hmapped
      exact openAt_of_first_sealed (coveredPages_nodup location length) hthere hsplit hmapped hpage
    · exact .inl fun x hx => Page.mapped_of_not (hthere x hx) fun hx' => hsealed ⟨x, hx, hx'⟩

theorem Window.openAt_outcome [Paging] {m : Memory} {location : Address} {length : Nat}
    (h : ClearOfEnd location length) :
    ((∀ page, Covers location length page → ∃ p, m.page page = .mapped p)
      ∧ ∃ saved, m.Recorded (coveredPages location length) saved
        ∧ (openAt location length m).answer = .ok ⟨saved⟩
        ∧ (openAt location length m).state = m.lifted (coveredPages location length))
    ∨ ∃ page, m.FirstObstacle location length page
        ∧ openAt location length m = .pure (.error page) m := by
  rcases openAt_decided m location length with hmapped | ⟨page, hmem, hfirst, hopen⟩
  · exact .inl ⟨fun x hx => hmapped x (h.mem_coveredPages_iff.mpr hx), openAt_of_mapped hmapped⟩
  · refine .inr ⟨page, ?_, hopen m rfl⟩
    simp only [h.mem_coveredPages_iff] at hmem hfirst
    rcases hfirst with ⟨hpage, hlowest⟩ | ⟨hthere, hpage, hlowest⟩
    · exact .inl ⟨hmem, hpage, hlowest⟩
    · exact .inr ⟨hthere, hmem, hpage, hlowest⟩

/-! ## Writing inside a window -/

section
variable [Paging] {m : Memory} {location : Address} {bytes : List UInt8}

theorem Writer.windowed_of_refused {ε : Type} {inner : Writer Memory ε} {page : Address}
    (h : Window.openAt location bytes.length m = .pure (.error page) m) :
    inner.windowed.write location bytes m = .pure (.error (.refused page)) m := by
  simp only [windowed, Effect.andThen, h, Effect.pure, Effect.after, List.append_nil]

theorem Memory.install_of_mapped_pages
    (hmapped : ∀ page ∈ coveredPages location bytes.length, ∃ p, m.page page = .mapped p) :
    (m.install location bytes).answer = .ok ()
      ∧ (m.install location bytes).state = m.store location bytes := by
  obtain ⟨saved, hsaved, hanswer, hstate⟩ := Window.openAt_of_mapped hmapped
  -- the bytes stored inside the window are stored under the lifted protections
  have hclose : Memory.restore saved
      ((m.lifted (coveredPages location bytes.length)).store location bytes)
        = (m.store location bytes, none) :=
    restore_lifted (m := m.store location bytes) hsaved (coveredPages_nodup _ _) hmapped
  constructor
  · simp only [install, Writer.windowed, Writer.bytes, Window.close, Effect.answer_andThen, hanswer,
      hstate, Effect.answer_pure, Effect.state_pure, hclose]
    rfl
  · simp only [install, Writer.windowed, Writer.bytes, Window.close, Effect.state_andThen, hanswer,
      hstate, Effect.answer_pure, Effect.state_pure, hclose]

theorem Memory.install_of_mapped (h : ClearOfEnd location bytes.length)
    (hmapped : ∀ page, Covers location bytes.length page → ∃ p, m.page page = .mapped p) :
    (m.install location bytes).answer = .ok ()
      ∧ (m.install location bytes).state = m.store location bytes :=
  install_of_mapped_pages fun page hpage => hmapped page (h.mem_coveredPages_iff.mp hpage)

/-- Memories with the same pages answer alike, also next to the end of the address space: either
all of them store, or none changes. -/
theorem Memory.install_decided (m : Memory) (location : Address) (bytes : List UInt8) :
    (∀ m' : Memory, m'.page = m.page →
      (m'.install location bytes).answer = .ok ()
        ∧ (m'.install location bytes).state = m'.store location bytes)
    ∨ ∃ page, ∀ m' : Memory, m'.page = m.page →
        m'.install location bytes = .pure (.error (.refused page)) m' := by
  rcases Window.openAt_decided m location bytes.length with hmapped | ⟨page, -, -, hopen⟩
  · refine .inl fun m' hm' => install_of_mapped_pages ?_
    rw [hm']
    exact hmapped
  · exact .inr ⟨page, fun m' hm' => Writer.windowed_of_refused (hopen m' hm')⟩

theorem Memory.answer_install_congr {m' : Memory} (h : m'.page = m.page) (location : Address)
    (bytes : List UInt8) :
    (m'.install location bytes).answer = (m.install location bytes).answer := by
  rcases m.install_decided location bytes with hstores | ⟨page, hrefused⟩
  · rw [(hstores m' h).1, (hstores m rfl).1]
  · rw [hrefused m' h, hrefused m rfl]
    rfl

theorem Memory.state_install (m : Memory) (location : Address) (bytes : List UInt8) :
    (m.install location bytes).state
      = if (m.install location bytes).answer.isOk then m.store location bytes else m := by
  rcases m.install_decided location bytes with hstores | ⟨page, hrefused⟩
  · rw [(hstores m rfl).1, (hstores m rfl).2]
    rfl
  · rw [hrefused m rfl]
    rfl

@[simp] theorem Memory.page_install (m : Memory) (location : Address) (bytes : List UInt8) :
    (m.install location bytes).state.page = m.page := by
  rw [state_install]
  split
  · rw [page_store]
  · rfl

end

/-- **Installing, exactly**: when it succeeds, what it then changes, and what it answers and leaves
behind when it does not. -/
theorem Memory.install_all_or_nothing [Paging] (m : Memory) (location : Address)
    (bytes : List UInt8) (h : ClearOfEnd location bytes.length) :
    ((m.install location bytes).answer = .ok ()
      ↔ ∀ page, Covers location bytes.length page → ∃ p, m.page page = .mapped p)
    ∧ ((m.install location bytes).answer = .ok () →
      (m.install location bytes).state.load location bytes.length = bytes
      ∧ (∀ x, ¬ Spans location bytes.length x →
          (m.install location bytes).state.byte x = m.byte x)
      ∧ (m.install location bytes).state.page = m.page)
    ∧ ((m.install location bytes).answer ≠ .ok () →
      ∃ page, (m.install location bytes).answer = .error (.refused page)
        ∧ m.FirstObstacle location bytes.length page
        ∧ (m.install location bytes).state = m) := by
  rcases Window.openAt_outcome (m := m) h with ⟨hmapped, -⟩ | ⟨page, hobstacle, hopen⟩
  · obtain ⟨hanswer, hstate⟩ := install_of_mapped h hmapped
    refine ⟨⟨fun _ => hmapped, fun _ => hanswer⟩, fun _ => ?_, fun hfail => absurd hanswer hfail⟩
    rw [hstate]
    exact ⟨load_store h.length_le, fun x hx => byte_store_of_not_spans hx, rfl⟩
  · have hinstall : m.install location bytes = .pure (.error (.refused page)) m :=
      Writer.windowed_of_refused hopen
    have hnot : (m.install location bytes).answer ≠ .ok () := by
      rw [hinstall]
      intro hok
      cases hok
    refine ⟨⟨fun hok => absurd hok hnot, fun hmapped => ?_⟩, fun hok => absurd hok hnot,
      fun _ => ?_⟩
    · obtain ⟨x, hcovers, hx⟩ := hobstacle.exists_not_mapped
      obtain ⟨p, hp⟩ := hmapped x hcovers
      exact absurd hp (hx p)
    · exact ⟨page, by rw [hinstall]; rfl, hobstacle, by rw [hinstall]; rfl⟩

/-- Up to the last byte of a mapped page, and one byte further onto a sealed one. -/
theorem Memory.install_beside_sealed :
    let m : Memory := ⟨fun _ => 0, fun x => if x = 0x1000 then .mapped ⟨true, false, true⟩
      else .sealed ⟨true, false, false⟩⟩
    (m.install 0x1FFE [1, 2]).answer = .ok ()
      ∧ (m.install 0x1FFE [1, 2]).state.load 0x1FFE 2 = [1, 2]
      ∧ (m.install 0x1FFE [1, 2, 3]).answer ≠ .ok ()
      ∧ (m.install 0x1FFE [1, 2, 3]).state = m := by
  intro m
  have hshort : ClearOfEnd 0x1FFE [1, 2].length := by decide
  have hlong : ClearOfEnd 0x1FFE [1, 2, 3].length := by decide
  obtain ⟨hiff, hok, -⟩ := install_all_or_nothing m 0x1FFE [1, 2] hshort
  obtain ⟨hiff', -, hfail⟩ := install_all_or_nothing m 0x1FFE [1, 2, 3] hlong
  have hpage : ∀ i < [1, 2].length, pageFloor (0x1FFE + UInt64.ofNat i) = 0x1000 := by decide
  have hanswer := hiff.mpr fun page ⟨i, hi, hcovers⟩ =>
    ⟨⟨true, false, true⟩, if_pos (hcovers.symm.trans (hpage i hi))⟩
  have hnot : (m.install 0x1FFE [1, 2, 3]).answer ≠ .ok () := by
    intro h
    obtain ⟨p, hp⟩ := hiff'.mp h 0x2000 ⟨2, by decide, by decide⟩
    exact absurd hp nofun
  obtain ⟨-, -, -, hstate⟩ := hfail hnot
  exact ⟨hanswer, (hok hanswer).1, hnot, hstate⟩

end Hotswap
