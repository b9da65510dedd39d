import Mathlib.Algebra.Group.Nat.Defs
import Hotswap.Proofs.Machine.RoundTrip
import Hotswap.Proofs.Memory.Install
import Hotswap.Proofs.Session.Apply

/-!
# A redirected function is redirected whole

`Writer.redirect` over live memory can fail in three places, one after the other: the two functions
are one, there is no trampoline to the destination, a page under the entry of the source stands in
the way.  All three lie before the first byte is written (`Hindrance`), and behind them nothing can
fail.  So there is no state in between, however the entry lies over its pages:

    a hindrance        its error, and the memory as it was
    none               the bytes of the trampoline over the entry, and nothing else is different
-/

namespace Hotswap

open Machine (Address Arch)

/-- What hinders the function at `source` from being redirected to `destination`, with its error.
Of several hindrances the first of this list counts. -/
inductive Hindrance [Paging] (arch : Arch) (m : Memory) (source destination : Address) :
    RedirectError (WindowError Empty) → Prop
  | same : source = destination → Hindrance arch m source destination (.sameAddress source)
  | unreachable : source ≠ destination → 2 ^ arch.bits ≤ destination.toNat →
      Hindrance arch m source destination (.code (.outOfRange arch destination))
  | obstacle {page : Address} : source ≠ destination → destination.toNat < 2 ^ arch.bits →
      m.FirstObstacle source arch.trampolineLength page →
      Hindrance arch m source destination (.write (.refused page))

/-- Nothing hinders a redirection: there are two functions, the destination is an address of the
instruction set, and no page under the trampoline is missing or sealed. -/
structure Unhindered [Paging] (arch : Arch) (m : Memory) (source destination : Address) :
    Prop where
  differ : source ≠ destination
  reachable : destination.toNat < 2 ^ arch.bits
  mapped : ∀ page, Covers source arch.trampolineLength page → ∃ p, m.page page = .mapped p

section
variable [Paging] {arch : Arch} {m : Memory} {source destination : Address}

theorem Hindrance.not_unhindered {cause : RedirectError (WindowError Empty)}
    (h : Hindrance arch m source destination cause) : ¬ Unhindered arch m source destination := by
  intro hfree
  cases h with
  | same heq => exact hfree.differ heq
  | unreachable _ hbeyond => exact Nat.not_lt.mpr hbeyond hfree.reachable
  | obstacle _ _ hobstacle =>
      obtain ⟨page, hcovers, hpage⟩ := hobstacle.exists_not_mapped
      obtain ⟨p, hp⟩ := hfree.mapped page hcovers
      exact hpage p hp

theorem Writer.redirect_live_outcome (m : Memory) (destination : Address)
    (h : ClearOfEnd source arch.trampolineLength) :
    let e := bytes.windowed.redirect arch.trampoline source destination m
    (Unhindered arch m source destination ∧ e.answer = .ok ()
      ∧ ∃ code, arch.trampoline destination = .ok code ∧ e.state = m.store source code)
    ∨ ∃ cause, Hindrance arch m source destination cause ∧ e.answer = .error cause
      ∧ e.state = m := by
  intro e
  by_cases hsame : source = destination
  · have he : e = .pure (.error (.sameAddress source)) m := if_pos hsame
    exact .inr ⟨_, .same hsame, by rw [he]; rfl, by rw [he]; rfl⟩
  cases hcode : arch.trampoline destination with
  | error cause =>
      have he : e = .pure (.error (.code cause)) m := by
        simp only [e, redirect, if_neg hsame, hcode]
      have hbeyond := Arch.trampoline_error_iff.mp ⟨cause, hcode⟩
      cases (Arch.trampoline_of_le hbeyond).symm.trans hcode
      rw [arch.addressCount_eq_two_pow] at hbeyond
      exact .inr ⟨_, .unreachable hsame hbeyond, by rw [he]; rfl, by rw [he]; rfl⟩
  | ok code =>
      have hreachable := Arch.trampoline_ok_iff.mp ⟨code, hcode⟩
      rw [arch.addressCount_eq_two_pow] at hreachable
      obtain ⟨hanswer, hstate, -⟩ :=
        bytes.windowed.redirect_of_code (s := m) hsame hcode
      have hlength := Arch.length_of_trampoline hcode
      rw [← hlength] at h
      rcases Window.openAt_outcome (m := m) h with ⟨hmapped, -⟩ | ⟨page, hobstacle, hopen⟩
      · obtain ⟨hok, hstore⟩ := Memory.install_of_mapped h hmapped
        rw [Memory.install] at hok hstore
        rw [hok] at hanswer
        rw [hlength] at hmapped
        exact .inl ⟨⟨hsame, hreachable, hmapped⟩, hanswer, code, rfl, hstate.trans hstore⟩
      · have hrefused : bytes.windowed.write source code m = .pure (.error (.refused page)) m :=
          windowed_of_refused hopen
        rw [hrefused] at hanswer hstate
        rw [hlength] at hobstacle
        exact .inr ⟨_, .obstacle hsame hreachable hobstacle, hanswer, hstate⟩

/-- **A redirection is whole or leaves no trace.**  For every instruction set, every memory, and
every source whose entry keeps away from the end of the address space: redirecting succeeds exactly
if nothing hinders it.  Then the entry reads as the trampoline to the destination, and every other
byte and every page is as before.  If it fails, the first hindrance is answered, and the memory is
the one before. -/
theorem Writer.redirect_whole_or_untouched (arch : Arch) (m : Memory) (source destination : Address)
    (h : ClearOfEnd source arch.trampolineLength) :
    let e := bytes.windowed.redirect arch.trampoline source destination m
    (e.answer = .ok () ↔ Unhindered arch m source destination)
    ∧ (e.answer = .ok () →
      arch.target (e.state.load source arch.trampolineLength) = .ok destination
      ∧ (∀ x, ¬ Spans source arch.trampolineLength x → e.state.byte x = m.byte x)
      ∧ e.state.page = m.page)
    ∧ ∀ cause, e.answer = .error cause →
      e.state = m ∧ Hindrance arch m source destination cause := by
  intro e
  rcases redirect_live_outcome m destination h with
    ⟨hfree, hanswer, code, hcode, hstate⟩ | ⟨cause, hhinders, hanswer, hstate⟩
  · have hlength := Arch.length_of_trampoline hcode
    have hfits : code.length ≤ UInt64.size := hlength ▸ h.length_le
    refine ⟨iff_of_true hanswer hfree, fun _ => ?_, fun cause herror => ?_⟩
    · rw [hstate, ← hlength, Memory.load_store hfits]
      exact ⟨Arch.target_of_trampoline hcode, fun x hx => Memory.byte_store_of_not_spans hx, rfl⟩
    · cases hanswer.symm.trans herror
  · have hnot : e.answer ≠ .ok () := by
      intro hok
      cases hanswer.symm.trans hok
    refine ⟨iff_of_false hnot hhinders.not_unhindered, fun hok => absurd hok hnot,
      fun other herror => ?_⟩
    cases hanswer.symm.trans herror
    exact ⟨hstate, hhinders⟩

end

/-- Eight bytes are left on the page, and the next page is sealed.  A trampoline of seven bytes is
written; one of thirteen is refused for the sealed page, and the eight bytes stay as they are. -/
theorem Writer.redirect_whole_or_untouched_at_page_end :
    let m : Memory := ⟨fun _ => 0x90, fun x => if x = 0x1000 then .mapped ⟨true, false, true⟩
      else .sealed ⟨true, false, false⟩⟩
    let short := bytes.windowed.redirect (Arch.trampoline .x86) 0x1FF8 0x7000 m
    let long := bytes.windowed.redirect (Arch.trampoline .x64) 0x1FF8 0x7000 m
    short.answer = .ok ()
      ∧ Arch.target .x86 (short.state.load 0x1FF8 7) = .ok 0x7000
      ∧ short.state.page = m.page
      ∧ long.answer = .error (.write (.refused 0x2000))
      ∧ long.state = m := by
  intro m short long
  obtain ⟨hiff, hwhole, -⟩ :=
    redirect_whole_or_untouched .x86 m 0x1FF8 0x7000 (by decide)
  obtain ⟨-, -, huntouched⟩ := redirect_whole_or_untouched .x64 m 0x1FF8 0x7000 (by decide)
  have hpage : ∀ i < Arch.trampolineLength .x86, pageFloor (0x1FF8 + UInt64.ofNat i) = 0x1000 := by
    decide
  have hshort : short.answer = .ok () := hiff.mpr ⟨by decide, by decide,
    fun page ⟨i, hi, hcovers⟩ => ⟨⟨true, false, true⟩, if_pos (hcovers.symm.trans (hpage i hi))⟩⟩
  have hlong : long.answer = .error (.write (.refused 0x2000)) := rfl
  exact ⟨hshort, (hwhole hshort).1, (hwhole hshort).2.2, hlong, (huntouched _ hlong).1⟩

end Hotswap
