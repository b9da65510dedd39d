import Hotswap.Proofs.Memory.Install

/-!
# Installs that share no byte

Two calls of `Memory.install` may work on the same pages, and then the window of one is opened over
pages that the other has opened and closed before.  What a call answers depends on the pages, and it
leaves every page as it found it, whether it succeeds or is refused halfway and puts back what it
lifted (`page_install`).  So each call answers as it would alone.  What is left are the bytes, and
stores to ranges that share none can be exchanged (`store_comm`).
-/

namespace Hotswap

open Machine (Address)

namespace Memory

section
variable {m : Memory} {first second : Address} {xs ys : List UInt8}

theorem store_comm (h : ∀ x, ¬ (Spans first xs.length x ∧ Spans second ys.length x))
    (m : Memory) :
    (m.store first xs).store second ys = (m.store second ys).store first xs := by
  refine eq_of_byte_page (funext fun x => ?_) fun x => rfl
  by_cases hfirst : Spans first xs.length x
  · have hsecond : ¬ Spans second ys.length x := fun hsecond => h x ⟨hfirst, hsecond⟩
    rw [byte_store_of_not_spans hsecond, byte_store, byte_store, byte_store_of_not_spans hsecond]
  · rw [byte_store, byte_store_of_not_spans hfirst, byte_store_of_not_spans hfirst, byte_store]

variable [Paging]

theorem load_install (hlength : xs.length ≤ UInt64.size)
    (h : (m.install first xs).answer = .ok ()) :
    (m.install first xs).state.load first xs.length = xs := by
  rw [state_install, h]
  exact load_store hlength

theorem byte_install_of_not_spans {x : Address} (h : ¬ Spans first xs.length x) :
    (m.install first xs).state.byte x = m.byte x := by
  rw [state_install]
  split
  · exact byte_store_of_not_spans h
  · rfl

/-- The memory behind both calls.  Only where both succeed does it matter that they are apart. -/
theorem state_install_comm (h : ∀ x, ¬ (Spans first xs.length x ∧ Spans second ys.length x))
    (m : Memory) :
    ((m.install first xs).state.install second ys).state
      = ((m.install second ys).state.install first xs).state := by
  have hfirst := answer_install_congr (m.page_install second ys) first xs
  have hsecond := answer_install_congr (m.page_install first xs) second ys
  rw [state_install (m.install first xs).state, hsecond, state_install (m.install second ys).state,
    hfirst, state_install m first, state_install m second]
  cases (m.install first xs).answer with
  | ok _ =>
      cases (m.install second ys).answer with
      | ok _ => exact store_comm h m
      | error _ => rfl
  | error _ => rfl

end

/-- **Installs that share no byte commute.**  Let `a` and `b` be two calls, each made alone, and
`ab`, `ba` the second call of the two orders:

* each call answers in either order what it answers alone, also if it names a page that stands in
  its way;
* the memory behind both calls is the same, its bytes and its pages;
* there every page is as before, the range of each call that succeeded holds its bytes, and all
  bytes outside the two ranges are as before. -/
theorem installs_commute [Paging] (m : Memory) {first second : Address} {xs ys : List UInt8}
    (hfirst : ClearOfEnd first xs.length) (hsecond : ClearOfEnd second ys.length)
    (hapart : ∀ x, ¬ (Spans first xs.length x ∧ Spans second ys.length x)) :
    let a := m.install first xs
    let b := m.install second ys
    let ab := a.state.install second ys
    let ba := b.state.install first xs
    ba.answer = a.answer
    ∧ ab.answer = b.answer
    ∧ ab.state = ba.state
    ∧ ab.state.page = m.page
    ∧ (a.answer = .ok () → ab.state.load first xs.length = xs)
    ∧ (b.answer = .ok () → ab.state.load second ys.length = ys)
    ∧ ∀ x, ¬ Spans first xs.length x → ¬ Spans second ys.length x →
        ab.state.byte x = m.byte x := by
  intro a b ab ba
  have ha : ba.answer = a.answer := answer_install_congr (m.page_install second ys) first xs
  have hb : ab.answer = b.answer := answer_install_congr (m.page_install first xs) second ys
  have hstate : ab.state = ba.state := state_install_comm hapart m
  refine ⟨ha, hb, hstate, ?_, fun hok => ?_, fun hok => ?_, fun x hx hx' => ?_⟩
  · rw [page_install, page_install]
  · rw [hstate]
    exact load_install hfirst.length_le (ha.trans hok)
  · exact load_install hsecond.length_le (hb.trans hok)
  · rw [byte_install_of_not_spans hx', byte_install_of_not_spans hx]

/-- Both ranges lie on one page.  The second goes on to a sealed page, so its window over the shared
page is opened and taken back; the first is written whether that was before or comes after. -/
theorem installs_commute_beside_sealed :
    let m : Memory := ⟨fun _ => 0, fun x => if x = 0x1000 then .mapped ⟨true, false, true⟩
      else .sealed ⟨true, false, false⟩⟩
    let a := m.install 0x1FF0 [1, 2]
    let b := m.install 0x1FFE [3, 4, 5]
    a.answer = .ok () ∧ b.answer = .error (.refused 0x2000)
      ∧ (b.state.install 0x1FF0 [1, 2]).answer = .ok ()
      ∧ (a.state.install 0x1FFE [3, 4, 5]).answer = .error (.refused 0x2000)
      ∧ (a.state.install 0x1FFE [3, 4, 5]).state = (b.state.install 0x1FF0 [1, 2]).state
      ∧ (a.state.install 0x1FFE [3, 4, 5]).state.load 0x1FF0 2 = [1, 2] := by
  intro m a b
  let xs : List UInt8 := [1, 2]
  let ys : List UInt8 := [3, 4, 5]
  have hfirst : ClearOfEnd 0x1FF0 xs.length := by decide
  have hsecond : ClearOfEnd 0x1FFE ys.length := by decide
  have hapart : ∀ x, ¬ (Spans 0x1FF0 xs.length x ∧ Spans 0x1FFE ys.length x) := by
    rintro x ⟨hx, hx'⟩
    have hbelow := hfirst.spans_iff.mp hx
    have habove := hsecond.spans_iff.mp hx'
    have hlow : (0x1FF0 : Address).toNat + xs.length = 0x1FF2 := rfl
    have hhigh : (0x1FFE : Address).toNat = 0x1FFE := rfl
    omega
  have ha : a.answer = .ok () := rfl
  have hb : b.answer = .error (.refused 0x2000) := rfl
  obtain ⟨hba, hab, hstate, -, hload, -⟩ := installs_commute m hfirst hsecond hapart
  exact ⟨ha, hb, hba.trans ha, hab.trans hb, hstate, hload ha⟩

end Memory
end Hotswap
