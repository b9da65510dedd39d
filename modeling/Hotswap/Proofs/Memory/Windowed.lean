import Hotswap.Proofs.Memory.Closing

/-!
# What the answer of a write inside a window tells

`Writer.windowed` calls a writer between opening a window and closing it, and all three can fail.
One error is answered:

    no window                          refused, and the inner writer is not called
    a page refuses to be put back      unrestored, whatever the inner writer answered
    every page is back                 the answer of the inner writer

The first and the last row tell how far the write got.  The second tells it of the pages only: where
the inner writer refused as well, its error is lost, and the answer is the one for bytes that were
written (`unrestored_hides_refusal`).

Nothing is assumed of the inner writer.  It may change bytes and pages as it likes; what it leaves
is the memory in which closing starts.
-/

namespace Hotswap

open Machine (Address)

variable {ε : Type}

/-! ## Two errors, one answer -/

/-- The answer of a write in a window, from that of the inner writer and the first page that is not
back. -/
def WindowError.choose (answer : Except ε Unit) : Option Address → Except (WindowError ε) Unit
  | some page => .error (.unrestored page)
  | none => answer.mapError .inner

namespace WindowError

variable {answer : Except ε Unit} {unrestored : Option Address}

theorem choose_eq_ok_iff :
    choose answer unrestored = .ok () ↔ answer = .ok () ∧ unrestored = none := by
  cases unrestored with
  | some page => exact iff_of_false (fun h => by cases h) fun h => by cases h.2
  | none =>
      cases answer with
      | ok _ => exact iff_of_true rfl ⟨rfl, rfl⟩
      | error cause => exact iff_of_false (fun h => by cases h) fun h => by cases h.1

theorem choose_eq_inner_iff {cause : ε} :
    choose answer unrestored = .error (.inner cause)
      ↔ answer = .error cause ∧ unrestored = none := by
  cases unrestored with
  | some page => exact iff_of_false (fun h => by cases h) fun h => by cases h.2
  | none =>
      cases answer with
      | ok _ => exact iff_of_false (fun h => by cases h) fun h => by cases h.1
      | error other =>
          constructor
          · intro h
            cases h
            exact ⟨rfl, rfl⟩
          · rintro ⟨h, -⟩
            cases h
            rfl

theorem choose_eq_unrestored_iff {page : Address} :
    choose answer unrestored = .error (.unrestored page) ↔ unrestored = some page := by
  cases unrestored with
  | some other => rw [choose, Except.error.injEq, WindowError.unrestored.injEq, Option.some.injEq]
  | none =>
      cases answer with
      | ok _ => exact iff_of_false (fun h => by cases h) fun h => by cases h
      | error cause => exact iff_of_false (fun h => by cases h) fun h => by cases h

theorem choose_ne_refused {page : Address} :
    choose answer unrestored ≠ .error (.refused page) := by
  intro h
  cases unrestored with
  | some other => cases h
  | none =>
      cases answer with
      | ok _ => cases h
      | error cause => cases h

end WindowError

/-! ## Behind an open window -/

namespace Writer

theorem windowed_of_opened [Paging] (inner : Writer Memory ε) {m : Memory} {location : Address}
    {bytes : List UInt8} {w : Window}
    (h : (Window.openAt location bytes.length m).answer = .ok w) :
    let written := inner.write location bytes (Window.openAt location bytes.length m).state
    (inner.windowed.write location bytes m).answer
        = WindowError.choose written.answer (Memory.restore w.pages written.state).2
      ∧ (inner.windowed.write location bytes m).state
        = (Memory.restore w.pages written.state).1 := by
  intro written
  have hclose := w.close_eq written.state
  simp only [windowed, Effect.answer_andThen, Effect.state_andThen, h]
  rw [show w.close (inner.write location bytes (Window.openAt location bytes.length m).state).state
    = _ from hclose]
  cases (Memory.restore w.pages written.state).2 with
  | none => exact ⟨rfl, rfl⟩
  | some page => exact ⟨rfl, rfl⟩

/-- **How far a write in a window got, by its answer.**  For every inner writer, whatever it does to
bytes and pages and whatever it answers:

    refused page       no window opens, for the sake of that page; nothing happened, the inner
                       writer was not called
    inner cause        it was called and refused for that cause, and no page refuses
    success            it was called and accepted, and no page refuses
    unrestored page    it was called, and that is the lowest page that refuses

A page that refuses stays as the inner writer left it, and one that does not has its protection
back.  The last answer says nothing about that of the inner writer. -/
theorem windowed_tells_how_far [Paging] (inner : Writer Memory ε) (m : Memory)
    (location : Address) (bytes : List UInt8) :
    let opened := Window.openAt location bytes.length m
    let written := inner.write location bytes opened.state
    let e := inner.windowed.write location bytes m
    (∀ page, e.answer = .error (.refused page) ↔ opened.answer = .error page)
    ∧ (∀ page, opened.answer = .error page → e = .pure (.error (.refused page)) m)
    ∧ ∀ w, opened.answer = .ok w →
      (∀ cause, e.answer = .error (.inner cause)
        ↔ written.answer = .error cause ∧ ∀ s ∈ w.pages, ¬ written.state.Refuses s)
      ∧ (e.answer = .ok ()
        ↔ written.answer = .ok () ∧ ∀ s ∈ w.pages, ¬ written.state.Refuses s)
      ∧ (∀ page, e.answer = .error (.unrestored page)
        ↔ ∃ s ∈ w.pages, s.page = page ∧ written.state.Refuses s
          ∧ ∀ t ∈ w.pages, written.state.Refuses t → page ≤ t.page)
      ∧ ∀ s ∈ w.pages, m.page s.page = .mapped s.protection
        ∧ (written.state.Refuses s → e.state.page s.page = written.state.page s.page)
        ∧ (¬ written.state.Refuses s →
            (e.state.page s.page).protection? = some s.protection) := by
  intro opened written e
  have hrefused : ∀ page, opened.answer = .error page → e = .pure (.error (.refused page)) m :=
    fun page hopen => windowed_of_refused (Window.openAt_of_error hopen)
  refine ⟨fun page => ⟨fun hanswer => ?_, fun hopen => ?_⟩, hrefused, fun w hopen => ?_⟩
  · cases hopen : opened.answer with
    | ok w =>
        rw [(inner.windowed_of_opened hopen).1] at hanswer
        exact absurd hanswer WindowError.choose_ne_refused
    | error other =>
        rw [hrefused other hopen] at hanswer
        cases hanswer
        rfl
  · rw [hrefused page hopen]
    rfl
  · have hopened := Window.opened_of_ok hopen
    obtain ⟨hanswer, hstate⟩ := inner.windowed_of_opened hopen
    have hback : (Memory.restore w.pages written.state).2 = none
        ↔ ∀ s ∈ w.pages, ¬ written.state.Refuses s := Memory.restore_eq_none_iff hopened.nodup
    refine ⟨fun cause => ?_, ?_, fun page => ?_, fun s hs =>
      ⟨hopened.mapped s hs, fun hrefuses => ?_, fun htakes => ?_⟩⟩
    · rw [hanswer, WindowError.choose_eq_inner_iff, hback]
    · rw [hanswer, WindowError.choose_eq_ok_iff, hback]
    · rw [hanswer, WindowError.choose_eq_unrestored_iff,
        Memory.restore_eq_some_iff hopened.ascending]
    · rw [hstate, Memory.page_restore_of_refuses hopened.nodup hs hrefuses]
    · rw [hstate, Memory.protection_restore hopened.nodup hs htakes]

/-- The inner writer takes the page away and refuses.  Nothing was written, the inner writer says
so, and the answer is the one for bytes that were written. -/
theorem unrestored_hides_refusal :
    let inner : Writer Memory String :=
      ⟨fun _ _ m => .pure (.error "boom") (m.unmap 0x1000), id⟩
    let m : Memory := ⟨fun _ => 0, fun x =>
      if x = 0x1000 then .mapped ⟨true, false, true⟩ else .unmapped⟩
    let opened := Window.openAt 0x1010 [(0xC3 : UInt8)].length m
    opened.answer = .ok ⟨[⟨0x1000, ⟨true, false, true⟩⟩]⟩
      ∧ (inner.write 0x1010 [0xC3] opened.state).answer = .error "boom"
      ∧ (inner.windowed.write 0x1010 [0xC3] m).state.byte = m.byte
      ∧ (inner.windowed.write 0x1010 [0xC3] m).answer = .error (.unrestored 0x1000) := by
  refine ⟨?_, ?_, ?_, ?_⟩
  · rfl
  · rfl
  · rfl
  · rfl

end Writer
end Hotswap
