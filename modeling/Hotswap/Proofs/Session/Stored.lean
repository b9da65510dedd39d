import Hotswap.Proofs.Session.Frame

/-!
# Live memory is its writes

What a call leaves of live memory is the memory it found, with its accepted writes stored one after
the other (`Memory.storeAll`, `Rig.writer_perform_live`).  So what there is to say of the bytes is
said of stores:

    a byte that none of them wrote    is as it was (`byte_storeAll_of_not_written`)
    any byte                          depends on no other byte (`byte_storeAll_congr`)
    writes that share no byte         can be exchanged (`storeAll_comm`)
-/

namespace Hotswap

open Machine (Address Arch)
open Entity (Pair Table)

/-! ## Storing writes -/

namespace Memory

/-- Stores the accepted writes, in order. -/
def storeAll (m : Memory) : List Try → Memory
  | [] => m
  | t :: tries => (if t.accepted then m.store t.address t.bytes else m).storeAll tries

variable {m m' : Memory} {t : Try} {tries : List Try} {x : Address}

theorem storeAll_cons_of_accepted (h : t.accepted = true) :
    m.storeAll (t :: tries) = (m.store t.address t.bytes).storeAll tries := by
  rw [storeAll, if_pos h]

theorem storeAll_cons_of_refused (h : t.accepted = false) :
    m.storeAll (t :: tries) = m.storeAll tries := by
  rw [storeAll, h, if_neg Bool.false_ne_true]

@[simp] theorem page_storeAll (m : Memory) (tries : List Try) :
    (m.storeAll tries).page = m.page := by
  induction tries generalizing m with
  | nil => rfl
  | cons t tries ih =>
      cases h : t.accepted with
      | true => rw [storeAll_cons_of_accepted h, ih, page_store]
      | false => rw [storeAll_cons_of_refused h, ih]

/-- A byte after the writes depends on the same byte before them, and on no other. -/
theorem byte_storeAll_congr (h : m.byte x = m'.byte x) (tries : List Try) :
    (m.storeAll tries).byte x = (m'.storeAll tries).byte x := by
  induction tries generalizing m m' with
  | nil => exact h
  | cons t tries ih =>
      cases haccepted : t.accepted with
      | true =>
          rw [storeAll_cons_of_accepted haccepted, storeAll_cons_of_accepted haccepted]
          refine ih ?_
          rw [byte_store, byte_store, h]
      | false =>
          rw [storeAll_cons_of_refused haccepted, storeAll_cons_of_refused haccepted]
          exact ih h

theorem byte_storeAll_of_not_written (h : ¬ Written tries x) :
    (m.storeAll tries).byte x = m.byte x := by
  induction tries generalizing m with
  | nil => rfl
  | cons t tries ih =>
      have hrest : ¬ Written tries x := fun hwritten => h hwritten.of_mem
      cases haccepted : t.accepted with
      | true =>
          rw [storeAll_cons_of_accepted haccepted, ih hrest]
          exact byte_store_of_not_spans fun hspans =>
            h ⟨t, List.mem_cons_self, haccepted, hspans⟩
      | false => rw [storeAll_cons_of_refused haccepted, ih hrest]

theorem load_storeAll_of_not_written {a : Address} {n : Nat}
    (h : ∀ x, Spans a n x → ¬ Written tries x) : (m.storeAll tries).load a n = m.load a n := by
  unfold load
  refine List.map_congr_left fun i hi => ?_
  exact byte_storeAll_of_not_written (h _ ⟨i, List.mem_range.mp hi, rfl⟩)

theorem storeAll_comm {first second : List Try}
    (h : ∀ x, ¬ (Written first x ∧ Written second x)) (m : Memory) :
    (m.storeAll first).storeAll second = (m.storeAll second).storeAll first := by
  refine eq_of_byte_page (funext fun x => ?_) fun x => by simp only [page_storeAll]
  by_cases hfirst : Written first x
  · have hsecond : ¬ Written second x := fun hsecond => h x ⟨hfirst, hsecond⟩
    rw [byte_storeAll_of_not_written hsecond]
    exact byte_storeAll_congr (byte_storeAll_of_not_written hsecond).symm first
  · rw [byte_storeAll_of_not_written hfirst]
    exact byte_storeAll_congr (byte_storeAll_of_not_written hfirst) second

end Memory

/-! ## Live memory -/

namespace Rig

variable {arch : Arch} {policy : Policy} {entity : String} {pairs : List Pair} {base patch : Table}
  {tries : List Try} {m m' : Memory}

theorem Redirects.eq_storeAll [Paging] {answer : Ending (PatchError (WindowError Empty)) Unit}
    (h : (live arch policy).Redirects entity pairs m tries answer m') :
    m' = m.storeAll tries := by
  induction h with
  | done => rfl
  | @next pair pairs m m' code tries answer _ _ hwrite _ ih =>
      rcases m.install_decided pair.base code with hstores | ⟨page, hrefused⟩
      · have hstate : ((live arch policy).writer.write pair.base code m).state
            = m.store pair.base code := (hstores m rfl).2
        rw [ih, hstate, Memory.storeAll_cons_of_accepted rfl]
      · cases hwrite.symm.trans (congrArg Effect.answer (hrefused m rfl))
  | same _ => rfl
  | unreachable _ _ => rfl
  | @refused pair pairs m code cause _ _ hwrite =>
      rcases m.install_decided pair.base code with hstores | ⟨page, hrefused⟩
      · cases hwrite.symm.trans (hstores m rfl).1
      · exact congrArg Effect.state (hrefused m rfl)

theorem Applies.eq_storeAll [Paging] {answer : Ending (PatchError (WindowError Empty)) Nat}
    (h : (live arch policy).Applies base patch m tries answer m') : m' = m.storeAll tries := by
  cases h with
  | rejected _ => rfl
  | same _ _ => rfl
  | redirected _ _ hloop => exact hloop.eq_storeAll
  | stopped _ _ hloop => exact hloop.eq_storeAll
  | aborted _ _ hloop => exact hloop.eq_storeAll

/-- What a call leaves of live memory: its accepted writes are stored, and nothing else is
different. -/
theorem writer_perform_live [Paging] (s : Session Memory) (call : Call) :
    ((live arch policy).perform s call).state.writer
      = s.writer.storeAll (Event.tries ((live arch policy).perform s call).trace) := by
  cases happlied : (live arch policy).applied s call with
  | none =>
      obtain ⟨-, htries, hwriter⟩ := perform_of_not_applied happlied
      rw [hwriter, htries]
      rfl
  | some tables =>
      obtain ⟨base, patch⟩ := tables
      obtain ⟨-, htries, hwriter⟩ := perform_of_applied happlied
      rw [hwriter, htries]
      exact ((live arch policy).apply_applies base patch s.writer).eq_storeAll

end Rig
end Hotswap
