import Hotswap.Proofs.Session.History

/-!
# What a call depends on

A call through the registry reads one slot, and it writes through the writer.  If the answers of the
writer are fixed by something that no write changes (`Writer.SteadyBy`), the slot is all that
matters: made in another session with the same slot, the call gives the same answer, makes the same
tries and leaves the same slot (`Rig.perform_congr`).  All other slots stay (`slot_perform_of_ne`).

    redirecting a pair  →  the loop over the pairs  →  an application  →  a call
-/

namespace Hotswap

open Machine (Address)
open Entity (Pair Table)

variable {σ ε α β γ : Type}

/-! ## Writers -/

/-- What `f` tells about the state decides the answers, and no write changes it. -/
structure Writer.SteadyBy (w : Writer σ ε) (f : σ → γ) : Prop where
  answer {s t : σ} (h : f s = f t) (location : Address) (bytes : List UInt8) :
    (w.write location bytes s).answer = (w.write location bytes t).answer
  kept (s : σ) (location : Address) (bytes : List UInt8) :
    f (w.write location bytes s).state = f s

/-! ## Effects that look alike -/

/-- Both give the same answer, after the same tries. -/
structure Effect.Alike (e e' : Effect Event σ α) : Prop where
  answer : e.answer = e'.answer
  tries : Event.tries e.trace = Event.tries e'.trace

namespace Effect.Alike

variable {e e' : Effect Event σ (Ending ε α)}

theorem pure (a : α) (s t : σ) : Alike (Effect.pure a s) (Effect.pure a t) := ⟨rfl, rfl⟩

theorem after {e e' : Effect Event σ α} (h : Alike e e') (events : List Event) :
    Alike (e.after events) (e'.after events) := by
  refine ⟨h.answer, ?_⟩
  rw [trace_after, trace_after, Event.tries_append, Event.tries_append, h.tries]

theorem next {f f' : α → σ → Effect Event σ (Ending ε β)} (h : Alike e e')
    (hf : ∀ value, e.answer = .ok value → Alike (f value e.state) (f' value e'.state)) :
    Alike (e.next f) (e'.next f') := by
  have hanswer := h.answer
  cases he : e.answer with
  | ok value =>
      obtain ⟨hgoes, htries⟩ := hf value he
      rw [Effect.next_ok he, Effect.next_ok (hanswer.symm.trans he)]
      refine ⟨hgoes, ?_⟩
      rw [trace_after, trace_after, Event.tries_append, Event.tries_append, h.tries, htries]
  | error cause =>
      rw [Effect.next_error he, Effect.next_error (hanswer.symm.trans he)]
      exact ⟨rfl, h.tries⟩
  | aborted =>
      rw [Effect.next_aborted he, Effect.next_aborted (hanswer.symm.trans he)]
      exact ⟨rfl, h.tries⟩

end Effect.Alike

/-! ## Applications -/

namespace Rig

variable {rig : Rig σ ε} {f : σ → γ} {entity : String} {pairs : List Pair} {base patch : Table}
  {tries : List Try} {s s' t : σ}

theorem Redirects.kept {answer : Ending (PatchError ε) Unit} (hwriter : rig.writer.SteadyBy f)
    (h : rig.Redirects entity pairs s tries answer s') : f s' = f s := by
  induction h with
  | done => rfl
  | next _ _ _ _ ih => exact ih.trans (hwriter.kept ..)
  | same _ => rfl
  | unreachable _ _ => rfl
  | refused _ _ _ => exact hwriter.kept ..

theorem Applies.kept {answer : Ending (PatchError ε) Nat} (hwriter : rig.writer.SteadyBy f)
    (h : rig.Applies base patch s tries answer s') : f s' = f s := by
  cases h with
  | rejected _ => rfl
  | same _ _ => rfl
  | redirected _ _ hloop => exact hloop.kept hwriter
  | stopped _ _ hloop => exact hloop.kept hwriter
  | aborted _ _ hloop => exact hloop.kept hwriter

theorem fault_alike (cause : PatchError ε) (s t : σ) :
    (rig.fault cause s : Effect Event σ (Ending (PatchError ε) α)).Alike (rig.fault cause t) := by
  unfold fault
  split
  · exact ⟨rfl, rfl⟩
  · exact ⟨rfl, rfl⟩

section Steady
variable (hwriter : rig.writer.SteadyBy f)
include hwriter

theorem redirectPair_alike (entity : String) (pair : Pair) (h : f s = f t) :
    (rig.redirectPair entity pair s).Alike (rig.redirectPair entity pair t) := by
  by_cases hsame : pair.base = pair.patch
  · obtain ⟨_, hs⟩ := rig.redirectPair_same entity (s := s) hsame
    obtain ⟨_, ht⟩ := rig.redirectPair_same entity (s := t) hsame
    rw [hs, ht]
    exact ⟨rfl, rfl⟩
  · cases hcode : rig.encode pair.patch with
    | error cause =>
        rw [rig.redirectPair_unreachable entity hsame hcode,
          rig.redirectPair_unreachable entity hsame hcode]
        exact .pure ..
    | ok code =>
        have hanswer := hwriter.answer h pair.base code
        cases hs : (rig.writer.write pair.base code s).answer with
        | ok _ =>
            obtain ⟨hfirst, -, htries⟩ := rig.redirectPair_accepted entity hsame hcode hs
            obtain ⟨hfirst', -, htries'⟩ :=
              rig.redirectPair_accepted entity hsame hcode (hanswer.symm.trans hs)
            exact ⟨hfirst.trans hfirst'.symm, htries.trans htries'.symm⟩
        | error cause =>
            obtain ⟨hfirst, -, htries⟩ := rig.redirectPair_refused entity hsame hcode hs
            obtain ⟨hfirst', -, htries'⟩ :=
              rig.redirectPair_refused entity hsame hcode (hanswer.symm.trans hs)
            exact ⟨hfirst.trans hfirst'.symm, htries.trans htries'.symm⟩

/-- One pair keeps what `f` tells, since it is a loop over one pair. -/
theorem kept_redirectPair (entity : String) (pair : Pair) (s : σ) :
    f (rig.redirectPair entity pair s).state = f s := by
  have hstate : (rig.redirectAll entity [pair] s).state
      = (rig.redirectPair entity pair s).state := by
    rw [redirectAll]
    cases hanswer : (rig.redirectPair entity pair s).answer with
    | ok _ => rw [Effect.next_ok hanswer]; rfl
    | error cause => rw [Effect.next_error hanswer]
    | aborted => rw [Effect.next_aborted hanswer]
  rw [← hstate]
  exact (rig.redirectAll_redirects entity [pair] s).kept hwriter

theorem redirectAll_alike (entity : String) (pairs : List Pair) (h : f s = f t) :
    (rig.redirectAll entity pairs s).Alike (rig.redirectAll entity pairs t) := by
  induction pairs generalizing s t with
  | nil => exact .pure ..
  | cons pair pairs ih =>
      rw [redirectAll, redirectAll]
      refine (redirectPair_alike hwriter entity pair h).next fun _ _ => ih ?_
      rw [kept_redirectPair hwriter, kept_redirectPair hwriter, h]

theorem apply_alike (base patch : Table) (h : f s = f t) :
    (rig.apply base patch s).Alike (rig.apply base patch t) := by
  unfold apply
  refine Effect.Alike.after ?_ _
  split
  · exact .pure ..
  · split
    · exact fault_alike ..
    · exact (redirectAll_alike hwriter base.key _ h).next fun _ _ => ⟨rfl, rfl⟩

end Steady
end Rig

/-! ## Calls -/

theorem Call.Idles.unique {call : Call} {answer answer' : Ending (PatchError ε) Submission}
    (h : call.Idles answer) (h' : call.Idles answer') : answer = answer' := by
  cases h with
  | registered =>
      cases h' with
      | registered => rfl
  | asked =>
      cases h' with
      | asked => rfl
  | waiting hcurrent =>
      cases h' with
      | waiting _ => rfl
      | rejected hnot => exact absurd hcurrent hnot
  | rejected hnot =>
      cases h' with
      | waiting hcurrent => exact absurd hcurrent hnot
      | rejected _ => rfl

section Slots
variable {call : Call} {key k : String} {s t : Session σ}

theorem Session.slot_record_of_ne (hkey : call.key? = some key) (hne : k ≠ key) :
    (s.record call).slot k = s.slot k := by
  cases call with
  | register table =>
      cases hkey
      rw [record, slot_put, if_neg hne]
  | submit c =>
      cases hkey
      rw [record]
      split
      · rw [slot_put, if_neg hne]
      · rfl
  | applyPending key' => rfl
  | apply base patch => rfl

theorem Session.slot_record_congr (hkey : call.key? = some key) (h : s.slot key = t.slot key) :
    (s.record call).slot key = (t.record call).slot key := by
  cases call with
  | register table =>
      cases hkey
      rw [record, record, slot_put, slot_put, if_pos rfl, if_pos rfl, h]
  | submit c =>
      cases hkey
      rw [record, record]
      split
      · rw [slot_put, slot_put, if_pos rfl, if_pos rfl, h]
      · exact h
  | applyPending key' => exact h
  | apply base patch => cases hkey

theorem Session.ready_congr (h : s.slot key = t.slot key) : s.ready key = t.ready key := by
  rw [ready, ready, h]

namespace Rig

variable {rig : Rig σ ε}

theorem settles_congr (hkey : call.key? = some key) (h : s.slot key = t.slot key) :
    rig.settles s call = rig.settles t call := by
  cases call with
  | submit c =>
      cases hkey
      rw [settles, settles, h]
  | register table => rfl
  | applyPending key' => rfl
  | apply base patch => rfl

theorem handed_congr (hkey : call.key? = some key) (h : s.slot key = t.slot key) :
    rig.handed s call = rig.handed t call := by
  rw [handed, handed, settles_congr hkey h]
  cases hsettles : rig.settles t call with
  | none => rfl
  | some k =>
      cases (key_of_settles hsettles).symm.trans hkey
      exact Session.ready_congr (Session.slot_record_congr hkey h)

theorem slot_perform_of_ne (hkey : call.key? = some key) (hne : k ≠ key) :
    (rig.perform s call).state.slot k = s.slot k := by
  rcases rig.slot_perform s call k with ⟨hsettles, -⟩ | ⟨-, hslot⟩
  · cases (key_of_settles hsettles).symm.trans hkey
    exact absurd rfl hne
  · rw [hslot, Session.slot_record_of_ne hkey hne]

section Steady
variable {f : σ → γ} (hwriter : rig.writer.SteadyBy f)
include hwriter

theorem kept_perform (s : Session σ) (call : Call) :
    f (rig.perform s call).state.writer = f s.writer := by
  cases happlied : rig.applied s call with
  | none => rw [(perform_of_not_applied happlied).2.2]
  | some tables =>
      obtain ⟨base, patch⟩ := tables
      rw [(perform_of_applied happlied).2.2]
      exact (rig.apply_applies base patch s.writer).kept hwriter

/-- A call does the same in two sessions that agree on the slot of its key. -/
theorem perform_congr (hkey : call.key? = some key) (hslot : s.slot key = t.slot key)
    (hwriters : f s.writer = f t.writer) :
    (rig.perform s call).Alike (rig.perform t call)
      ∧ (rig.perform s call).state.slot key = (rig.perform t call).state.slot key := by
  have hdirect := isDirect_of_key hkey
  have hrecord := Session.slot_record_congr hkey hslot
  cases hhanded : rig.handed s call with
  | none =>
      obtain ⟨hidles, hstate, htries⟩ := perform_of_not_handed hdirect hhanded
      obtain ⟨hidles', hstate', htries'⟩ :=
        perform_of_not_handed hdirect ((handed_congr hkey hslot).symm.trans hhanded)
      rw [hstate, hstate']
      exact ⟨⟨hidles.unique hidles', htries.trans htries'.symm⟩, hrecord⟩
  | some both =>
      obtain ⟨base, c⟩ := both
      obtain ⟨k, hsettles, -, hanswer, hstate, htries⟩ := perform_of_handed hhanded
      obtain ⟨k', hsettles', -, hanswer', hstate', htries'⟩ :=
        perform_of_handed ((handed_congr hkey hslot).symm.trans hhanded)
      cases (key_of_settles hsettles).symm.trans hkey
      cases (key_of_settles hsettles').symm.trans hkey
      obtain ⟨happly, htried⟩ := apply_alike hwriter base c.table hwriters
      refine ⟨⟨?_, ?_⟩, ?_⟩
      · rw [hanswer, hanswer', happly]
      · rw [htries, htries', htried]
      · have hself (q : Session σ) (slot : Slot) (w : σ) :
            Session.slot ⟨q.registry.put key slot, w⟩ key = slot := Registry.slot_put_self ..
        rw [hstate, hstate', hself, hself, hrecord, happly]

end Steady
end Rig
end Slots
end Hotswap
