import Hotswap.Session.Apply

/-!
# What applying a patch can do

Errors come up in four places while a patch is applied, and three of them lie inside the loop over
the pairs.  `Redirects` lists what that loop can do, one rule for each way in which it goes on or
ends, with the writes handed over and the state of the writer; `Applies` does the same for a whole
application.

    done         no pair is left                            ok
    next         the write is accepted, the loop goes on
    same         source and destination are one function    fatal, the pair is not tried
    unreachable  there is no trampoline to the destination  not fatal, the pair is not tried
    refused      the writer refuses                         fatal

Every run of the loop is one of these (`redirectAll_redirects`), and so is every application
(`apply_applies`).  Facts about the writes and the answer are read off the rules and do not open
the definitions again.
-/

namespace Hotswap

open Machine (Address CodeError)
open Entity (Pair PairingError Table)

/-! ## Tries: the writes among the events -/

/-- A write that was handed to the writer. -/
structure Try where
  address : Address
  bytes : List UInt8
  accepted : Bool
deriving DecidableEq

/-- The tries among the events, in order. -/
def Event.tries (trace : List Event) : List Try :=
  trace.filterMap fun
    | note _ => none
    | attempt address bytes accepted => some ⟨address, bytes, accepted⟩

namespace Event

@[simp] theorem tries_nil : tries [] = [] := rfl

@[simp] theorem tries_note (record : Log.Record) (trace : List Event) :
    tries (note record :: trace) = tries trace := rfl

@[simp] theorem tries_attempt (address : Address) (bytes : List UInt8) (accepted : Bool)
    (trace : List Event) :
    tries (attempt address bytes accepted :: trace)
      = ⟨address, bytes, accepted⟩ :: tries trace := rfl

@[simp] theorem tries_append (first second : List Event) :
    tries (first ++ second) = tries first ++ tries second :=
  List.filterMap_append

@[simp] theorem tries_map_note (records : List Log.Record) : tries (records.map note) = [] := by
  induction records with
  | nil => rfl
  | cons record records ih => exact ih

theorem mem_tries {trace : List Event} {address : Address} {bytes : List UInt8} {accepted : Bool} :
    ⟨address, bytes, accepted⟩ ∈ tries trace ↔ attempt address bytes accepted ∈ trace := by
  induction trace with
  | nil => simp
  | cons event trace ih =>
      cases event with
      | note record => simp [ih]
      | attempt address' bytes' accepted' => simp [ih]

theorem writes_eq_nil_iff {trace : List Event} :
    writes trace = [] ↔ ∀ t ∈ tries trace, t.accepted = false := by
  induction trace with
  | nil => simp [writes]
  | cons event trace ih =>
      cases event with
      | note record => simpa [writes] using ih
      | attempt address bytes accepted =>
          cases accepted with
          | true => simp [writes]
          | false => simpa [writes] using ih

end Event

variable {σ ε : Type}

theorem Writer.redirect_of_code {w : Writer σ ε} {encode : Encoder} {source destination : Address}
    {code : List UInt8} {s : σ} (h : source ≠ destination) (hcode : encode destination = .ok code) :
    (w.redirect encode source destination s).answer
        = (w.write source code s).answer.mapError .write
      ∧ (w.redirect encode source destination s).state = (w.write source code s).state
      ∧ Event.tries (w.redirect encode source destination s).trace
        = [⟨source, code, (w.write source code s).answer.isOk⟩] := by
  simp only [redirect, if_neg h, hcode]
  refine ⟨rfl, rfl, ?_⟩
  simp only [Effect.map, attempt, Effect.trace_andThen, Effect.mapTrace, Event.tries_append,
    Event.tries_map_note, List.nil_append, Event.tries_attempt, Event.tries_nil]

/-! ## The loop over the pairs -/

/-- How a fatal error ends a call. -/
def Rig.raise {α : Type} (rig : Rig σ ε) (cause : PatchError ε) : Ending (PatchError ε) α :=
  if rig.policy.abortOnFault then .aborted else .error cause

section Raise
variable {α : Type} {rig : Rig σ ε} {cause : PatchError ε}

theorem Rig.raise_ne_ok {value : α} : rig.raise cause ≠ .ok value := by
  unfold raise
  split
  · nofun
  · nofun

theorem Rig.raise_of_not_abort (h : rig.policy.abortOnFault = false) :
    (rig.raise cause : Ending (PatchError ε) α) = .error cause := by
  rw [raise, h]
  rfl

theorem Rig.eq_of_raise {e : PatchError ε}
    (h : (rig.raise cause : Ending (PatchError ε) α) = .error e) : e = cause := by
  unfold raise at h
  split at h
  · cases h
  · exact (Ending.error.inj h).symm

end Raise

/-- From the state `s` on, redirecting the pairs makes these tries, answers with this and leaves
the writer in that state. -/
inductive Rig.Redirects (rig : Rig σ ε) (entity : String) :
    List Pair → σ → List Try → Ending (PatchError ε) Unit → σ → Prop
  | done {s : σ} : Redirects rig entity [] s [] (.ok ()) s
  | next {pair : Pair} {pairs : List Pair} {s s' : σ} {code : List UInt8} {tries : List Try}
      {answer : Ending (PatchError ε) Unit} :
      pair.base ≠ pair.patch → rig.encode pair.patch = .ok code →
      (rig.writer.write pair.base code s).answer = .ok () →
      Redirects rig entity pairs (rig.writer.write pair.base code s).state tries answer s' →
      Redirects rig entity (pair :: pairs) s (⟨pair.base, code, true⟩ :: tries) answer s'
  | same {pair : Pair} {pairs : List Pair} {s : σ} :
      pair.base = pair.patch →
      Redirects rig entity (pair :: pairs) s []
        (rig.raise (.sameAddress entity pair.name pair.base)) s
  | unreachable {pair : Pair} {pairs : List Pair} {s : σ} {cause : CodeError} :
      pair.base ≠ pair.patch → rig.encode pair.patch = .error cause →
      Redirects rig entity (pair :: pairs) s [] (.error (.code cause)) s
  | refused {pair : Pair} {pairs : List Pair} {s : σ} {code : List UInt8} {cause : ε} :
      pair.base ≠ pair.patch → rig.encode pair.patch = .ok code →
      (rig.writer.write pair.base code s).answer = .error cause →
      Redirects rig entity (pair :: pairs) s [⟨pair.base, code, false⟩]
        (rig.raise (.install entity pair.name pair.base cause))
        (rig.writer.write pair.base code s).state

namespace Rig

variable (rig : Rig σ ε)

theorem fault_eq {α : Type} (cause : PatchError ε) (s : σ) :
    ∃ record, (rig.fault cause s : Effect Event σ (Ending (PatchError ε) α))
      = ⟨rig.raise cause, s, [.note record]⟩ := by
  unfold fault raise
  split
  · exact ⟨_, rfl⟩
  · exact ⟨_, rfl⟩

/-! One pair: the four rules of `Redirects` that are about a pair, for `redirectPair` itself. -/

section Pair
variable (entity : String) {pair : Pair} {s : σ}

theorem redirectPair_same (h : pair.base = pair.patch) :
    ∃ record, rig.redirectPair entity pair s
      = ⟨rig.raise (.sameAddress entity pair.name pair.base), s, [.note record]⟩ := by
  obtain ⟨record, hfault⟩ := rig.fault_eq (α := Unit) (.sameAddress entity pair.name pair.base) s
  refine ⟨record, ?_⟩
  simp only [redirectPair, Writer.redirect, if_pos h, Effect.andThen, Effect.pure, hfault]
  rfl

theorem redirectPair_unreachable {cause : CodeError} (h : pair.base ≠ pair.patch)
    (hcode : rig.encode pair.patch = .error cause) :
    rig.redirectPair entity pair s = .pure (.error (.code cause)) s := by
  simp only [redirectPair, Writer.redirect, if_neg h, hcode]
  rfl

theorem redirectPair_accepted {code : List UInt8} (h : pair.base ≠ pair.patch)
    (hcode : rig.encode pair.patch = .ok code)
    (hwrite : (rig.writer.write pair.base code s).answer = .ok ()) :
    (rig.redirectPair entity pair s).answer = .ok ()
      ∧ (rig.redirectPair entity pair s).state = (rig.writer.write pair.base code s).state
      ∧ Event.tries (rig.redirectPair entity pair s).trace = [⟨pair.base, code, true⟩] := by
  obtain ⟨hanswer, hstate, htries⟩ := rig.writer.redirect_of_code (s := s) h hcode
  rw [hwrite] at hanswer htries
  have hdone : (rig.writer.redirect rig.encode pair.base pair.patch s).answer = .ok () := hanswer
  refine ⟨?_, ?_, ?_⟩
  · simp only [redirectPair, Effect.answer_andThen, hdone]
  · simp only [redirectPair, Effect.state_andThen, hdone, hstate]
  · simp only [redirectPair, Effect.trace_andThen, hdone, Event.tries_append, htries,
      Event.tries_note, Event.tries_nil, List.append_nil]
    rfl

theorem redirectPair_refused {code : List UInt8} {cause : ε} (h : pair.base ≠ pair.patch)
    (hcode : rig.encode pair.patch = .ok code)
    (hwrite : (rig.writer.write pair.base code s).answer = .error cause) :
    (rig.redirectPair entity pair s).answer = rig.raise (.install entity pair.name pair.base cause)
      ∧ (rig.redirectPair entity pair s).state = (rig.writer.write pair.base code s).state
      ∧ Event.tries (rig.redirectPair entity pair s).trace = [⟨pair.base, code, false⟩] := by
  obtain ⟨hanswer, hstate, htries⟩ := rig.writer.redirect_of_code (s := s) h hcode
  obtain ⟨record, hfault⟩ := rig.fault_eq (α := Unit) (.install entity pair.name pair.base cause)
    (rig.writer.write pair.base code s).state
  rw [hwrite] at hanswer htries
  have hfailed : (rig.writer.redirect rig.encode pair.base pair.patch s).answer
      = .error (.write cause) := hanswer
  refine ⟨?_, ?_, ?_⟩
  · simp only [redirectPair, Effect.answer_andThen, hfailed, hstate, hfault]
  · simp only [redirectPair, Effect.state_andThen, hfailed, hstate, hfault]
  · simp only [redirectPair, Effect.trace_andThen, hfailed, hstate, hfault, Event.tries_append,
      htries, Event.tries_note, Event.tries_nil, List.append_nil]
    rfl

end Pair

theorem next_of_raise {α β τ : Type} {e : Effect τ σ (Ending (PatchError ε) α)}
    {cause : PatchError ε} (h : e.answer = rig.raise cause)
    (f : α → σ → Effect τ σ (Ending (PatchError ε) β)) :
    e.next f = ⟨rig.raise cause, e.state, e.trace⟩ := by
  unfold raise at h ⊢
  by_cases hpolicy : rig.policy.abortOnFault
  · rw [if_pos hpolicy] at h ⊢
    exact Effect.next_aborted h f
  · rw [if_neg hpolicy] at h ⊢
    exact Effect.next_error h f

theorem redirectAll_redirects (entity : String) (pairs : List Pair) (s : σ) :
    rig.Redirects entity pairs s (Event.tries (rig.redirectAll entity pairs s).trace)
      (rig.redirectAll entity pairs s).answer (rig.redirectAll entity pairs s).state := by
  induction pairs generalizing s with
  | nil => exact .done
  | cons pair pairs ih =>
      rw [redirectAll]
      by_cases hsame : pair.base = pair.patch
      · obtain ⟨record, hpair⟩ := rig.redirectPair_same entity (s := s) hsame
        rw [rig.next_of_raise (by rw [hpair]), hpair]
        exact .same hsame
      · cases hcode : rig.encode pair.patch with
        | error cause =>
            have hpair := rig.redirectPair_unreachable entity (s := s) hsame hcode
            rw [Effect.next_error (by rw [hpair]; rfl), hpair]
            exact .unreachable hsame hcode
        | ok code =>
            cases hwrite : (rig.writer.write pair.base code s).answer with
            | error cause =>
                obtain ⟨hanswer, hstate, htries⟩ :=
                  rig.redirectPair_refused entity hsame hcode hwrite
                rw [rig.next_of_raise hanswer, hstate, htries]
                exact .refused hsame hcode hwrite
            | ok _ =>
                obtain ⟨hanswer, hstate, htries⟩ :=
                  rig.redirectPair_accepted entity hsame hcode hwrite
                rw [Effect.next_ok hanswer, hstate, Effect.trace_after, Event.tries_append, htries]
                exact .next hsame hcode hwrite (ih _)

end Rig

/-! ## A whole application -/

/-- From the state `s` on, applying `patch` over `base` makes these tries, answers with this and
leaves the writer in that state. -/
inductive Rig.Applies (rig : Rig σ ε) (base patch : Table) (s : σ) :
    List Try → Ending (PatchError ε) Nat → σ → Prop
  | rejected {cause : PairingError} :
      base.pairing patch = .error cause → Applies rig base patch s [] (.error (.pairing cause)) s
  | same {pairs : List Pair} {pair : Pair} :
      base.pairing patch = .ok pairs → pairs.find? (fun p => p.base == p.patch) = some pair →
      Applies rig base patch s [] (rig.raise (.sameAddress base.key pair.name pair.base)) s
  | redirected {pairs : List Pair} {tries : List Try} {s' : σ} :
      base.pairing patch = .ok pairs → (∀ p ∈ pairs, p.base ≠ p.patch) →
      rig.Redirects base.key pairs s tries (.ok ()) s' →
      Applies rig base patch s tries (.ok pairs.length) s'
  | stopped {pairs : List Pair} {tries : List Try} {cause : PatchError ε} {s' : σ} :
      base.pairing patch = .ok pairs → (∀ p ∈ pairs, p.base ≠ p.patch) →
      rig.Redirects base.key pairs s tries (.error cause) s' →
      Applies rig base patch s tries (.error cause) s'
  | aborted {pairs : List Pair} {tries : List Try} {s' : σ} :
      base.pairing patch = .ok pairs → (∀ p ∈ pairs, p.base ≠ p.patch) →
      rig.Redirects base.key pairs s tries .aborted s' →
      Applies rig base patch s tries .aborted s'

namespace Rig

variable (rig : Rig σ ε)

/-- Every application follows the rules. -/
theorem apply_applies (base patch : Table) (s : σ) :
    rig.Applies base patch s (Event.tries (rig.apply base patch s).trace)
      (rig.apply base patch s).answer (rig.apply base patch s).state := by
  unfold apply
  cases hpairing : base.pairing patch with
  | error cause => exact .rejected hpairing
  | ok pairs =>
      cases hfound : pairs.find? (fun p => p.base == p.patch) with
      | some pair =>
          obtain ⟨record, hfault⟩ := rig.fault_eq (α := Nat)
            (.sameAddress base.key pair.name pair.base) s
          simp only [hfound, hfault]
          exact .same hpairing hfound
      | none =>
          have hdiffer : ∀ p ∈ pairs, p.base ≠ p.patch := by
            intro p hp
            simpa using List.find?_eq_none.mp hfound p hp
          have hloop := rig.redirectAll_redirects base.key pairs s
          simp only [hfound]
          cases hanswer : (rig.redirectAll base.key pairs s).answer with
          | ok _ =>
              rw [hanswer] at hloop
              rw [Effect.next_ok hanswer]
              simp only [Effect.after, List.cons_append, List.nil_append, Event.tries_note,
                Event.tries_append, Event.tries_nil, List.append_nil]
              exact .redirected hpairing hdiffer hloop
          | error cause =>
              rw [hanswer] at hloop
              rw [Effect.next_error hanswer]
              exact .stopped hpairing hdiffer hloop
          | aborted =>
              rw [hanswer] at hloop
              rw [Effect.next_aborted hanswer]
              exact .aborted hpairing hdiffer hloop

end Rig

/-! ## What is written, and for which pair -/

section Rules
variable {rig : Rig σ ε} {entity : String} {pairs : List Pair} {tries : List Try} {s s' : σ}

theorem Rig.Redirects.mem_tries {answer : Ending (PatchError ε) Unit}
    (h : rig.Redirects entity pairs s tries answer s') {t : Try} (ht : t ∈ tries) :
    ∃ pair ∈ pairs, pair.base ≠ pair.patch ∧ t.address = pair.base
      ∧ rig.encode pair.patch = .ok t.bytes := by
  induction h with
  | done => exact absurd ht List.not_mem_nil
  | next hdiffer hcode _ _ ih =>
      rcases List.mem_cons.mp ht with rfl | ht
      · exact ⟨_, List.mem_cons_self, hdiffer, rfl, hcode⟩
      · obtain ⟨pair, hpair, hrest⟩ := ih ht
        exact ⟨pair, List.mem_cons_of_mem _ hpair, hrest⟩
  | same _ => exact absurd ht List.not_mem_nil
  | unreachable _ _ => exact absurd ht List.not_mem_nil
  | refused hdiffer hcode _ =>
      cases List.mem_singleton.mp ht
      exact ⟨_, List.mem_cons_self, hdiffer, rfl, hcode⟩

theorem Rig.Applies.mem_tries {base patch : Table} {answer : Ending (PatchError ε) Nat}
    (h : rig.Applies base patch s tries answer s') {t : Try} (ht : t ∈ tries) :
    ∃ pairs, base.pairing patch = .ok pairs
      ∧ ∃ pair ∈ pairs, pair.base ≠ pair.patch ∧ t.address = pair.base
        ∧ rig.encode pair.patch = .ok t.bytes := by
  cases h with
  | rejected _ => exact absurd ht List.not_mem_nil
  | same _ _ => exact absurd ht List.not_mem_nil
  | redirected hpairing _ hloop => exact ⟨_, hpairing, hloop.mem_tries ht⟩
  | stopped hpairing _ hloop => exact ⟨_, hpairing, hloop.mem_tries ht⟩
  | aborted hpairing _ hloop => exact ⟨_, hpairing, hloop.mem_tries ht⟩

/-! ## Success -/

theorem Rig.Redirects.of_ok {answer : Ending (PatchError ε) Unit}
    (h : rig.Redirects entity pairs s tries answer s') (hanswer : answer = .ok ()) :
    tries.map Try.address = pairs.map Pair.base ∧ ∀ t ∈ tries, t.accepted = true := by
  induction h with
  | done => exact ⟨rfl, nofun⟩
  | next _ _ _ _ ih =>
      obtain ⟨haddress, haccepted⟩ := ih hanswer
      refine ⟨by rw [List.map_cons, List.map_cons, haddress], fun t ht => ?_⟩
      rcases List.mem_cons.mp ht with rfl | ht
      · rfl
      · exact haccepted t ht
  | same _ => exact absurd hanswer raise_ne_ok
  | unreachable _ _ => cases hanswer
  | refused _ _ _ => exact absurd hanswer raise_ne_ok

theorem Rig.Applies.of_ok {base patch : Table} {answer : Ending (PatchError ε) Nat} {count : Nat}
    (h : rig.Applies base patch s tries answer s') (hanswer : answer = .ok count) :
    ∃ pairs, base.pairing patch = .ok pairs ∧ pairs.length = count
      ∧ tries.map Try.address = pairs.map Pair.base ∧ ∀ t ∈ tries, t.accepted = true := by
  cases h with
  | rejected _ => cases hanswer
  | same _ _ => exact absurd hanswer raise_ne_ok
  | redirected hpairing _ hloop =>
      cases hanswer
      exact ⟨_, hpairing, rfl, hloop.of_ok rfl⟩
  | stopped _ _ _ => cases hanswer
  | aborted _ _ _ => cases hanswer

/-! ## Errors -/

theorem Rig.Redirects.ne_aborted {answer : Ending (PatchError ε) Unit}
    (h : rig.Redirects entity pairs s tries answer s') (hpolicy : rig.policy.abortOnFault = false) :
    answer ≠ .aborted := by
  induction h with
  | done => nofun
  | next _ _ _ _ ih => exact ih
  | same _ =>
      rw [raise_of_not_abort hpolicy]
      nofun
  | unreachable _ _ => nofun
  | refused _ _ _ =>
      rw [raise_of_not_abort hpolicy]
      nofun

theorem Rig.Applies.ne_aborted {base patch : Table} {answer : Ending (PatchError ε) Nat}
    (h : rig.Applies base patch s tries answer s') (hpolicy : rig.policy.abortOnFault = false) :
    answer ≠ .aborted := by
  cases h with
  | rejected _ => nofun
  | same _ _ =>
      rw [raise_of_not_abort hpolicy]
      nofun
  | redirected _ _ _ => nofun
  | stopped _ _ _ => nofun
  | aborted _ _ hloop => exact absurd rfl (hloop.ne_aborted hpolicy)

theorem Rig.Redirects.cause_of_error {answer : Ending (PatchError ε) Unit} {e : PatchError ε}
    (h : rig.Redirects entity pairs s tries answer s') (hanswer : answer = .error e)
    (hdiffer : ∀ p ∈ pairs, p.base ≠ p.patch) :
    (∃ cause, e = .code cause) ∨ ∃ pair ∈ pairs, ∃ cause,
      e = .install entity pair.name pair.base cause := by
  induction h with
  | done => cases hanswer
  | next _ _ _ _ ih =>
      rcases ih hanswer fun p hp => hdiffer p (List.mem_cons_of_mem _ hp) with
        hcode | ⟨pair, hpair, hinstall⟩
      · exact .inl hcode
      · exact .inr ⟨pair, List.mem_cons_of_mem _ hpair, hinstall⟩
  | same hsame => exact absurd hsame (hdiffer _ List.mem_cons_self)
  | unreachable _ _ =>
      cases hanswer
      exact .inl ⟨_, rfl⟩
  | refused _ _ _ => exact .inr ⟨_, List.mem_cons_self, _, eq_of_raise hanswer⟩

/-- An application that fails after an accepted write fails for want of a trampoline, or because
the writer refused one. -/
theorem Rig.Applies.cause_of_touched {base patch : Table} {answer : Ending (PatchError ε) Nat}
    {e : PatchError ε} (h : rig.Applies base patch s tries answer s') (hanswer : answer = .error e)
    (htouched : ∃ t ∈ tries, t.accepted = true) :
    (∃ cause, e = .code cause) ∨ ∃ operation address cause,
      e = .install base.key operation address cause := by
  obtain ⟨t, ht, -⟩ := htouched
  cases h with
  | rejected _ => exact absurd ht List.not_mem_nil
  | same _ _ => exact absurd ht List.not_mem_nil
  | redirected _ _ _ => cases hanswer
  | aborted _ _ _ => cases hanswer
  | stopped _ hdiffer hloop =>
      cases hanswer
      rcases hloop.cause_of_error rfl hdiffer with hcode | ⟨pair, -, cause, hinstall⟩
      · exact .inl hcode
      · exact .inr ⟨_, _, cause, hinstall⟩

/-! ## Errors that are not fatal -/

/-- If the loop ends in an error that is not fatal, it ends at a pair without a trampoline, and
all writes of the pairs before that one were accepted. -/
theorem Rig.Redirects.of_harmless {answer : Ending (PatchError ε) Unit} {e : PatchError ε}
    (h : rig.Redirects entity pairs s tries answer s') (hanswer : answer = .error e)
    (hharmless : e.isFatal = false) :
    ∃ done pair rest cause, pairs = done ++ pair :: rest ∧ rig.encode pair.patch = .error cause
      ∧ e = .code cause ∧ (∀ p ∈ done, ∃ code, rig.encode p.patch = .ok code)
      ∧ tries.map Try.address = done.map Pair.base ∧ ∀ t ∈ tries, t.accepted = true := by
  induction h with
  | done => cases hanswer
  | @next pair pairs s s' code tries answer _ hcode _ _ ih =>
      obtain ⟨done, last, rest, cause, rfl, hlast, he, hdone, haddress, haccepted⟩ := ih hanswer
      refine ⟨pair :: done, last, rest, cause, rfl, hlast, he, ?_, ?_, ?_⟩
      · intro p hp
        rcases List.mem_cons.mp hp with rfl | hp
        · exact ⟨code, hcode⟩
        · exact hdone p hp
      · rw [List.map_cons, List.map_cons, haddress]
      · intro t ht
        rcases List.mem_cons.mp ht with rfl | ht
        · rfl
        · exact haccepted t ht
  | same _ =>
      cases eq_of_raise hanswer
      cases hharmless
  | @unreachable pair pairs s cause _ hcode =>
      cases hanswer
      exact ⟨[], pair, pairs, cause, rfl, hcode, rfl, nofun, rfl, nofun⟩
  | refused _ _ _ =>
      cases eq_of_raise hanswer
      cases hharmless

end Rules
end Hotswap
