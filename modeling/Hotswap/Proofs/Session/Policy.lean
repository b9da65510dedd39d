import Hotswap.Proofs.Session.Run

/-!
# The policy decides how a fault ends, and nothing else

The same calls are made twice, in sessions whose policies differ in `abortOnFault` alone.  Then each
action is one of two things (`Effect.Parts`):

    no fault    one effect under both policies, its records included, and no abort
    a fault     handed back by the tolerant session, the end of the process in the aborting one;
                the state is the same, and so are the events but for the text of the last record

This goes through everything that actions are built with, so it is shown once for each action, from
the redirection of one pair up to a call.  Of a run follows that the aborting session cuts the
tolerant one short at its first fault (`CutShort`).
-/

namespace Hotswap

open Entity (Pair Table)

variable {σ ε α β : Type}

/-- The rig under a policy that hands fatal errors back. -/
def Rig.tolerant (rig : Rig σ ε) : Rig σ ε :=
  { rig with policy := { rig.policy with abortOnFault := false } }

/-- The rig under a policy that stops the process at a fatal error. -/
def Rig.aborting (rig : Rig σ ε) : Rig σ ε :=
  { rig with policy := { rig.policy with abortOnFault := true } }

/-- What an action of a session leaves behind. -/
abbrev Outcome (σ ε α : Type) : Type :=
  Effect Event σ (Ending (PatchError ε) α)

namespace Effect

/-- The action ends in a fatal error. -/
def IsFault (e : Outcome σ ε α) : Prop :=
  ∃ cause, e.answer = .error cause ∧ cause.isFatal = true

/-- `stop` is the fault `e` in a process that does not survive it. -/
inductive Stopped : Outcome σ ε α → Outcome σ ε α → Prop
  | mk {cause : PatchError ε} {s : σ} {events : List Event} : cause.isFatal = true →
      Stopped ⟨.error cause, s, events ++ [.note (Log.error cause.message)]⟩
        ⟨.aborted, s, events ++ [.note (Log.error (cause.message ++ "; aborting"))]⟩

/-- What one action does under the two policies, the tolerant first. -/
inductive Parts : Outcome σ ε α → Outcome σ ε α → Prop
  | together {e : Outcome σ ε α} : e.answer ≠ .aborted → ¬ e.IsFault → Parts e e
  | apart {e stop : Outcome σ ε α} : Stopped e stop → Parts e stop

section
variable {e stop : Outcome σ ε α}

theorem Stopped.isFault (h : Stopped e stop) : e.IsFault := by
  cases h with
  | mk hfatal => exact ⟨_, rfl, hfatal⟩

theorem Stopped.aborted (h : Stopped e stop) : stop.answer = .aborted := by
  cases h with
  | mk hfatal => rfl

theorem Stopped.state (h : Stopped e stop) : stop.state = e.state := by
  cases h with
  | mk hfatal => rfl

theorem Stopped.tries (h : Stopped e stop) : Event.tries stop.trace = Event.tries e.trace := by
  cases h with
  | mk hfatal => rw [Event.tries_append, Event.tries_append, Event.tries_note, Event.tries_note]

end

/-! ## What is built from actions -/

namespace Parts

variable {e e' : Outcome σ ε α}

theorem ok (value : α) (s : σ) (trace : List Event) :
    Parts (ε := ε) ⟨.ok value, s, trace⟩ ⟨.ok value, s, trace⟩ := by
  refine .together nofun ?_
  rintro ⟨_, hanswer, -⟩
  cases hanswer

theorem error {cause : PatchError ε} (h : cause.isFatal = false) (s : σ) :
    Parts (α := α) (.pure (.error cause) s) (.pure (.error cause) s) := by
  refine .together nofun ?_
  rintro ⟨_, hanswer, hfatal⟩
  cases hanswer
  cases h.symm.trans hfatal

theorem after (h : Parts e e') (events : List Event) :
    Parts (e.after events) (e'.after events) := by
  cases h with
  | together hgoes hsound => exact .together hgoes hsound
  | apart hstopped =>
      cases hstopped with
      | mk hfatal =>
          refine .apart ?_
          simp only [Effect.after, ← List.append_assoc]
          exact .mk hfatal

theorem mapState {τ : Type} (h : Parts e e') (f : σ → τ) :
    Parts (e.mapState f) (e'.mapState f) := by
  cases h with
  | together hgoes hsound => exact .together hgoes hsound
  | apart hstopped =>
      cases hstopped with
      | mk hfatal => exact .apart (.mk hfatal)

theorem same_or_stopped (h : Parts e e') : (e' = e ∧ ¬ e.IsFault) ∨ Stopped e e' := by
  cases h with
  | together _ hsound => exact .inl ⟨rfl, hsound⟩
  | apart hstopped => exact .inr hstopped

theorem ite {condition : Prop} [Decidable condition] {other other' : Outcome σ ε α}
    (h : Parts e e') (hother : Parts other other') :
    Parts (if condition then e else other) (if condition then e' else other') := by
  by_cases hcondition : condition
  · rw [if_pos hcondition, if_pos hcondition]
    exact h
  · rw [if_neg hcondition, if_neg hcondition]
    exact hother

/-- What follows a fault is left out under either policy, so what is joined parts where the first
action does, or where the second does after it. -/
theorem next (h : Parts e e') {f f' : α → σ → Outcome σ ε β}
    (hf : ∀ value s, Parts (f value s) (f' value s)) : Parts (e.next f) (e'.next f') := by
  cases h with
  | together hgoes hsound =>
      cases hanswer : e.answer with
      | ok value =>
          rw [Effect.next_ok hanswer, Effect.next_ok hanswer]
          exact (hf value e.state).after e.trace
      | error cause =>
          rw [Effect.next_error hanswer, Effect.next_error hanswer]
          refine .together nofun ?_
          rintro ⟨_, hcause, hfatal⟩
          cases hcause
          exact hsound ⟨cause, hanswer, hfatal⟩
      | aborted => exact absurd hanswer hgoes
  | apart hstopped =>
      cases hstopped with
      | mk hfatal =>
          rw [Effect.next_error rfl, Effect.next_aborted rfl]
          exact .apart (.mk hfatal)

end Parts
end Effect

/-! ## From one pair up to a call -/

namespace Rig

open Effect (Parts)

variable (rig : Rig σ ε)

@[simp] theorem writer_tolerant : rig.tolerant.writer = rig.writer := rfl

@[simp] theorem writer_aborting : rig.aborting.writer = rig.writer := rfl

@[simp] theorem encode_tolerant : rig.tolerant.encode = rig.encode := rfl

@[simp] theorem encode_aborting : rig.aborting.encode = rig.encode := rfl

/-- The one place where the switch is read. -/
theorem fault_parts {cause : PatchError ε} (h : cause.isFatal = true) (s : σ) :
    Parts (rig.tolerant.fault cause s : Outcome σ ε α) (rig.aborting.fault cause s) := by
  have hstopped : Effect.Stopped (α := α)
      ⟨.error cause, s, [] ++ [.note (Log.error cause.message)]⟩
      ⟨.aborted, s, [] ++ [.note (Log.error (cause.message ++ "; aborting"))]⟩ := .mk h
  exact .apart hstopped

theorem redirectPair_parts (entity : String) (pair : Pair) (s : σ) :
    Parts (rig.tolerant.redirectPair entity pair s) (rig.aborting.redirectPair entity pair s) := by
  simp only [redirectPair, Effect.andThen, writer_tolerant, writer_aborting, encode_tolerant,
    encode_aborting]
  refine Parts.after ?_ _
  cases (rig.writer.redirect rig.encode pair.base pair.patch s).answer with
  | ok _ => exact .ok ..
  | error cause =>
      cases cause with
      | code cause => exact .error rfl _
      | sameAddress address => exact rig.fault_parts rfl _
      | write cause => exact rig.fault_parts rfl _

theorem redirectAll_parts (entity : String) (pairs : List Pair) (s : σ) :
    Parts (rig.tolerant.redirectAll entity pairs s) (rig.aborting.redirectAll entity pairs s) := by
  induction pairs generalizing s with
  | nil => exact .ok ..
  | cons pair pairs ih => exact (rig.redirectPair_parts entity pair s).next fun _ s => ih s

theorem apply_parts (base patch : Table) (s : σ) :
    Parts (rig.tolerant.apply base patch s) (rig.aborting.apply base patch s) := by
  unfold apply
  refine Parts.after ?_ _
  cases base.pairing patch with
  | error cause => exact .error rfl s
  | ok pairs =>
      cases hfound : pairs.find? (fun p => p.base == p.patch) with
      | some pair =>
          simp only [hfound]
          exact rig.fault_parts rfl s
      | none =>
          simp only [hfound]
          exact (rig.redirectAll_parts base.key pairs s).next fun _ s => .ok ..

/-! A call joins an application with steps that cannot fail. -/

theorem settle_parts (key : String) (s : Session σ) :
    Parts (rig.tolerant.settle key s) (rig.aborting.settle key s) := by
  cases hbase : (s.slot key).base with
  | none =>
      simp only [settle, hbase]
      exact .ok ..
  | some base =>
      cases hpending : (s.slot key).pending with
      | none =>
          simp only [settle, hbase, hpending]
          exact .ok ..
      | some c =>
          simp only [settle, hbase, hpending, applyTables]
          refine ((rig.apply_parts base c.table _).mapState _).next fun count s => ?_
          exact .ite (.ok ..) (.ok ..)

theorem submit_parts (c : Candidate) (s : Session σ) :
    Parts (rig.tolerant.submit c s) (rig.aborting.submit c s) := by
  refine .ite (Parts.after (.ite ?_ (.ok ..)) _) (.error rfl s)
  exact (rig.settle_parts c.entity _).next fun count s => .ok ..

theorem perform_parts (s : Session σ) (call : Call) :
    Parts (rig.tolerant.perform s call) (rig.aborting.perform s call) := by
  cases call with
  | register table =>
      exact ((rig.settle_parts table.key _).after _).next fun count s => .ok ..
  | submit c => exact rig.submit_parts c s
  | applyPending key => exact (rig.settle_parts key s).next fun count s => .ok ..
  | apply base patch =>
      exact ((rig.apply_parts base patch s.writer).mapState _).next fun count s => .ok ..

end Rig

/-! ## Runs -/

/-- The first run goes through, and so does the second; or the first has a fault, and the second is
the first up to there and then stops. -/
inductive CutShort : List (Outcome σ ε α) → List (Outcome σ ε α) → Prop
  | done : CutShort [] []
  | goes {e : Outcome σ ε α} {rest rest' : List (Outcome σ ε α)} :
      ¬ e.IsFault → CutShort rest rest' → CutShort (e :: rest) (e :: rest')
  | stops {e stop : Outcome σ ε α} {rest : List (Outcome σ ε α)} :
      e.Stopped stop → CutShort (e :: rest) [stop]

namespace Rig

theorem run_cutShort (rig : Rig σ ε) (s : Session σ) (calls : List Call) :
    CutShort (rig.tolerant.run s calls) (rig.aborting.run s calls) := by
  induction calls generalizing s with
  | nil => exact .done
  | cons call calls ih =>
      have hgoes : (rig.tolerant.perform s call).answer ≠ .aborted := perform_ne_aborted rfl
      rw [run_cons calls hgoes]
      rcases (rig.perform_parts s call).same_or_stopped with ⟨hsame, hsound⟩ | hstopped
      · rw [← hsame] at hgoes
        rw [run_cons calls hgoes, hsame]
        exact .goes hsound (ih _)
      · rw [run_of_aborted calls hstopped.aborted]
        exact .stops hstopped

end Rig

namespace CutShort

variable {e : Outcome σ ε α} {first second before after : List (Outcome σ ε α)}

/-- Nobody who is still there to hear of it is told of a fault. -/
theorem not_isFault (h : CutShort first second) : ∀ e ∈ second, ¬ e.IsFault := by
  induction h with
  | done => exact fun e he => absurd he List.not_mem_nil
  | goes hsound _ ih => exact List.forall_mem_cons.mpr ⟨hsound, ih⟩
  | stops hstopped =>
      rintro _ he ⟨cause, hanswer, -⟩
      rw [List.mem_singleton.mp he, hstopped.aborted] at hanswer
      cases hanswer

theorem eq_of_sound (h : CutShort first second) (hsound : ∀ e ∈ first, ¬ e.IsFault) :
    second = first := by
  induction h with
  | done => rfl
  | goes _ _ ih => rw [ih fun e he => hsound e (List.mem_cons_of_mem _ he)]
  | stops hstopped => exact absurd hstopped.isFault (hsound _ List.mem_cons_self)

theorem stops_at (h : CutShort first second) (hsplit : first = before ++ e :: after)
    (hbefore : ∀ b ∈ before, ¬ b.IsFault) (hfault : e.IsFault) :
    ∃ stop, second = before ++ [stop] ∧ e.Stopped stop := by
  induction h generalizing before with
  | done => cases before <;> cases hsplit
  | @goes b rest rest' hsound _ ih =>
      cases before with
      | nil =>
          cases hsplit
          exact absurd hfault hsound
      | cons b before =>
          cases hsplit
          obtain ⟨stop, rfl, hstopped⟩ := ih rfl fun b hb => hbefore b (List.mem_cons_of_mem _ hb)
          exact ⟨stop, rfl, hstopped⟩
  | @stops b stop rest hstopped =>
      cases before with
      | nil =>
          cases hsplit
          exact ⟨stop, rfl, hstopped⟩
      | cons b before =>
          cases hsplit
          exact absurd hstopped.isFault (hbefore _ List.mem_cons_self)

end CutShort

/-- **The policy decides how a fault ends, and nothing else.**  For every encoder, writer and
session, and for all calls, made once under a policy that hands fatal errors back and once under one
that aborts:

* the tolerant session makes every call, and none aborts;
* the aborting session hands back no fatal error;
* if there is no fatal error, both sessions do the same: answers, sessions afterwards, writes and
  records;
* otherwise they do so up to the first fatal error.  There the aborting session makes the same
  writes, accepted or refused, and ends in the same state, but aborts. -/
theorem Rig.policy_decides_ending (rig : Rig σ ε) (s : Session σ) (calls : List Call) :
    let tolerated := rig.tolerant.run s calls
    let aborted := rig.aborting.run s calls
    tolerated.length = calls.length
    ∧ (∀ e ∈ tolerated, e.answer ≠ .aborted)
    ∧ (∀ e ∈ aborted, ¬ e.IsFault)
    ∧ ((∀ e ∈ tolerated, ¬ e.IsFault) → aborted = tolerated)
    ∧ ∀ before e after, tolerated = before ++ e :: after → (∀ b ∈ before, ¬ b.IsFault) →
        e.IsFault →
        ∃ stop, aborted = before ++ [stop] ∧ stop.answer = .aborted ∧ stop.state = e.state
          ∧ Event.tries stop.trace = Event.tries e.trace := by
  intro tolerated aborted
  have hcut : CutShort tolerated aborted := rig.run_cutShort s calls
  refine ⟨length_run rfl s calls, run_ne_aborted rfl s calls, hcut.not_isFault, hcut.eq_of_sound,
    ?_⟩
  intro before e after hsplit hbefore hfault
  obtain ⟨stop, haborted, hstopped⟩ := hcut.stops_at hsplit hbefore hfault
  exact ⟨stop, haborted, hstopped.aborted, hstopped.state, hstopped.tries⟩

/-- The second write is refused: one session answers with the error and goes on, the other has made
the same two writes when it stops. -/
example :
    let plain : Entity.Shape := ⟨none, [], .unit⟩
    let base := ((Table.empty (.bare ⟨"S", 8, 8⟩)).define "a" plain 0x1000).define "b" plain 0x1100
    let patch := ((Table.empty (.overlay ⟨"P", 8, 8⟩ 0 (.bare ⟨"S", 8, 8⟩))).override "a" plain
      0x7000).override "b" plain 0x7100
    let rig : Rig Nat String := ⟨Machine.Arch.trampoline .x64, .counting (some 1) "full", {}⟩
    let calls : List Call := [.register base, .apply base patch, .applyPending "S"]
    (rig.tolerant.run (.fresh 0) calls).map Effect.answer
        = [.ok (.applied 0), .error (.install "S" "b" 0x1100 "full"), .ok (.applied 0)]
      ∧ (rig.aborting.run (.fresh 0) calls).map Effect.answer = [.ok (.applied 0), .aborted]
      ∧ (rig.aborting.run (.fresh 0) calls).map (fun e => (Event.tries e.trace).map Try.accepted)
        = [[], [true, false]] := by decide

end Hotswap
