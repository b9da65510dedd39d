/-!
# Effects

What an action leaves behind: an answer, the state it ends in, and the events on the way, oldest
first. Actions are plain functions from a state to an effect, and are joined by `andThen`.

An action that can stop the whole process answers with an `Ending`. Such actions are joined by
`next`, which goes on only after a success.
-/

namespace Hotswap

/-- The outcome of an action on states `σ` with events `τ`. -/
structure Effect (τ σ α : Type) where
  answer : α
  state : σ
  trace : List τ

/-- How a call ends. -/
inductive Ending (ε α : Type) where
  | ok (value : α)
  | error (cause : ε)
  /-- The process was stopped; the call never returned. -/
  | aborted
deriving DecidableEq, Repr

namespace Effect

variable {τ τ' σ σ' α β ε ε' : Type}

/-- No events and no change. -/
def pure (answer : α) (state : σ) : Effect τ σ α :=
  ⟨answer, state, []⟩

/-- Puts events in front. -/
def after (events : List τ) (e : Effect τ σ α) : Effect τ σ α :=
  { e with trace := events ++ e.trace }

/-- Goes on with the answer in the state reached. -/
def andThen (e : Effect τ σ α) (f : α → σ → Effect τ σ β) : Effect τ σ β :=
  (f e.answer e.state).after e.trace

/-- Goes on after a success; an error or a stop is passed on. -/
def next (e : Effect τ σ (Ending ε α)) (f : α → σ → Effect τ σ (Ending ε β)) :
    Effect τ σ (Ending ε β) :=
  e.andThen fun
    | .ok value, s => f value s
    | .error cause, s => .pure (.error cause) s
    | .aborted, s => .pure .aborted s

/-- The same effect with another answer. -/
def map (f : α → β) (e : Effect τ σ α) : Effect τ σ β :=
  ⟨f e.answer, e.state, e.trace⟩

/-- The same effect on a larger state. -/
def mapState (f : σ → σ') (e : Effect τ σ α) : Effect τ σ' α :=
  ⟨e.answer, f e.state, e.trace⟩

/-- The same effect with other events. -/
def mapTrace (f : τ → τ') (e : Effect τ σ α) : Effect τ' σ α :=
  ⟨e.answer, e.state, e.trace.map f⟩

/-! ## What joining does to each part -/

@[simp] theorem answer_pure (a : α) (s : σ) : (pure a s : Effect τ σ α).answer = a := rfl

@[simp] theorem state_pure (a : α) (s : σ) : (pure a s : Effect τ σ α).state = s := rfl

@[simp] theorem trace_pure (a : α) (s : σ) : (pure a s : Effect τ σ α).trace = [] := rfl

@[simp] theorem answer_after (es : List τ) (e : Effect τ σ α) : (e.after es).answer = e.answer :=
  rfl

@[simp] theorem state_after (es : List τ) (e : Effect τ σ α) : (e.after es).state = e.state := rfl

@[simp] theorem trace_after (es : List τ) (e : Effect τ σ α) :
    (e.after es).trace = es ++ e.trace := rfl

@[simp] theorem answer_andThen (e : Effect τ σ α) (f : α → σ → Effect τ σ β) :
    (e.andThen f).answer = (f e.answer e.state).answer := rfl

@[simp] theorem state_andThen (e : Effect τ σ α) (f : α → σ → Effect τ σ β) :
    (e.andThen f).state = (f e.answer e.state).state := rfl

@[simp] theorem trace_andThen (e : Effect τ σ α) (f : α → σ → Effect τ σ β) :
    (e.andThen f).trace = e.trace ++ (f e.answer e.state).trace := rfl

theorem next_ok {e : Effect τ σ (Ending ε α)} {value : α} (h : e.answer = .ok value)
    (f : α → σ → Effect τ σ (Ending ε β)) : e.next f = (f value e.state).after e.trace := by
  simp only [next, andThen, h]

theorem next_error {e : Effect τ σ (Ending ε α)} {cause : ε} (h : e.answer = .error cause)
    (f : α → σ → Effect τ σ (Ending ε β)) : e.next f = ⟨.error cause, e.state, e.trace⟩ := by
  simp only [next, andThen, h, after, pure, List.append_nil]

theorem next_aborted {e : Effect τ σ (Ending ε α)} (h : e.answer = .aborted)
    (f : α → σ → Effect τ σ (Ending ε β)) : e.next f = ⟨.aborted, e.state, e.trace⟩ := by
  simp only [next, andThen, h, after, pure, List.append_nil]

end Effect
end Hotswap
