import Hotswap.Proofs.Session.Call

/-!
# Runs and their histories

What a session knows after a run is read off the calls alone, as far as bases and candidates go:

    base of a key       the table of the last call that registered one under it
    waiting candidate   if there is one, that of the last submission for the key

`IsLast` says which call that was, so that two submissions of one candidate stay two.  A call in a
run is looked at together with the session that it found (`Rig.trail`), and `Rig.Reaches` is the
run up to such a session, one call more at a time: what holds at the start and is kept by every call
holds at every moment (`accounts_of_reaches`).
-/

namespace Hotswap

open Entity (Table)

variable {σ ε : Type}

/-! ## The last call of a kind -/

/-- Of the calls, the one at place `i` is the last in which `f` finds something, and that is
`x`. -/
def IsLast {α : Type} (f : Call → Option α) (calls : List Call) (i : Nat) (x : α) : Prop :=
  calls[i]?.bind f = some x ∧ ∀ j, i < j → calls[j]?.bind f = none

section Last
variable {α : Type} {f : Call → Option α} {calls : List Call} {call : Call} {i : Nat} {x : α}

theorem IsLast.found (h : IsLast f calls i x) : ∃ call, calls[i]? = some call ∧ f call = some x :=
  Option.bind_eq_some_iff.mp h.1

theorem IsLast.lt_length (h : IsLast f calls i x) : i < calls.length := by
  obtain ⟨call, hcall, -⟩ := h.found
  exact (List.getElem?_eq_some_iff.mp hcall).1

theorem IsLast.found_of_take {n : Nat} (h : IsLast f (calls.take n) i x) :
    i < n ∧ ∃ call, calls[i]? = some call ∧ f call = some x := by
  have hi : i < n := Nat.lt_of_lt_of_le h.lt_length (List.length_take_le n calls)
  obtain ⟨call, hcall, hfound⟩ := h.found
  rw [List.getElem?_take_of_lt hi] at hcall
  exact ⟨hi, call, hcall, hfound⟩

theorem IsLast.unique {j : Nat} {y : α} (h : IsLast f calls i x) (h' : IsLast f calls j y) :
    i = j := by
  rcases Nat.lt_trichotomy i j with hlt | heq | hgt
  · exact absurd h'.1 (by rw [h.2 j hlt]; nofun)
  · exact heq
  · exact absurd h.1 (by rw [h'.2 i hgt]; nofun)

theorem isLast_snoc (h : f call = some x) : IsLast f (calls ++ [call]) calls.length x := by
  refine ⟨by simpa using h, fun j hj => ?_⟩
  rw [List.getElem?_eq_none (by simpa using Nat.succ_le_of_lt hj)]
  rfl

theorem IsLast.snoc (h : f call = none) (hlast : IsLast f calls i x) :
    IsLast f (calls ++ [call]) i x := by
  have hi := hlast.lt_length
  refine ⟨by rw [List.getElem?_append_left hi]; exact hlast.1, fun j hj => ?_⟩
  rcases Nat.lt_trichotomy j calls.length with hlt | rfl | hgt
  · rw [List.getElem?_append_left hlt]
    exact hlast.2 j hj
  · simpa using h
  · rw [List.getElem?_eq_none (by simpa using Nat.succ_le_of_lt hgt)]
    rfl

end Last

/-- The table that a call registers under `key`. -/
def Call.registered? (key : String) : Call → Option Table
  | .register table => if table.key = key then some table else none
  | _ => none

/-- The candidate that a call submits for `key`, if its version is accepted. -/
def Call.submitted? (key : String) : Call → Option Candidate
  | .submit c => if c.entity = key ∧ c.isCurrent then some c else none
  | _ => none

theorem Call.entity_of_submitted? {key : String} {call : Call} {c : Candidate}
    (h : call.submitted? key = some c) : c.entity = key ∧ c.isCurrent := by
  cases call with
  | submit c' =>
      obtain ⟨hc, hsame⟩ := Option.ite_none_right_eq_some.mp h
      cases hsame
      exact hc
  | _ => cases h

theorem Call.entity_eq_of_submitted? {key key' : String} {call : Call} {c c' : Candidate}
    (h : call.submitted? key = some c) (h' : call.submitted? key' = some c') :
    c.entity = c'.entity := by
  cases call with
  | submit c₀ =>
      obtain ⟨-, hsame⟩ := Option.ite_none_right_eq_some.mp h
      obtain ⟨-, hsame'⟩ := Option.ite_none_right_eq_some.mp h'
      cases hsame
      cases hsame'
      rfl
  | _ => cases h

/-! ## What one call does to a slot -/

theorem Session.slot_put (s : Session σ) (key k : String) (slot : Slot) :
    (s.put key slot).slot k = if k = key then slot else s.slot k := rfl

theorem Session.base_record (s : Session σ) (call : Call) (key : String) :
    ((s.record call).slot key).base = (call.registered? key).or (s.slot key).base := by
  cases call with
  | register table =>
      rw [record, slot_put]
      by_cases h : table.key = key
      · subst h
        simp [Call.registered?]
      · simp [Call.registered?, h, Ne.symm h]
  | submit c =>
      simp only [record, Call.registered?, Option.none_or]
      split
      · rw [slot_put]
        split
        · rename_i h
          rw [h]
        · rfl
      · rfl
  | applyPending key' => rfl
  | apply base patch => rfl

theorem Session.pending_record (s : Session σ) (call : Call) (key : String) :
    ((s.record call).slot key).pending = (call.submitted? key).or (s.slot key).pending := by
  cases call with
  | register table =>
      rw [record, slot_put]
      split
      · rename_i h
        rw [h]
        rfl
      · rfl
  | submit c =>
      by_cases hcurrent : c.isCurrent
      · rw [record, if_pos hcurrent, slot_put]
        by_cases h : c.entity = key
        · subst h
          simp [Call.submitted?, hcurrent]
        · simp [Call.submitted?, h, Ne.symm h]
      · simp [record, Call.submitted?, hcurrent]
  | applyPending key' => rfl
  | apply base patch => rfl

namespace Rig

variable (rig : Rig σ ε)

/-- The slot of a key after a call is what the call recorded there; if the call handed over the
candidate of that key, it is settled besides. -/
theorem slot_perform (s : Session σ) (call : Call) (key : String) :
    (rig.settles s call = some key ∧ ∃ base c, rig.handed s call = some (base, c)
        ∧ (rig.perform s call).state.slot key
          = ((s.record call).slot key).settled (rig.apply base c.table s.writer).answer)
      ∨ (¬ (rig.settles s call = some key ∧ (rig.handed s call).isSome)
        ∧ (rig.perform s call).state.slot key = (s.record call).slot key) := by
  cases hdirect : call.isDirect with
  | true =>
      cases call with
      | apply base patch =>
          refine .inr ⟨fun h => absurd h.1 nofun, ?_⟩
          rw [(perform_direct base patch).2.1]
          rfl
      | _ => cases hdirect
  | false =>
      cases hhanded : rig.handed s call with
      | none =>
          refine .inr ⟨fun h => absurd h.2 nofun, ?_⟩
          rw [(perform_of_not_handed hdirect hhanded).2.1]
      | some both =>
          obtain ⟨base, c⟩ := both
          obtain ⟨k, hsettles, hready, -, hstate, -⟩ := perform_of_handed hhanded
          have hslot : (rig.perform s call).state.slot key
              = if key = k then
                  ((s.record call).slot k).settled (rig.apply base c.table s.writer).answer
                else (s.record call).slot key := by
            rw [hstate]
            rfl
          by_cases hkey : key = k
          · subst hkey
            exact .inl ⟨hsettles, base, c, rfl, hslot.trans (if_pos rfl)⟩
          · refine .inr ⟨fun h => hkey ?_, hslot.trans (if_neg hkey)⟩
            exact (Option.some.inj (hsettles.symm.trans h.1)).symm

theorem base_perform (s : Session σ) (call : Call) (key : String) :
    ((rig.perform s call).state.slot key).base = ((s.record call).slot key).base := by
  rcases rig.slot_perform s call key with ⟨-, base, c, -, hslot⟩ | ⟨-, hslot⟩
  · rw [hslot]
    rfl
  · rw [hslot]

theorem pending_perform {s : Session σ} {call : Call} {key : String} {c : Candidate}
    (h : ((rig.perform s call).state.slot key).pending = some c) :
    ((s.record call).slot key).pending = some c
      ∧ ¬ (rig.settles s call = some key ∧ (rig.handed s call).isSome) := by
  rcases rig.slot_perform s call key with ⟨-, base, c', -, hslot⟩ | ⟨hnot, hslot⟩
  · rw [hslot] at h
    cases h
  · rw [hslot] at h
    exact ⟨h, hnot⟩

end Rig

/-! ## Moments of a run -/

/-- A call together with the session that it finds. -/
structure Moment (σ : Type) where
  session : Session σ
  call : Call

namespace Rig

variable (rig : Rig σ ε)

/-- The moments of a run, one for each call that is made. -/
def trail (rig : Rig σ ε) : Session σ → List Call → List (Moment σ)
  | _, [] => []
  | s, call :: calls =>
    ⟨s, call⟩ ::
      match (rig.perform s call).answer with
      | .aborted => []
      | _ => rig.trail (rig.perform s call).state calls

theorem run_eq_map_trail (s : Session σ) (calls : List Call) :
    rig.run s calls = (rig.trail s calls).map fun m => rig.perform m.session m.call := by
  induction calls generalizing s with
  | nil => rfl
  | cons call calls ih =>
      simp only [run, trail, List.map_cons]
      cases (rig.perform s call).answer with
      | aborted => rfl
      | ok outcome => rw [ih]
      | error cause => rw [ih]

theorem map_call_trail_prefix (s : Session σ) (calls : List Call) :
    (rig.trail s calls).map Moment.call <+: calls := by
  induction calls generalizing s with
  | nil => exact List.prefix_rfl
  | cons call calls ih =>
      simp only [trail, List.map_cons, List.prefix_cons_inj]
      cases (rig.perform s call).answer with
      | aborted => exact List.nil_prefix
      | ok outcome => exact ih _
      | error cause => exact ih _

theorem take_succ_of_trail {s : Session σ} {calls : List Call} {i : Nat} {m : Moment σ}
    (hm : (rig.trail s calls)[i]? = some m) :
    calls.take (i + 1) = ((rig.trail s calls).take i).map Moment.call ++ [m.call] := by
  obtain ⟨rest, hrest⟩ := rig.map_call_trail_prefix s calls
  obtain ⟨hi, -⟩ := List.getElem?_eq_some_iff.mp hm
  have hlength : i + 1 ≤ ((rig.trail s calls).map Moment.call).length := by
    rw [List.length_map]
    exact hi
  calc calls.take (i + 1)
      = ((rig.trail s calls).map Moment.call ++ rest).take (i + 1) := by rw [hrest]
    _ = ((rig.trail s calls).take (i + 1)).map Moment.call := by
        rw [List.take_append_of_le_length hlength, List.map_take]
    _ = ((rig.trail s calls).take i).map Moment.call ++ [m.call] := by
        rw [List.take_add_one, hm, List.map_append]
        rfl

/-- The process went through the moments `past`, from `start` on, and is now in `s`. -/
inductive Reaches (start : Session σ) : List (Moment σ) → Session σ → Prop
  | start : Reaches start [] start
  | call {past : List (Moment σ)} {s : Session σ} (call : Call) :
      Reaches start past s → (rig.perform s call).answer ≠ .aborted →
      Reaches start (past ++ [⟨s, call⟩]) (rig.perform s call).state

variable {rig}

theorem Reaches.of_trail {start s : Session σ} {past : List (Moment σ)} {calls : List Call}
    {i : Nat} {m : Moment σ} (h : rig.Reaches start past s)
    (hm : (rig.trail s calls)[i]? = some m) :
    rig.Reaches start (past ++ (rig.trail s calls).take i) m.session := by
  induction calls generalizing past s i with
  | nil => cases hm
  | cons call calls ih =>
      cases i with
      | zero =>
          cases hm
          rwa [List.take_zero, List.append_nil]
      | succ i =>
          have hnext (hgoes : (rig.perform s call).answer ≠ .aborted)
              (htail : (rig.trail (rig.perform s call).state calls)[i]? = some m) :=
            ih (h.call call hgoes) htail
          rw [trail, List.getElem?_cons_succ] at hm
          rw [trail, List.take_succ_cons]
          cases hanswer : (rig.perform s call).answer with
          | aborted =>
              rw [hanswer] at hm
              cases hm
          | ok outcome =>
              rw [hanswer] at hm hnext
              simpa using hnext nofun hm
          | error cause =>
              rw [hanswer] at hm hnext
              simpa using hnext nofun hm

theorem run_cons {s : Session σ} {call : Call} (calls : List Call)
    (hgoes : (rig.perform s call).answer ≠ .aborted) :
    rig.run s (call :: calls) = rig.perform s call :: rig.run (rig.perform s call).state calls := by
  rw [run]
  split
  · rename_i haborted
    exact absurd haborted hgoes
  · rfl

theorem run_of_aborted {s : Session σ} {call : Call} (calls : List Call)
    (h : (rig.perform s call).answer = .aborted) :
    rig.run s (call :: calls) = [rig.perform s call] := by
  simp only [run, h]

/-! A policy that does not abort lets every call be made. -/

theorem length_run (hpolicy : rig.policy.abortOnFault = false) (s : Session σ)
    (calls : List Call) : (rig.run s calls).length = calls.length := by
  induction calls generalizing s with
  | nil => rfl
  | cons call calls ih =>
      rw [run_cons calls (perform_ne_aborted hpolicy), List.length_cons, ih, List.length_cons]

theorem run_ne_aborted (hpolicy : rig.policy.abortOnFault = false) (s : Session σ)
    (calls : List Call) : ∀ e ∈ rig.run s calls, e.answer ≠ .aborted := by
  intro e he
  rw [run_eq_map_trail] at he
  obtain ⟨m, -, rfl⟩ := List.mem_map.mp he
  exact perform_ne_aborted hpolicy

theorem trail_cons {s : Session σ} {call : Call} (calls : List Call)
    (hgoes : (rig.perform s call).answer ≠ .aborted) :
    rig.trail s (call :: calls) = ⟨s, call⟩ :: rig.trail (rig.perform s call).state calls := by
  rw [trail]
  split
  · rename_i haborted
    exact absurd haborted hgoes
  · rfl

/-- The session that the calls lead to. -/
def sessionAfter (rig : Rig σ ε) (s : Session σ) (calls : List Call) : Session σ :=
  calls.foldl (fun s call => (rig.perform s call).state) s

theorem survives_cons {s : Session σ} {call : Call} {calls : List Call}
    (h : ∀ e ∈ rig.run s (call :: calls), e.answer ≠ .aborted) :
    (rig.perform s call).answer ≠ .aborted
      ∧ ∀ e ∈ rig.run (rig.perform s call).state calls, e.answer ≠ .aborted := by
  have hcall : (rig.perform s call).answer ≠ .aborted := by
    apply h
    rw [run]
    split <;> exact List.mem_cons_self
  rw [run_cons calls hcall] at h
  exact ⟨hcall, fun e he => h e (List.mem_cons_of_mem _ he)⟩

theorem run_append {s : Session σ} {calls : List Call} (rest : List Call)
    (hgoes : ∀ e ∈ rig.run s calls, e.answer ≠ .aborted) :
    rig.run s (calls ++ rest) = rig.run s calls ++ rig.run (rig.sessionAfter s calls) rest := by
  induction calls generalizing s with
  | nil => rfl
  | cons call calls ih =>
      obtain ⟨hcall, htail⟩ := survives_cons hgoes
      rw [List.cons_append, run_cons _ hcall, run_cons calls hcall, ih htail]
      rfl

/-- A run that the process survives reaches the session that its calls lead to, by all its
moments. -/
theorem Reaches.of_run {start s : Session σ} {past : List (Moment σ)} {calls : List Call}
    (h : rig.Reaches start past s) (hgoes : ∀ e ∈ rig.run s calls, e.answer ≠ .aborted) :
    rig.Reaches start (past ++ rig.trail s calls) (rig.sessionAfter s calls) := by
  induction calls generalizing past s with
  | nil => rwa [trail, List.append_nil]
  | cons call calls ih =>
      obtain ⟨hcall, htail⟩ := survives_cons hgoes
      have hrest := ih (h.call call hcall) htail
      rw [trail_cons calls hcall]
      rwa [List.append_assoc] at hrest

/-! ## What a session knows, and from which calls -/

variable (rig)

/-- If one of the moments handed over the candidate of `key`, it lies before place `i`. -/
def UsedBefore (past : List (Moment σ)) (key : String) (i : Nat) : Prop :=
  ∀ j m, past[j]? = some m → rig.settles m.session m.call = some key →
    (rig.handed m.session m.call).isSome → j < i

/-- Every base in `s` was registered by the last of the calls that did so for its key; every
candidate in `s` was submitted by the last of the calls that did so, and was not handed over
since. -/
structure Accounts (calls : List Call) (past : List (Moment σ)) (s : Session σ) : Prop where
  base {key : String} {t : Table} :
    (s.slot key).base = some t → ∃ i, IsLast (Call.registered? key) calls i t
  pending {key : String} {c : Candidate} :
    (s.slot key).pending = some c →
      ∃ i, IsLast (Call.submitted? key) calls i c ∧ rig.UsedBefore past key i

variable {rig}

theorem UsedBefore.of_length_le {past : List (Moment σ)} {key : String} {i : Nat}
    (h : past.length ≤ i) : rig.UsedBefore past key i := by
  intro j m hm _ _
  obtain ⟨hj, -⟩ := List.getElem?_eq_some_iff.mp hm
  exact Nat.lt_of_lt_of_le hj h

theorem UsedBefore.snoc {past : List (Moment σ)} {m : Moment σ} {key : String} {i : Nat}
    (h : rig.UsedBefore past key i)
    (hm : ¬ (rig.settles m.session m.call = some key ∧ (rig.handed m.session m.call).isSome)) :
    rig.UsedBefore (past ++ [m]) key i := by
  intro j m' hm' hsettles hhanded
  obtain ⟨hj, -⟩ := List.getElem?_eq_some_iff.mp hm'
  rw [List.length_append, List.length_singleton] at hj
  rcases Nat.lt_succ_iff_lt_or_eq.mp hj with hlt | rfl
  · rw [List.getElem?_append_left hlt] at hm'
    exact h j m' hm' hsettles hhanded
  · rw [List.getElem?_concat_length] at hm'
    cases hm'
    exact absurd ⟨hsettles, hhanded⟩ hm

theorem Accounts.fresh (w : σ) : rig.Accounts [] [] (.fresh w) :=
  ⟨nofun, nofun⟩

theorem Accounts.record {calls : List Call} {past : List (Moment σ)} {s : Session σ}
    (h : rig.Accounts calls past s) (hlength : past.length ≤ calls.length) (call : Call) :
    rig.Accounts (calls ++ [call]) past (s.record call) := by
  constructor
  · intro key t ht
    rw [Session.base_record] at ht
    cases hcall : call.registered? key with
    | some t' =>
        rw [hcall, Option.some_or] at ht
        cases ht
        exact ⟨calls.length, isLast_snoc hcall⟩
    | none =>
        rw [hcall, Option.none_or] at ht
        obtain ⟨i, hlast⟩ := h.base ht
        exact ⟨i, hlast.snoc hcall⟩
  · intro key c hc
    rw [Session.pending_record] at hc
    cases hcall : call.submitted? key with
    | some c' =>
        rw [hcall, Option.some_or] at hc
        cases hc
        exact ⟨calls.length, isLast_snoc hcall, .of_length_le hlength⟩
    | none =>
        rw [hcall, Option.none_or] at hc
        obtain ⟨i, hlast, hused⟩ := h.pending hc
        exact ⟨i, hlast.snoc hcall, hused⟩

theorem Accounts.settle {calls : List Call} {past : List (Moment σ)} {s : Session σ} {call : Call}
    (h : rig.Accounts calls past (s.record call)) :
    rig.Accounts calls (past ++ [⟨s, call⟩]) (rig.perform s call).state := by
  constructor
  · intro key t ht
    rw [base_perform] at ht
    exact h.base ht
  · intro key c hc
    obtain ⟨hwaits, hnot⟩ := rig.pending_perform hc
    obtain ⟨i, hlast, hused⟩ := h.pending hwaits
    exact ⟨i, hlast, hused.snoc hnot⟩

/-- Every session that a fresh one reaches accounts for all it knows. -/
theorem accounts_of_reaches {w : σ} {past : List (Moment σ)} {s : Session σ}
    (h : rig.Reaches (.fresh w) past s) : rig.Accounts (past.map Moment.call) past s := by
  induction h with
  | start => exact Accounts.fresh w
  | call call _ _ ih =>
      rw [List.map_append]
      exact (ih.record (Nat.le_of_eq (List.length_map _).symm) call).settle

end Rig
end Hotswap
