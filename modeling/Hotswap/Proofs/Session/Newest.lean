import Mathlib.Data.List.Induction
import Hotswap.Proofs.Session.Arrival

/-!
# Candidates that wait in line

There is no line.  As long as nothing is applied on arrival (the base is not registered, or the
policy does not say so), an accepted candidate takes the place of the one that waited before, and a
rejected one takes no place at all.  Of any number of submissions the session keeps what the last
accepted one leaves (`foldl_record_submit`), and whatever is called afterwards goes on as after that
submission alone.

    newest?                     the last candidate of the list that carries the version of its module
    perform_submit_received     one submission: its answer, what it records, and no tries
    run_submissions             any number of them, by induction on the list
-/

namespace Hotswap

open Entity (Table)

variable {σ ε : Type}

/-- The last of the candidates that carries the version of its module. -/
def Candidate.newest? (cs : List Candidate) : Option Candidate :=
  (cs.filter Candidate.isCurrent).getLast?

namespace Candidate

variable {cs : List Candidate} {c : Candidate}

theorem newest?_concat_of_isCurrent (h : c.isCurrent) : newest? (cs ++ [c]) = some c := by
  rw [newest?, List.filter_append, List.filter_cons_of_pos h]
  exact List.getLast?_concat

theorem newest?_concat_of_not_isCurrent (h : ¬ c.isCurrent) :
    newest? (cs ++ [c]) = newest? cs := by
  rw [newest?, List.filter_append, List.filter_cons_of_neg h, List.filter_nil, List.append_nil,
    newest?]

theorem of_newest? (h : newest? cs = some c) : c ∈ cs ∧ c.isCurrent :=
  List.mem_filter.mp (List.mem_of_getLast? h)

end Candidate

/-! ## What is recorded -/

namespace Session

variable {s : Session σ} {c d : Candidate} {cs : List Candidate} {key : String}

theorem record_submit_of_not_isCurrent (h : ¬ c.isCurrent) : s.record (.submit c) = s :=
  if_neg h

theorem record_submit_submit (hentity : d.entity = c.entity) (hcurrent : c.isCurrent) :
    (s.record (.submit d)).record (.submit c) = s.record (.submit c) := by
  by_cases hd : d.isCurrent
  · have hslot : (s.put c.entity { s.slot c.entity with pending := some d }).slot c.entity
        = { s.slot c.entity with pending := some d } := Registry.slot_put_self ..
    simp only [record, if_pos hd, if_pos hcurrent, hentity, hslot]
    simp only [put, Registry.put_put]
  · rw [record_submit_of_not_isCurrent hd]

theorem foldl_record_submit (hkey : ∀ c ∈ cs, c.entity = key) :
    cs.foldl (fun s c => s.record (.submit c)) s
      = (Candidate.newest? cs).toList.foldl (fun s c => s.record (.submit c)) s := by
  -- from the end, where the newest stands
  induction cs using List.reverseRecOn with
  | nil => rfl
  | append_singleton cs c ih =>
      obtain ⟨hbefore, hc⟩ := List.forall_mem_append.mp hkey
      rw [List.foldl_append, ih hbefore, List.foldl_cons, List.foldl_nil]
      by_cases hcurrent : c.isCurrent
      · rw [Candidate.newest?_concat_of_isCurrent hcurrent]
        cases hnewest : Candidate.newest? cs with
        | none => rfl
        | some d =>
            have hd := hbefore d (Candidate.of_newest? hnewest).1
            have hsame : d.entity = c.entity := hd.trans (hc c (List.mem_singleton_self c)).symm
            exact record_submit_submit hsame hcurrent
      · -- nothing is recorded, and the newest is the one before
        rw [Candidate.newest?_concat_of_not_isCurrent hcurrent]
        exact record_submit_of_not_isCurrent hcurrent

end Session

namespace Rig

variable {rig : Rig σ ε} {s : Session σ} {c : Candidate} {cs : List Candidate} {key : String}

/-! ## Submissions that are left waiting -/

/-- The answer to a candidate that is not applied as it arrives. -/
def received (c : Candidate) : Ending (PatchError ε) Submission :=
  if c.isCurrent then .ok .pending else mismatch c

theorem received_ne_aborted (c : Candidate) :
    (received c : Ending (PatchError ε) Submission) ≠ .aborted := by
  unfold received mismatch
  split
  · nofun
  · nofun

theorem Holds.record_submit (h : rig.Holds s key) (c : Candidate) :
    rig.Holds (s.record (.submit c)) key := by
  refine h.imp (fun hbase => ?_) id
  rw [Session.isRegistered, Session.base_record]
  exact hbase

theorem perform_submit_received (h : rig.Holds s c.entity) :
    (rig.perform s (.submit c)).answer = received c
      ∧ (rig.perform s (.submit c)).state = s.record (.submit c)
      ∧ Event.tries (rig.perform s (.submit c)).trace = [] := by
  by_cases hcurrent : c.isCurrent
  · rw [received, if_pos hcurrent]
    exact perform_submit_of_holds hcurrent h
  · rw [received, if_neg hcurrent, Session.record_submit_of_not_isCurrent hcurrent]
    exact perform_submit_of_not_isCurrent hcurrent

theorem run_submissions (hkey : ∀ c ∈ cs, c.entity = key) (h : rig.Holds s key) :
    (rig.run s (cs.map .submit)).map Effect.answer = cs.map received
      ∧ (∀ e ∈ rig.run s (cs.map .submit), Event.tries e.trace = [])
      ∧ rig.sessionAfter s (cs.map .submit)
        = cs.foldl (fun s c => s.record (.submit c)) s := by
  induction cs generalizing s with
  | nil => exact ⟨rfl, fun e he => absurd he List.not_mem_nil, rfl⟩
  | cons c cs ih =>
      obtain ⟨rfl, hrest⟩ := List.forall_mem_cons.mp hkey
      obtain ⟨hanswer, hstate, htries⟩ := perform_submit_received h
      have hgoes : (rig.perform s (.submit c)).answer ≠ .aborted :=
        hanswer ▸ received_ne_aborted c
      obtain ⟨hanswers, hnone, hsession⟩ := ih hrest (h.record_submit c)
      rw [← hstate] at hanswers hnone hsession
      rw [List.map_cons, run_cons _ hgoes]
      refine ⟨?_, List.forall_mem_cons.mpr ⟨htries, hnone⟩, ?_⟩
      · rw [List.map_cons, hanswer, hanswers, List.map_cons]
      · exact hsession.trans (by rw [hstate, List.foldl_cons])

theorem run_submissions_append (hkey : ∀ c ∈ cs, c.entity = key) (h : rig.Holds s key)
    (rest : List Call) :
    rig.run s (cs.map .submit ++ rest)
      = rig.run s (cs.map .submit) ++ rig.run (rig.sessionAfter s (cs.map .submit)) rest := by
  obtain ⟨hanswers, -, -⟩ := run_submissions hkey h
  refine run_append rest fun e he => ?_
  have hanswer : e.answer ∈ cs.map received := hanswers ▸ List.mem_map_of_mem he
  obtain ⟨c, -, hc⟩ := List.mem_map.mp hanswer
  exact hc ▸ received_ne_aborted c

/-! ## Only the newest counts -/

/-- What waits for a key after such submissions is the newest, or what waited before. -/
theorem pending_after_submissions (hkey : ∀ c ∈ cs, c.entity = key) (h : rig.Holds s key) :
    ((rig.sessionAfter s (cs.map .submit)).slot key).pending
      = (Candidate.newest? cs).or (s.slot key).pending := by
  obtain ⟨-, -, hsession⟩ := run_submissions hkey h
  rw [hsession, Session.foldl_record_submit hkey]
  cases hnewest : Candidate.newest? cs with
  | none => rfl
  | some c =>
      obtain ⟨hmem, hcurrent⟩ := Candidate.of_newest? hnewest
      rw [Option.toList_some, List.foldl_cons, List.foldl_nil, Session.pending_record,
        Call.submitted?, if_pos ⟨hkey c hmem, hcurrent⟩]

/-- **Only the newest accepted candidate counts.**  Any number of candidates for a key are submitted
while nothing is applied as it arrives: the key is not registered, or the policy does not say so.
None of the submissions tries to write, and each tells whether its version was right.  What waits
then is the newest that was accepted, or what waited before if none was.  Whatever is called
afterwards, above all the registration of the base and the call that asks for the key, has the
same effects (answers, tries and sessions) as after the submission of that one alone. -/
theorem newest_candidate_counts (rig : Rig σ ε) (s : Session σ) (key : String)
    (cs : List Candidate) (hkey : ∀ c ∈ cs, c.entity = key)
    (hholds : s.isRegistered key = false ∨ rig.policy.applyOnSubmit = false) (rest : List Call) :
    let all := cs.map Call.submit
    let one := (Candidate.newest? cs).toList.map Call.submit
    let left := rig.sessionAfter s one
    (rig.run s all).map Effect.answer
        = cs.map (fun c => if c.isCurrent then .ok .pending else mismatch c)
      ∧ (∀ e ∈ rig.run s all ++ rig.run s one, Event.tries e.trace = [])
      ∧ rig.sessionAfter s all = left
      ∧ (left.slot key).pending = (Candidate.newest? cs).or (s.slot key).pending
      ∧ rig.run s (all ++ rest) = rig.run s all ++ rig.run left rest
      ∧ rig.run s (one ++ rest) = rig.run s one ++ rig.run left rest := by
  intro all one left
  have hnewest : ∀ c ∈ (Candidate.newest? cs).toList, c.entity = key := by
    intro c hc
    exact hkey c (Candidate.of_newest? (Option.mem_toList.mp hc)).1
  obtain ⟨hanswers, hnone, hsession⟩ := run_submissions hkey hholds
  obtain ⟨-, hnone', hsession'⟩ := run_submissions hnewest hholds
  have hleft : rig.sessionAfter s all = left := by
    rw [hsession, Session.foldl_record_submit hkey]
    exact hsession'.symm
  refine ⟨hanswers, List.forall_mem_append.mpr ⟨hnone, hnone'⟩, hleft, ?_, ?_, ?_⟩
  · rw [← hleft]
    exact pending_after_submissions hkey hholds
  · rw [← hleft]
    exact run_submissions_append hkey hholds rest
  · exact run_submissions_append hnewest hholds rest

/-- Four candidates, of which the second and the last carry a wrong version, and then the base.  Under
a policy that does not apply on arrival the base may come first, and the candidate is asked for.  The
one write jumps to the third. -/
theorem newest_candidate_counts_of_four :
    let plain : Entity.Shape := ⟨none, [], .unit⟩
    let base := (Table.empty (.bare ⟨"S", 8, 8⟩)).define "a" plain 0x1000
    let patch := (Table.empty (.overlay ⟨"P", 8, 8⟩ 0 (.bare ⟨"S", 8, 8⟩))).override "a" plain
    let cs : List Candidate := [⟨"S", "1", some "1", patch 0x7000⟩, ⟨"S", "2", none, patch 0x7100⟩,
      ⟨"S", "3", some "3", patch 0x7200⟩, ⟨"S", "4", some "3", patch 0x7300⟩]
    let rig (policy : Policy) : Rig Nat String :=
      ⟨Machine.Arch.x86.trampoline, .counting none "", policy⟩
    let late : Policy := { applyOnSubmit := false }
    let registered := (rig late).sessionAfter (.fresh 0) [.register base]
    let jump : Try := ⟨0x1000, [0xb8, 0x00, 0x72, 0x00, 0x00, 0xff, 0xe0], true⟩
    (∀ c ∈ cs, c.entity = "S") ∧ (Session.fresh 0).isRegistered "S" = false
      ∧ ((rig {}).run (.fresh 0) (cs.map .submit)).map Effect.answer
        = [.ok .pending, .error (.version "S" "2" none), .ok .pending,
          .error (.version "S" "4" (some "3"))]
      ∧ (((rig {}).run (.fresh 0) (cs.map .submit ++ [.register base])).flatMap
        fun e => Event.tries e.trace) = [jump]
      ∧ registered.isRegistered "S" = true
      ∧ (((rig late).run registered (cs.map .submit ++ [.applyPending "S"])).flatMap
        fun e => Event.tries e.trace) = [jump] := by
  intro plain base patch cs rig late registered jump
  have hkey : ∀ c ∈ cs, c.entity = "S" := by decide
  obtain ⟨hanswers, hnone, -, -, hrun, -⟩ :=
    newest_candidate_counts (rig {}) (.fresh 0) "S" cs hkey (.inl rfl) [.register base]
  obtain ⟨-, hnone', -, -, hrun', -⟩ :=
    newest_candidate_counts (rig late) registered "S" cs hkey (.inr rfl) [.applyPending "S"]
  -- calls that try nothing can be left out of a count of tries
  have hskip (first rest : List (Effect Event (Session Nat) (Ending (PatchError String) Submission)))
      (h : ∀ e ∈ first, Event.tries e.trace = []) :
      ((first ++ rest).flatMap fun e => Event.tries e.trace)
        = rest.flatMap fun e => Event.tries e.trace := by
    rw [List.flatMap_append, List.flatMap_eq_nil_iff.mpr h, List.nil_append]
  refine ⟨hkey, rfl, hanswers, ?_, by decide, ?_⟩
  · rw [hrun, hskip _ _ fun e he => hnone e (List.mem_append_left _ he)]
    decide
  · rw [hrun', hskip _ _ fun e he => hnone' e (List.mem_append_left _ he)]
    decide

end Rig
end Hotswap
