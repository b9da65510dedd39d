import Hotswap.Proofs.Session.History

/-!
# The status of a key against its writes

A status counts the calls that answered with a positive count.  One would like to read off it what
was written: nothing under a key that is unpatched, and otherwise as many applications that wrote
something as the status says.  An application that fails after its first write breaks both: its
trampolines stay, and the status does not move (`touched_and_not_counted`).

    touched   =   generation   +   stopped midway

is what holds instead (`status_counts_touched`), so the reading is right for a key exactly if no
application of it stopped midway.  Where it can stop is known as well: at a pair without a
trampoline, or at one that the writer refused.
-/

namespace Hotswap

open Entity (Table)

variable {σ ε : Type}

/-! ## Replies to calls that wrote something -/

namespace Reply

/-- The call is about `key`, and one of its writes was accepted. -/
def touches (r : Reply ε) (key : String) : Bool :=
  r.call.key? == some key && r.tries.any Try.accepted

/-- The call is about `key`, one of its writes was accepted, and then it failed. -/
def stopsMidway (r : Reply ε) (key : String) : Bool :=
  r.touches key && match r.answer with
    | .error _ => true
    | _ => false

theorem touches_iff {r : Reply ε} {key : String} :
    r.touches key = true ↔ r.call.key? = some key ∧ ∃ t ∈ r.tries, t.accepted = true := by
  rw [touches, Bool.and_eq_true, beq_iff_eq, List.any_eq_true]

theorem stopsMidway_iff {r : Reply ε} {key : String} :
    r.stopsMidway key = true ↔ r.touches key = true ∧ ∃ cause, r.answer = .error cause := by
  rw [stopsMidway, Bool.and_eq_true]
  refine and_congr_right fun _ => ?_
  cases r.answer with
  | ok outcome => simp
  | error cause => simp
  | aborted => simp

end Reply

namespace Rig

variable {rig : Rig σ ε} {s : Session σ} {call : Call} {key : String}

theorem tries_of_count {count : Nat} (h : (rig.perform s call).answer = .ok (.applied count)) :
    (Event.tries (rig.perform s call).trace).length = count
      ∧ ∀ t ∈ Event.tries (rig.perform s call).trace, t.accepted = true := by
  cases happlied : rig.applied s call with
  | none =>
      obtain ⟨hidles, htries, -⟩ := perform_of_not_applied happlied
      rw [h] at hidles
      rw [htries]
      cases hidles with
      | registered => exact ⟨rfl, nofun⟩
      | asked => exact ⟨rfl, nofun⟩
  | some tables =>
      obtain ⟨hanswer, htries, -⟩ := perform_of_applied happlied
      rw [h] at hanswer
      obtain ⟨pairs, -, hcount, haddress, haccepted⟩ :=
        (rig.apply_applies tables.1 tables.2 s.writer).of_ok
          (Ending.map_applied_eq_iff.mp hanswer.symm)
      rw [htries]
      refine ⟨?_, haccepted⟩
      rw [← List.length_map Try.address, haddress, List.length_map, hcount]

theorem tries_of_pending (h : (rig.perform s call).answer = .ok .pending) :
    Event.tries (rig.perform s call).trace = [] := by
  cases happlied : rig.applied s call with
  | none => exact (perform_of_not_applied happlied).2.1
  | some tables =>
      obtain ⟨hanswer, -⟩ := perform_of_applied happlied
      exact absurd (hanswer.symm.trans h) Ending.map_applied_ne_pending

theorem touches_eq_patches {outcome : Submission}
    (h : (rig.perform s call).answer = .ok outcome) :
    (rig.reply ⟨s, call⟩).touches key = (rig.reply ⟨s, call⟩).patches key := by
  rw [Bool.eq_iff_iff, Reply.touches_iff, Reply.patches_iff]
  refine and_congr_right fun _ => ?_
  simp only [reply, h]
  cases outcome with
  | pending =>
      rw [tries_of_pending h]
      constructor
      · rintro ⟨t, ht, -⟩
        exact absurd ht List.not_mem_nil
      · rintro ⟨count, hcount⟩
        cases hcount
  | applied count =>
      obtain ⟨hlength, haccepted⟩ := tries_of_count h
      constructor
      · rintro ⟨t, ht, -⟩
        have hpositive : 0 < count := hlength ▸ List.length_pos_of_mem ht
        exact ⟨count - 1, by rw [Nat.sub_add_cancel hpositive]⟩
      · rintro ⟨n, hn⟩
        cases hn
        obtain ⟨t, ht⟩ := List.exists_mem_of_length_eq_add_one hlength
        exact ⟨t, ht, haccepted t ht⟩

/-- A call touches its key if it patches it, or if it stops midway, and never both. -/
theorem countP_touches_reply (h : (rig.perform s call).answer ≠ .aborted) (key : String) :
    [rig.reply ⟨s, call⟩].countP (Reply.touches · key)
      = [rig.reply ⟨s, call⟩].countP (Reply.patches · key)
        + [rig.reply ⟨s, call⟩].countP (Reply.stopsMidway · key) := by
  cases hanswer : (rig.perform s call).answer with
  | aborted => exact absurd hanswer h
  | ok outcome =>
      have hgoes : (rig.reply ⟨s, call⟩).stopsMidway key = false := by
        rw [Bool.eq_false_iff, ne_eq, Reply.stopsMidway_iff]
        rintro ⟨-, cause, herror⟩
        cases hanswer.symm.trans herror
      simp only [List.countP_singleton, touches_eq_patches hanswer, hgoes]
      rfl
  | error cause =>
      have hnot : (rig.reply ⟨s, call⟩).patches key = false := by
        rw [Bool.eq_false_iff, ne_eq, Reply.patches_iff]
        rintro ⟨-, count, hcount⟩
        cases hanswer.symm.trans hcount
      have hstops : (rig.reply ⟨s, call⟩).stopsMidway key
          = (rig.reply ⟨s, call⟩).touches key := by
        rw [Bool.eq_iff_iff, Reply.stopsMidway_iff]
        exact and_iff_left ⟨cause, hanswer⟩
      simp only [List.countP_singleton, hnot, hstops]
      exact (Nat.zero_add _).symm

/-- An application stops midway for want of a trampoline, or because the writer refused one. -/
theorem answer_of_stopsMidway (h : (rig.reply ⟨s, call⟩).stopsMidway key = true) :
    (∃ cause, (rig.perform s call).answer = .error (.code cause))
      ∨ ∃ entity operation address cause,
        (rig.perform s call).answer = .error (.install entity operation address cause) := by
  obtain ⟨htouches, e, herror⟩ := Reply.stopsMidway_iff.mp h
  have herror : (rig.perform s call).answer = .error e := herror
  obtain ⟨-, t, ht, haccepted⟩ := Reply.touches_iff.mp htouches
  have ht : t ∈ Event.tries (rig.perform s call).trace := ht
  cases happlied : rig.applied s call with
  | none =>
      rw [(perform_of_not_applied happlied).2.1] at ht
      exact absurd ht List.not_mem_nil
  | some tables =>
      obtain ⟨hanswer, htries, -⟩ := perform_of_applied happlied
      rw [htries] at ht
      have happly := Ending.eq_error_of_map (hanswer.symm.trans herror)
      rw [herror]
      rcases (rig.apply_applies tables.1 tables.2 s.writer).cause_of_touched happly
        ⟨t, ht, haccepted⟩ with ⟨cause, rfl⟩ | ⟨operation, address, cause, rfl⟩
      · exact .inl ⟨cause, rfl⟩
      · exact .inr ⟨_, operation, address, cause, rfl⟩

/-! ## Runs -/

theorem reaches_of_not_abort (hpolicy : rig.policy.abortOnFault = false) (start : Session σ)
    (calls : List Call) :
    rig.Reaches start (rig.trail start calls) (rig.sessionAfter start calls) :=
  Reaches.start.of_run (run_ne_aborted hpolicy start calls)

theorem countP_touches_of_reaches {w : σ} {past : List (Moment σ)}
    (h : rig.Reaches (.fresh w) past s) (key : String) :
    (past.map rig.reply).countP (Reply.touches · key)
      = (past.map rig.reply).countP (Reply.patches · key)
        + (past.map rig.reply).countP (Reply.stopsMidway · key) := by
  induction h with
  | start => rfl
  | call call _ hgoes ih =>
      rw [List.map_append, List.map_singleton, List.countP_append, List.countP_append,
        List.countP_append, ih, countP_touches_reply hgoes key]
      omega

end Rig

theorem Status.toNat_generation_ofCount {count : Nat} (h : count < UInt32.size) :
    (ofCount count).generation.toNat = count := by
  cases count with
  | zero => rfl
  | succ count => exact UInt32.toNat_ofNat_of_lt h

/-- A count and some more are what the status of the count says, exactly if there is no more. -/
theorem Status.ofCount_exact_iff {count more : Nat} (h : count < UInt32.size) :
    ((ofCount count = .unpatched → count + more = 0)
        ∧ ∀ generation, ofCount count = .patched generation → count + more = generation.toNat)
      ↔ more = 0 := by
  cases count with
  | zero => simp [ofCount]
  | succ count =>
      have hgeneration : (UInt32.ofNat (count + 1)).toNat = count + 1 := UInt32.toNat_ofNat_of_lt h
      constructor
      · rintro ⟨-, hpatched⟩
        have hsame := hpatched _ rfl
        omega
      · rintro rfl
        constructor
        · intro hunpatched
          cases hunpatched
        · intro generation hpatched
          cases hpatched
          exact hgeneration.symm

/-- **What a status says about writes.**  For every encoder and writer, under every policy that does
not abort, and for every run from a fresh session: the applications of a key that got a write
accepted are those that its status counts and those that stopped midway.  So a key is unpatched only
if nothing was written under it, and patched as often as something was, exactly if no application of
it stopped midway.  One that did failed for want of a trampoline, or because a write was refused. -/
theorem Rig.status_counts_touched (rig : Rig σ ε) (w : σ) (calls : List Call)
    (hpolicy : rig.policy.abortOnFault = false) (key : String)
    (hfew : (rig.history (.fresh w) calls).countP (Reply.touches · key) < UInt32.size) :
    let history := rig.history (.fresh w) calls
    let status := (rig.sessionAfter (.fresh w) calls).status key
    history.countP (Reply.touches · key)
        = status.generation.toNat + history.countP (Reply.stopsMidway · key)
    ∧ ((status = .unpatched → ∀ r ∈ history, r.touches key = false)
        ∧ (∀ generation, status = .patched generation →
          history.countP (Reply.touches · key) = generation.toNat)
      ↔ ∀ r ∈ history, r.stopsMidway key = false)
    ∧ ∀ r ∈ history, r.stopsMidway key = true →
      (∃ cause, r.answer = .error (.code cause))
        ∨ ∃ entity operation address cause,
          r.answer = .error (.install entity operation address cause) := by
  intro history status
  have hreaches := reaches_of_not_abort hpolicy (.fresh w) calls
  have hhistory : history = (rig.trail (.fresh w) calls).map rig.reply :=
    rig.history_eq_map_trail (.fresh w) calls
  have hstatus : status = .ofCount (history.countP (Reply.patches · key)) := by
    rw [hhistory]
    exact status_of_reaches hreaches key
  have hsum : history.countP (Reply.touches · key)
      = history.countP (Reply.patches · key) + history.countP (Reply.stopsMidway · key) := by
    rw [hhistory]
    exact countP_touches_of_reaches hreaches key
  have hcount : history.countP (Reply.patches · key) < UInt32.size :=
    Nat.lt_of_le_of_lt (hsum ▸ Nat.le_add_right _ _) hfew
  have hnone (p : Reply ε → Bool) : (∀ r ∈ history, p r = false) ↔ history.countP p = 0 := by
    simp only [List.countP_eq_zero, Bool.not_eq_true]
  refine ⟨?_, ?_, ?_⟩
  · rw [hsum, hstatus, Status.toNat_generation_ofCount hcount]
  · rw [hnone (Reply.touches · key), hnone (Reply.stopsMidway · key), hsum, hstatus]
    exact Status.ofCount_exact_iff hcount
  · intro r hr hstops
    rw [hhistory] at hr
    obtain ⟨m, -, rfl⟩ := List.mem_map.mp hr
    exact answer_of_stopsMidway hstops

/-- The second of two writes is refused.  With one write accepted in all, the key is unpatched and
has a trampoline; with two, it is patched once and was written under twice. -/
theorem Rig.touched_and_not_counted :
    let plain : Entity.Shape := ⟨none, [], .unit⟩
    let base := ((Table.empty (.bare ⟨"S", 8, 8⟩)).define "a" plain 0x1000).define "b" plain 0x1100
    let half := (Table.empty (.overlay ⟨"P", 8, 8⟩ 0 (.bare ⟨"S", 8, 8⟩))).override "a" plain 0x7000
    let full := half.override "b" plain 0x7100
    let rig (limit : Nat) : Rig Nat String := ⟨Machine.Arch.x64.trampoline,
      .counting (some limit) "page is read-only", { abortOnFault := false }⟩
    let once : List Call := [.register base, .submit ⟨"S", "1", some "1", full⟩]
    let twice : List Call := [.register base, .submit ⟨"S", "1", some "1", half⟩,
      .submit ⟨"S", "2", some "2", full⟩]
    (((rig 1).sessionAfter (.fresh 0) once).status "S" = .unpatched
        ∧ ((rig 1).history (.fresh 0) once).countP (Reply.touches · "S") = 1)
      ∧ ((rig 2).sessionAfter (.fresh 0) twice).status "S" = .patched 1
        ∧ ((rig 2).history (.fresh 0) twice).countP (Reply.touches · "S") = 2 := by
  intro plain base half full rig once twice
  refine ⟨⟨?_, ?_⟩, ?_, ?_⟩
  · decide
  · decide
  · decide
  · decide

/-- A second patch is refused at its first write, and is neither counted nor written. -/
theorem Rig.status_counts_touched_refused :
    let plain : Entity.Shape := ⟨none, [], .unit⟩
    let base := (Table.empty (.bare ⟨"S", 8, 8⟩)).define "a" plain 0x1000
    let patch := (Table.empty (.overlay ⟨"P", 8, 8⟩ 0 (.bare ⟨"S", 8, 8⟩))).override "a" plain
    let rig : Rig Nat String := ⟨Machine.Arch.x64.trampoline,
      .counting (some 1) "page is read-only", { abortOnFault := false }⟩
    let calls : List Call := [.register base, .submit ⟨"S", "1", some "1", patch 0x7000⟩,
      .submit ⟨"S", "2", some "2", patch 0x7100⟩]
    let history := rig.history (.fresh 0) calls
    rig.policy.abortOnFault = false ∧ history.countP (Reply.touches · "S") = 1
      ∧ ((rig.sessionAfter (.fresh 0) calls).status "S").generation.toNat = 1
      ∧ ∀ r ∈ history, r.stopsMidway "S" = false := by
  intro plain base patch rig calls history
  have htouched : history.countP (Reply.touches · "S") = 1 := by decide
  have hstopped : history.countP (Reply.stopsMidway · "S") = 0 := by decide
  obtain ⟨hsum, -, -⟩ := status_counts_touched rig 0 calls rfl "S" (htouched ▸ by decide)
  refine ⟨rfl, htouched, ?_, ?_⟩
  · rw [htouched, hstopped] at hsum
    exact hsum.symm
  · simpa only [List.countP_eq_zero, Bool.not_eq_true] using hstopped

end Hotswap
