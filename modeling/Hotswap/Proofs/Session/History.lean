import Hotswap.Proofs.Session.Run

/-!
# What the answers tell about the registry

The callers of a session do not see its registry, only the answers to their calls.  That is enough
to know what the registry will say about a key:

    registered   some call registered a base under the key, whatever it answered
    waiting      the last accepted submission for the key was left waiting, and since then the key
                 was neither registered again nor asked for while it was registered
    patched      as often as a call about the key answered with a positive count

The right-hand sides are `History.Registered`, `History.Waits` and a count of `Reply.patches`.  They
read calls and answers and no session.  One call keeps each of the three (`isRegistered_perform`,
`isPending_perform`, `status_perform`), so a run does.

The count is that of all natural numbers, while a status holds 32 bits of it.
-/

namespace Hotswap

open Entity (Table)

variable {σ ε : Type}

/-! ## Replies and histories -/

/-- The key that a call is about; a direct application is about none. -/
def Call.key? : Call → Option String
  | .register table => some table.key
  | .submit c => some c.entity
  | .applyPending key => some key
  | .apply _ _ => none

/-- A call, its answer, and the writes that were handed over in between. -/
structure Reply (ε : Type) where
  call : Call
  answer : Ending (PatchError ε) Submission
  tries : List Try

/-- The replies to the calls made so far, the oldest first. -/
abbrev History (ε : Type) := List (Reply ε)

namespace Reply

/-- The call registers a base under `key`. -/
def Registers (r : Reply ε) (key : String) : Prop :=
  ∃ table, r.call = .register table ∧ table.key = key

/-- The call submits a candidate for `key`, and its version is not what the answer is about. -/
def Offers (r : Reply ε) (key : String) : Prop :=
  ∃ c, r.call = .submit c ∧ c.entity = key
    ∧ ∀ entity expected found, r.answer ≠ .error (.version entity expected found)

/-- The call is about `key`, and answers with a positive count. -/
def patches (r : Reply ε) (key : String) : Bool :=
  r.call.key? == some key && match r.answer with
    | .ok (.applied (_ + 1)) => true
    | _ => false

theorem patches_iff {r : Reply ε} {key : String} :
    r.patches key = true
      ↔ r.call.key? = some key ∧ ∃ count, r.answer = .ok (.applied (count + 1)) := by
  rw [patches, Bool.and_eq_true, beq_iff_eq]
  refine and_congr_right fun _ => ?_
  split
  · rename_i count hanswer
    exact ⟨fun _ => ⟨count, hanswer⟩, fun _ => rfl⟩
  · rename_i hother
    exact ⟨nofun, fun ⟨count, hanswer⟩ => absurd hanswer (hother count)⟩

end Reply

namespace History

/-- Some call registered a base under `key`. -/
def Registered (history : History ε) (key : String) : Prop :=
  ∃ r ∈ history, r.Registers key

/-- The last accepted submission for `key` was left waiting.  Since then no call registered a base
under `key`, and none asked for `key` while there was one. -/
def Waits (history : History ε) (key : String) : Prop :=
  ∃ before r after, history = before ++ r :: after ∧ r.Offers key ∧ r.answer = .ok .pending
    ∧ (∀ x ∈ after, ¬ x.Offers key ∧ ¬ x.Registers key)
    ∧ ∀ between x rest, after = between ++ x :: rest → x.call = .applyPending key →
        ¬ Registered (before ++ r :: between) key

section Snoc
variable {history : History ε} {r : Reply ε} {key : String}

theorem registered_snoc :
    Registered (history ++ [r]) key ↔ Registered history key ∨ r.Registers key := by
  constructor
  · rintro ⟨x, hx, hkey⟩
    rcases List.mem_append.mp hx with hx | hx
    · exact .inl ⟨x, hx, hkey⟩
    · cases List.mem_singleton.mp hx
      exact .inr hkey
  · rintro (⟨x, hx, hkey⟩ | hkey)
    · exact ⟨x, List.mem_append_left _ hx, hkey⟩
    · exact ⟨r, List.mem_append_right _ (List.mem_singleton_self r), hkey⟩

/-- A key waits after one call more if that call left its candidate waiting, or if the key waited
before and the call did nothing about it. -/
theorem waits_snoc :
    Waits (history ++ [r]) key
      ↔ (r.Offers key ∧ r.answer = .ok .pending)
        ∨ (Waits history key ∧ ¬ r.Offers key ∧ ¬ r.Registers key
          ∧ (r.call = .applyPending key → ¬ Registered history key)) := by
  constructor
  · rintro ⟨before, first, after, hsplit, hoffers, hpending, hquiet, hasked⟩
    -- the submission is the last call, or it lies before it and the last call left it alone
    rcases List.eq_nil_or_concat after with rfl | ⟨after, last, rfl⟩
    · obtain ⟨-, hlast⟩ := List.append_inj' hsplit rfl
      cases hlast
      exact .inl ⟨hoffers, hpending⟩
    · rw [List.concat_eq_append, ← List.cons_append, ← List.append_assoc] at hsplit
      obtain ⟨rfl, hlast⟩ := List.append_inj' hsplit rfl
      cases hlast
      rw [List.concat_eq_append] at hquiet hasked
      obtain ⟨hnot, hnot'⟩ := hquiet r (List.mem_append_right _ (List.mem_singleton_self r))
      refine .inr ⟨⟨before, first, after, rfl, hoffers, hpending, fun x hx => ?_, ?_⟩, hnot, hnot',
        hasked after r [] rfl⟩
      · exact hquiet x (List.mem_append_left _ hx)
      · intro between x rest hafter
        exact hasked between x (rest ++ [r]) (by rw [hafter, List.append_assoc, List.cons_append])
  · rintro (⟨hoffers, hpending⟩ | ⟨⟨before, first, after, rfl, hoffers, hpending, hquiet, hasked⟩,
      hnot, hnot', hlast⟩)
    · exact ⟨history, r, [], rfl, hoffers, hpending, fun x hx => absurd hx List.not_mem_nil,
        fun between x rest hsplit => absurd hsplit (by simp)⟩
    · refine ⟨before, first, after ++ [r], by simp, hoffers, hpending, fun x hx => ?_, ?_⟩
      · rcases List.mem_append.mp hx with hx | hx
        · exact hquiet x hx
        · cases List.mem_singleton.mp hx
          exact ⟨hnot, hnot'⟩
      · intro between x rest hsplit hcall
        rcases List.eq_nil_or_concat rest with rfl | ⟨rest, last, rfl⟩
        · obtain ⟨rfl, hx⟩ := List.append_inj' hsplit rfl
          cases hx
          exact hlast hcall
        · rw [List.concat_eq_append, ← List.cons_append, ← List.append_assoc] at hsplit
          obtain ⟨hsplit, -⟩ := List.append_inj' hsplit rfl
          exact hasked between x rest hsplit hcall

end Snoc
end History

/-! ## What an answer tells about its call -/

theorem Ending.map_applied_eq_iff {answer : Ending (PatchError ε) Nat} {count : Nat} :
    answer.map Submission.applied = .ok (.applied count) ↔ answer = .ok count := by
  cases answer with
  | ok count' => simp [map]
  | error cause => simp [map]
  | aborted => simp [map]

theorem Ending.map_applied_ne_pending {answer : Ending (PatchError ε) Nat} :
    answer.map Submission.applied ≠ .ok Submission.pending := by
  intro h
  cases answer with
  | ok count => cases h
  | error cause => cases h
  | aborted => cases h

namespace Rig

theorem Applies.ne_version {rig : Rig σ ε} {base patch : Table} {s s' : σ} {tries : List Try}
    {answer : Ending (PatchError ε) Nat} (h : rig.Applies base patch s tries answer s')
    {entity expected : String} {found : Option String} :
    answer ≠ .error (.version entity expected found) := by
  intro hanswer
  cases h with
  | rejected _ => cases hanswer
  | same _ _ => cases eq_of_raise hanswer
  | redirected _ _ _ => cases hanswer
  | aborted _ _ _ => cases hanswer
  | stopped _ _ hloop =>
      cases hanswer
      obtain ⟨_, _, _, _, -, -, hcause, -⟩ := hloop.of_harmless rfl rfl
      cases hcause

variable (rig : Rig σ ε)

/-- What the caller sees of a moment. -/
def reply (m : Moment σ) : Reply ε :=
  ⟨m.call, (rig.perform m.session m.call).answer,
    Event.tries (rig.perform m.session m.call).trace⟩

/-- What the caller sees of a run. -/
def history (s : Session σ) (calls : List Call) : History ε :=
  List.zipWith (fun call e => ⟨call, e.answer, Event.tries e.trace⟩) calls (rig.run s calls)

theorem history_eq_map_trail (s : Session σ) (calls : List Call) :
    rig.history s calls = (rig.trail s calls).map rig.reply := by
  rw [history, run_eq_map_trail, List.zipWith_map_right]
  induction calls generalizing s with
  | nil => rfl
  | cons call calls ih =>
      rw [trail, List.zipWith_cons_cons, List.map_cons]
      refine congrArg _ ?_
      cases (rig.perform s call).answer with
      | aborted => exact List.zipWith_nil_right
      | ok outcome => exact ih _
      | error cause => exact ih _

variable {rig} {s : Session σ} {call : Call} {key : String}

theorem key_of_settles (h : rig.settles s call = some key) : call.key? = some key := by
  cases call with
  | submit c => exact (Option.ite_none_right_eq_some.mp h).2
  | register table => exact h
  | applyPending key' => exact h
  | apply base patch => cases h

theorem settles_submit_iff {c : Candidate} :
    rig.settles s (.submit c) = some key
      ↔ (c.entity = key ∧ c.isCurrent) ∧ rig.policy.applyOnSubmit ∧ (s.slot key).base.isSome := by
  simp only [settles, Option.ite_none_right_eq_some, Bool.and_eq_true, Option.some.injEq]
  constructor
  · rintro ⟨⟨⟨hcurrent, hpolicy⟩, hbase⟩, rfl⟩
    exact ⟨⟨rfl, hcurrent⟩, hpolicy, hbase⟩
  · rintro ⟨⟨rfl, hcurrent⟩, hpolicy, hbase⟩
    exact ⟨⟨⟨hcurrent, hpolicy⟩, hbase⟩, rfl⟩

theorem isDirect_of_key (h : call.key? = some key) : call.isDirect = false := by
  cases call with
  | apply base patch => cases h
  | _ => rfl

theorem offers_reply_iff :
    (rig.reply ⟨s, call⟩).Offers key ↔ ∃ c, call.submitted? key = some c := by
  constructor
  · rintro ⟨c, hcall, hkey, hversion⟩
    cases hcall
    by_cases hcurrent : c.isCurrent
    · exact ⟨c, if_pos ⟨hkey, hcurrent⟩⟩
    · refine absurd ?_ (hversion c.entity c.moduleVersion c.version)
      simp only [reply, perform, submit, if_neg hcurrent, Effect.pure]
  · rintro ⟨c, hc⟩
    obtain ⟨hkey, hcurrent⟩ := Call.entity_of_submitted? hc
    cases call with
    | submit c' =>
        cases (Option.ite_none_right_eq_some.mp hc).2
        refine ⟨c, rfl, hkey, fun entity expected found hanswer => ?_⟩
        cases hhanded : rig.handed s (.submit c) with
        | some both =>
            obtain ⟨-, -, -, happly, -⟩ := perform_of_handed hhanded
            have herror := Ending.eq_error_of_map (happly.symm.trans hanswer)
            exact (rig.apply_applies both.1 both.2.table s.writer).ne_version herror
        | none =>
            obtain ⟨hidles, -⟩ := perform_of_not_handed rfl hhanded
            rw [show (rig.perform s (.submit c)).answer = _ from hanswer] at hidles
            cases hidles with
            | rejected hnot => exact hnot hcurrent
    | _ => cases hc

theorem answer_submit_eq_pending_iff {c : Candidate} (hcurrent : c.isCurrent) :
    (rig.perform s (.submit c)).answer = .ok .pending ↔ rig.settles s (.submit c) = none := by
  cases hsettles : rig.settles s (.submit c) with
  | some key =>
      obtain ⟨hanswer, -⟩ := perform_of_settles hsettles
      rw [hanswer]
      exact ⟨fun h => absurd h Ending.map_applied_ne_pending, nofun⟩
  | none =>
      obtain ⟨hidles, -⟩ := perform_of_not_settles rfl hsettles
      refine ⟨fun _ => rfl, fun _ => ?_⟩
      generalize (rig.perform s (.submit c)).answer = answer at hidles
      cases hidles with
      | waiting _ => rfl
      | rejected hnot => exact absurd hcurrent hnot

theorem handed_of_patches (h : (rig.reply ⟨s, call⟩).patches key = true) :
    rig.settles s call = some key ∧ (rig.handed s call).isSome := by
  obtain ⟨hkey, count, hanswer⟩ := Reply.patches_iff.mp h
  cases hhanded : rig.handed s call with
  | some both =>
      obtain ⟨key', hsettles, -⟩ := perform_of_handed hhanded
      have hsame : some key' = some key := (key_of_settles hsettles).symm.trans hkey
      exact ⟨hsettles.trans hsame, rfl⟩
  | none =>
      have hdirect : call.isDirect = false := isDirect_of_key hkey
      obtain ⟨hidles, -⟩ := perform_of_not_handed hdirect hhanded
      rw [show (rig.perform s call).answer = _ from hanswer] at hidles
      cases hidles

end Rig

theorem Slot.status_settled_ok (slot : Slot) (count : Nat) :
    (slot.settled (.ok (count + 1) : Ending (PatchError ε) Nat)).status = slot.status.advance := rfl

theorem Slot.status_settled_of_ne {slot : Slot} {answer : Ending (PatchError ε) Nat}
    (h : ∀ count, answer ≠ .ok (count + 1)) : (slot.settled answer).status = slot.status := by
  cases answer with
  | ok count =>
      cases count with
      | zero => rfl
      | succ count => exact absurd rfl (h count)
  | error cause => rfl
  | aborted => rfl

/-! ## What one call does to what is known about a key -/

namespace Rig

variable {rig : Rig σ ε} {s : Session σ} {call : Call} {key : String}

theorem status_record (s : Session σ) (call : Call) (key : String) :
    ((s.record call).slot key).status = (s.slot key).status := by
  cases call with
  | register table =>
      rw [Session.record, Session.slot_put]
      split
      · rename_i h
        rw [h]
      · rfl
  | submit c =>
      rw [Session.record]
      split
      · rw [Session.slot_put]
        split
        · rename_i h
          rw [h]
        · rfl
      · rfl
  | applyPending key' => rfl
  | apply base patch => rfl

theorem isRegistered_perform :
    (rig.perform s call).state.isRegistered key = true
      ↔ s.isRegistered key = true ∨ (rig.reply ⟨s, call⟩).Registers key := by
  have hregisters : (call.registered? key).isSome = true
      ↔ (rig.reply ⟨s, call⟩).Registers key := by
    cases call with
    | register table =>
        by_cases hkey : table.key = key
        · simp [Call.registered?, Reply.Registers, reply, hkey]
        · simp [Call.registered?, Reply.Registers, reply, hkey]
    | _ => simp [Call.registered?, Reply.Registers, reply]
  rw [Session.isRegistered, base_perform, Session.base_record, Option.isSome_or, Bool.or_eq_true,
    hregisters, or_comm]
  rfl

theorem pending_slot_perform (s : Session σ) (call : Call) (key : String) :
    ((rig.perform s call).state.slot key).pending
      = if rig.settles s call = some key ∧ ((s.record call).slot key).base.isSome then none
        else ((s.record call).slot key).pending := by
  rcases rig.slot_perform s call key with ⟨hsettles, base, c, hhanded, hslot⟩ | ⟨hnot, hslot⟩
  · obtain ⟨key', hsettles', hready, -⟩ := perform_of_handed hhanded
    cases hsettles.symm.trans hsettles'
    obtain ⟨hbase, -⟩ := Session.ready_eq_some_iff.mp hready
    rw [hslot, hbase, if_pos ⟨hsettles, rfl⟩]
    rfl
  · rw [hslot]
    split
    · rename_i hused
      obtain ⟨hsettles, hbase⟩ := hused
      obtain ⟨base, hbase⟩ := Option.isSome_iff_exists.mp hbase
      cases hpending : ((s.record call).slot key).pending with
      | none => rfl
      | some c =>
          have hready := Session.ready_eq_some_iff.mpr ⟨hbase, hpending⟩
          refine absurd ⟨hsettles, ?_⟩ hnot
          rw [handed, hsettles, Option.bind_some, hready]
          rfl
    · rfl

theorem isPending_submit_of_current {c : Candidate} (hcurrent : c.isCurrent) :
    (rig.perform s (.submit c)).state.isPending c.entity = true
      ↔ (rig.perform s (.submit c)).answer = .ok .pending := by
  have hregistered : (Call.submit c).registered? c.entity = none := rfl
  have hsubmitted : (Call.submit c).submitted? c.entity = some c := if_pos ⟨rfl, hcurrent⟩
  rw [Session.isPending, pending_slot_perform, Session.base_record, Session.pending_record,
    hregistered, hsubmitted, Option.none_or, answer_submit_eq_pending_iff hcurrent]
  cases hsettles : rig.settles s (.submit c) with
  | none =>
      have hnot : ¬ (none = some c.entity ∧ (s.slot c.entity).base.isSome) := by
        rintro ⟨h, -⟩
        cases h
      rw [if_neg hnot]
      exact ⟨fun _ => rfl, fun _ => rfl⟩
  | some key =>
      obtain ⟨⟨rfl, -⟩, -, hbase⟩ := settles_submit_iff.mp hsettles
      rw [if_pos ⟨rfl, hbase⟩]
      constructor
      · intro h
        exact absurd h Bool.false_ne_true
      · intro h
        cases h

theorem isPending_perform :
    (rig.perform s call).state.isPending key = true
      ↔ ((rig.reply ⟨s, call⟩).Offers key ∧ (rig.reply ⟨s, call⟩).answer = .ok .pending)
        ∨ (s.isPending key = true ∧ ¬ (rig.reply ⟨s, call⟩).Offers key
          ∧ ¬ (rig.reply ⟨s, call⟩).Registers key
          ∧ (call = .applyPending key → ¬ s.isRegistered key = true)) := by
  have hslot : (rig.perform s call).state.isPending key
      = (if rig.settles s call = some key
            ∧ ((call.registered? key).or (s.slot key).base).isSome then none
          else (call.submitted? key).or (s.slot key).pending).isSome := by
    rw [Session.isPending, pending_slot_perform, Session.base_record, Session.pending_record]
  rw [offers_reply_iff]
  cases call with
  | register table =>
      rw [hslot]
      by_cases hkey : table.key = key
      · simp [settles, Call.registered?, Call.submitted?, Reply.Registers, reply, hkey]
      · simp [settles, Call.submitted?, Reply.Registers, reply, hkey, Session.isPending]
  | applyPending key' =>
      rw [hslot]
      by_cases hkey : key' = key
      · subst hkey
        cases hbase : (s.slot key').base with
        | none => simp [Call.registered?, Call.submitted?, Reply.Registers, reply, hbase,
            Session.isPending, Session.isRegistered]
        | some base => simp [settles, Call.registered?, Call.submitted?, hbase,
            Session.isRegistered]
      · simp [settles, Call.submitted?, Reply.Registers, reply, hkey, Session.isPending]
  | apply base patch =>
      rw [hslot]
      simp [settles, Call.submitted?, Reply.Registers, reply, Session.isPending]
  | submit c =>
      by_cases hc : c.entity = key ∧ c.isCurrent
      · have hoffers : ∃ c', (Call.submit c).submitted? key = some c' := ⟨c, if_pos hc⟩
        obtain ⟨rfl, hcurrent⟩ := hc
        rw [isPending_submit_of_current hcurrent]
        constructor
        · intro hanswer
          exact .inl ⟨hoffers, hanswer⟩
        · rintro (⟨-, hanswer⟩ | ⟨-, hnot, -⟩)
          · exact hanswer
          · exact absurd hoffers hnot
      · have hsubmitted : (Call.submit c).submitted? key = none := if_neg hc
        rw [hslot, if_neg fun h => hc (settles_submit_iff.mp h.1).1, hsubmitted]
        simp [Reply.Registers, reply, Session.isPending]

/-- The status of a key advances exactly with the calls that patch it. -/
theorem status_perform (s : Session σ) (call : Call) (key : String) :
    (rig.perform s call).state.status key
      = if (rig.reply ⟨s, call⟩).patches key then (s.status key).advance else s.status key := by
  rcases rig.slot_perform s call key with ⟨hsettles, base, c, hhanded, hslot⟩ | ⟨hnot, hslot⟩
  · obtain ⟨key', hsettles', -, hanswer, -⟩ := perform_of_handed hhanded
    have hkey : (rig.reply ⟨s, call⟩).call.key? = some key := key_of_settles hsettles
    have hpatches : (rig.reply ⟨s, call⟩).patches key = true
        ↔ ∃ count, (rig.apply base c.table s.writer).answer = .ok (count + 1) := by
      rw [Reply.patches_iff, and_iff_right hkey, reply, hanswer]
      exact exists_congr fun count => Ending.map_applied_eq_iff
    rw [Session.status, hslot]
    by_cases h : (rig.reply ⟨s, call⟩).patches key = true
    · obtain ⟨count, happly⟩ := hpatches.mp h
      rw [if_pos h, happly, Slot.status_settled_ok, status_record]
      rfl
    · have hnone : ∀ count, (rig.apply base c.table s.writer).answer ≠ .ok (count + 1) :=
        fun count happly => h (hpatches.mpr ⟨count, happly⟩)
      rw [if_neg h, Slot.status_settled_of_ne hnone, status_record]
      rfl
  · rw [Session.status, hslot, status_record, if_neg fun h => hnot (handed_of_patches h)]
    rfl

end Rig

/-! ## What a run does -/

/-- The status after so many patches; it holds the low 32 bits of their number. -/
def Status.ofCount : Nat → Status
  | 0 => .unpatched
  | count + 1 => .patched (UInt32.ofNat (count + 1))

theorem Status.advance_ofCount (count : Nat) : (ofCount count).advance = ofCount (count + 1) := by
  cases count with
  | zero => rfl
  | succ count => rw [ofCount, advance, ofCount, UInt32.ofNat_add (count + 1) 1]; rfl

namespace Rig

variable {rig : Rig σ ε} {w : σ} {past : List (Moment σ)} {s : Session σ}

theorem isRegistered_of_reaches (h : rig.Reaches (.fresh w) past s) (key : String) :
    s.isRegistered key = true ↔ History.Registered (past.map rig.reply) key := by
  induction h with
  | start => exact ⟨nofun, fun ⟨_, hmem, _⟩ => absurd hmem List.not_mem_nil⟩
  | call call _ _ ih =>
      rw [isRegistered_perform, ih, List.map_append, List.map_singleton, History.registered_snoc]

theorem isPending_of_reaches (h : rig.Reaches (.fresh w) past s) (key : String) :
    s.isPending key = true ↔ History.Waits (past.map rig.reply) key := by
  induction h with
  | start => exact ⟨nofun, fun ⟨_, _, _, hsplit, _⟩ => absurd hsplit (by simp)⟩
  | call call hpast _ ih =>
      rw [isPending_perform, ih, isRegistered_of_reaches hpast key, List.map_append,
        List.map_singleton, History.waits_snoc]
      rfl

theorem status_of_reaches (h : rig.Reaches (.fresh w) past s) (key : String) :
    s.status key = .ofCount ((past.map rig.reply).countP (Reply.patches · key)) := by
  induction h with
  | start => rfl
  | call call _ _ ih =>
      rw [status_perform, ih, List.map_append, List.map_singleton, List.countP_append,
        List.countP_singleton]
      split
      · exact Status.advance_ofCount _
      · rfl

/-! ## Calls that the registry takes no notice of -/

/-- A direct application, asking for a base that is not there, and a submission that is rejected
for its version. -/
inductive PassesBy (rig : Rig σ ε) (s : Session σ) : Call → Prop
  | direct {base patch : Table} : PassesBy rig s (.apply base patch)
  | unregistered {key : String} : s.isRegistered key = false → PassesBy rig s (.applyPending key)
  | rejected {c : Candidate} {entity expected : String} {found : Option String} :
      (rig.perform s (.submit c)).answer = .error (.version entity expected found) →
      PassesBy rig s (.submit c)

theorem PassesBy.registry_perform {call : Call} (h : rig.PassesBy s call) :
    (rig.perform s call).state.registry = s.registry := by
  cases h with
  | @direct base patch => rw [(rig.perform_direct (s := s) base patch).2.1]
  | @unregistered key hbase =>
      have hready : s.ready key = none := by
        unfold Session.ready
        rw [Session.isRegistered, Option.isSome_eq_false_iff, Option.isNone_iff_eq_none] at hbase
        rw [hbase]
      rw [perform, Effect.next_pure, applyPending, settle_of_not_ready rig hready]
      rfl
  | @rejected c entity expected found hanswer =>
      have hnot : ¬ c.isCurrent := by
        intro hcurrent
        have hoffers : (rig.reply ⟨s, .submit c⟩).Offers c.entity :=
          offers_reply_iff.mpr ⟨c, if_pos ⟨rfl, hcurrent⟩⟩
        obtain ⟨-, -, -, hversion⟩ := hoffers
        exact hversion entity expected found hanswer
      rw [perform, submit, if_neg hnot]
      rfl

end Rig

/-- **What the answers tell about the registry.**  For every encoder, writer and policy, and every
run from a fresh session that the process survives: whether a key is registered, whether a candidate
waits for it and how often it was patched are read off the history of the run; and whatever call
comes next, if it is one of those that pass the registry by, all three stay for every key. -/
theorem Rig.registry_of_history (rig : Rig σ ε) (w : σ) (calls : List Call)
    (hgoes : ∀ e ∈ rig.run (.fresh w) calls, e.answer ≠ .aborted) (key : String) :
    let history := rig.history (.fresh w) calls
    let s := rig.sessionAfter (.fresh w) calls
    (s.isRegistered key = true ↔ history.Registered key)
    ∧ (s.isPending key = true ↔ history.Waits key)
    ∧ (history.countP (Reply.patches · key) = 0 → s.status key = .unpatched)
    ∧ (0 < history.countP (Reply.patches · key) →
      history.countP (Reply.patches · key) < UInt32.size →
      ∃ generation, s.status key = .patched generation
        ∧ generation.toNat = history.countP (Reply.patches · key))
    ∧ ∀ call, rig.PassesBy s call → ∀ other,
      (rig.perform s call).state.isRegistered other = s.isRegistered other
        ∧ (rig.perform s call).state.isPending other = s.isPending other
        ∧ (rig.perform s call).state.status other = s.status other := by
  intro history s
  have hreaches : rig.Reaches (.fresh w) (rig.trail (.fresh w) calls) s :=
    Reaches.start.of_run hgoes
  have hhistory : history = (rig.trail (.fresh w) calls).map rig.reply :=
    rig.history_eq_map_trail (.fresh w) calls
  have hstatus : s.status key = .ofCount (history.countP (Reply.patches · key)) := by
    rw [hhistory]
    exact status_of_reaches hreaches key
  refine ⟨?_, ?_, ?_, ?_, ?_⟩
  · rw [hhistory]
    exact isRegistered_of_reaches hreaches key
  · rw [hhistory]
    exact isPending_of_reaches hreaches key
  · intro hzero
    rw [hstatus, hzero]
    rfl
  · intro hpositive hfew
    obtain ⟨count, hcount⟩ := Nat.exists_eq_succ_of_ne_zero (Nat.ne_of_gt hpositive)
    rw [hcount] at hfew hstatus ⊢
    exact ⟨_, hstatus, UInt32.toNat_ofNat_of_lt hfew⟩
  · intro call hcall other
    have hslot : (rig.perform s call).state.slot other = s.slot other :=
      congrArg (fun r : Registry => r.slot other) hcall.registry_perform
    exact ⟨congrArg (fun slot : Slot => slot.base.isSome) hslot,
      congrArg (fun slot : Slot => slot.pending.isSome) hslot, congrArg Slot.status hslot⟩

/-- A candidate is applied as its base arrives.  Under a policy that does not apply on arrival the
next one waits, and goes on waiting when a third one is rejected for its version. -/
theorem Rig.registry_of_history_waiting :
    let plain : Entity.Shape := ⟨none, [], .unit⟩
    let base := (Table.empty (.bare ⟨"S", 8, 8⟩)).define "a" plain 0x1000
    let patch := (Table.empty (.overlay ⟨"P", 8, 8⟩ 0 (.bare ⟨"S", 8, 8⟩))).override "a" plain
    let rig : Rig Nat String :=
      ⟨Machine.Arch.x86.trampoline, .counting none "", { applyOnSubmit := false }⟩
    let calls : List Call := [.submit ⟨"S", "1", some "1", patch 0x2000⟩, .register base,
      .submit ⟨"S", "2", some "2", patch 0x3000⟩, .submit ⟨"S", "3", none, patch 0x4000⟩]
    let s := rig.sessionAfter (.fresh 0) calls
    (∀ e ∈ rig.run (.fresh 0) calls, e.answer ≠ .aborted)
      ∧ (rig.history (.fresh 0) calls).countP (Reply.patches · "S") = 1
      ∧ s.isRegistered "S" = true ∧ (rig.history (.fresh 0) calls).Waits "S"
      ∧ (∃ generation, s.status "S" = .patched generation ∧ generation.toNat = 1)
      ∧ (rig.perform s (.applyPending "T")).state.isPending "S" = true := by
  intro plain base patch rig calls s
  have hgoes : ∀ e ∈ rig.run (.fresh 0) calls, e.answer ≠ .aborted := by decide
  have hcount : (rig.history (.fresh 0) calls).countP (Reply.patches · "S") = 1 := by decide
  have hpending : s.isPending "S" = true := by decide
  obtain ⟨hregistered, hwaits, -, hpatched, hstays⟩ := registry_of_history rig 0 calls hgoes "S"
  have hpasses : rig.PassesBy s (.applyPending "T") := .unregistered (by decide)
  refine ⟨hgoes, hcount, hregistered.mpr ?_, hwaits.mp hpending, ?_, ?_⟩
  · exact ⟨_, List.mem_cons_of_mem _ List.mem_cons_self, base, rfl, rfl⟩
  · rw [hcount] at hpatched
    exact hpatched (by decide) (by decide)
  · exact (hstays _ hpasses "S").2.1.trans hpending

end Hotswap
