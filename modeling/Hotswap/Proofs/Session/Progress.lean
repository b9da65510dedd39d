import Hotswap.Proofs.Session.Layers

/-!
# How far an application gets

An application hands over trampolines for the first pairs, in order, and its answer tells where it
stopped and why.  With `done` the pairs that were tried and `rest` those that were not:

    ok          rest is empty                                   all tries accepted
    code        rest starts with the pair that has no code      all tries accepted
    install     done ends with the pair that is named           all but the last accepted

`Halts` has one rule for each line.  The loop ends by one of them (`Redirects.halts`), unless it
comes to a pair that would redirect a function to itself, and an application looks for such a pair
before it enters the loop.
-/

namespace Hotswap

open Machine (Arch CodeError)
open Entity (Pair Table)

variable {σ ε : Type}

theorem Ending.map_eq_ok_iff {α β : Type} {f : α → β} {ending : Ending ε α} {b : β} :
    ending.map f = .ok b ↔ ∃ a, ending = .ok a ∧ f a = b := by
  cases ending with
  | ok a => simp [map]
  | error cause => simp [map]
  | aborted => simp [map]

namespace Rig

/-- The tries are the trampolines of the pairs, one each, in order. -/
def Tried (rig : Rig σ ε) (done : List Pair) (tries : List Try) : Prop :=
  List.Forall₂ rig.Writes done (tries.map fun t => (t.address, t.bytes))

/-- How the loop ends that has tried the pairs `done` and leaves `rest`. -/
inductive Halts (rig : Rig σ ε) (entity : String) :
    (done rest : List Pair) → List Try → Ending (PatchError ε) Unit → Prop
  | finished {done : List Pair} {tries : List Try} :
      (∀ t ∈ tries, t.accepted = true) → Halts rig entity done [] tries (.ok ())
  | unreachable {done after : List Pair} {pair : Pair} {tries : List Try} {cause : CodeError} :
      (∀ t ∈ tries, t.accepted = true) → rig.encode pair.patch = .error cause →
      Halts rig entity done (pair :: after) tries (.error (.code cause))
  | refused {before rest : List Pair} {pair : Pair} {earlier : List Try} {last : Try} {cause : ε} :
      (∀ t ∈ earlier, t.accepted = true) → last.accepted = false →
      Halts rig entity (before ++ [pair]) rest (earlier ++ [last])
        (.error (.install entity pair.name pair.base cause))

variable {rig : Rig σ ε} {entity : String} {done rest pairs : List Pair} {pair : Pair}
  {tries : List Try} {t : Try} {answer : Ending (PatchError ε) Unit} {s s' : σ}

theorem Halts.cons (haccepted : t.accepted = true) (h : rig.Halts entity done rest tries answer) :
    rig.Halts entity (pair :: done) rest (t :: tries) answer := by
  have hall {tries : List Try} (h : ∀ t ∈ tries, t.accepted = true) :
      ∀ t' ∈ t :: tries, t'.accepted = true := by
    intro t' ht'
    rcases List.mem_cons.mp ht' with rfl | ht'
    · exact haccepted
    · exact h t' ht'
  cases h with
  | finished h => exact .finished (hall h)
  | unreachable h hcode => exact .unreachable (hall h) hcode
  | @refused before rest pair' earlier last cause h hlast =>
      show rig.Halts entity ((pair :: before) ++ [pair']) rest ((t :: earlier) ++ [last]) _
      exact .refused (hall h) hlast

theorem Redirects.halts (hpolicy : rig.policy.abortOnFault = false)
    (h : rig.Redirects entity pairs s tries answer s') (hdiffer : ∀ p ∈ pairs, p.base ≠ p.patch) :
    ∃ done rest, pairs = done ++ rest ∧ rig.Tried done tries
      ∧ rig.Halts entity done rest tries answer := by
  induction h with
  | done => exact ⟨[], [], rfl, .nil, .finished nofun⟩
  | @next pair pairs s s' code tries answer _ hcode _ _ ih =>
      obtain ⟨done, rest, rfl, htried, hhalts⟩ :=
        ih fun p hp => hdiffer p (List.mem_cons_of_mem _ hp)
      exact ⟨pair :: done, rest, rfl, .cons ⟨rfl, hcode⟩ htried, hhalts.cons rfl⟩
  | same hsame => exact absurd hsame (hdiffer _ List.mem_cons_self)
  | @unreachable pair pairs s cause _ hcode =>
      exact ⟨[], pair :: pairs, rfl, .nil, .unreachable nofun hcode⟩
  | @refused pair pairs s code cause _ hcode _ =>
      rw [raise_of_not_abort hpolicy]
      refine ⟨[pair], pairs, rfl, .cons ⟨rfl, hcode⟩ .nil, ?_⟩
      show rig.Halts entity ([] ++ [pair]) pairs ([] ++ [⟨pair.base, code, false⟩]) _
      exact .refused nofun rfl

/-- An application that enters the loop ends as the loop does, with the number of pairs for a
success. -/
theorem Applies.halts {base patch : Table} {answer : Ending (PatchError ε) Nat}
    (hpolicy : rig.policy.abortOnFault = false) (h : rig.Applies base patch s tries answer s')
    (hpairing : base.pairing patch = .ok pairs) (hdiffer : ∀ p ∈ pairs, p.base ≠ p.patch) :
    ∃ done rest ending, pairs = done ++ rest ∧ rig.Tried done tries
      ∧ rig.Halts base.key done rest tries ending ∧ answer = ending.map fun () => pairs.length := by
  cases h with
  | rejected hnot => cases hnot.symm.trans hpairing
  | same hpairing' hfound =>
      cases hpairing'.symm.trans hpairing
      have hsame := List.find?_some hfound
      exact absurd (beq_iff_eq.mp hsame) (hdiffer _ (List.mem_of_find?_eq_some hfound))
  | redirected hpairing' _ hloop =>
      cases hpairing'.symm.trans hpairing
      obtain ⟨done, rest, hsplit, htried, hhalts⟩ := hloop.halts hpolicy hdiffer
      exact ⟨done, rest, _, hsplit, htried, hhalts, rfl⟩
  | stopped hpairing' _ hloop =>
      cases hpairing'.symm.trans hpairing
      obtain ⟨done, rest, hsplit, htried, hhalts⟩ := hloop.halts hpolicy hdiffer
      exact ⟨done, rest, _, hsplit, htried, hhalts, rfl⟩
  | aborted _ _ hloop => exact absurd rfl (hloop.ne_aborted hpolicy)

theorem Applies.of_first_same {base patch : Table} {answer : Ending (PatchError ε) Nat}
    {before after : List Pair} (hpolicy : rig.policy.abortOnFault = false)
    (h : rig.Applies base patch s tries answer s') (hpairing : base.pairing patch = .ok pairs)
    (hsplit : pairs = before ++ pair :: after) (hbefore : ∀ p ∈ before, p.base ≠ p.patch)
    (hsame : pair.base = pair.patch) :
    answer = .error (.sameAddress base.key pair.name pair.base) ∧ tries = [] := by
  have hmem : pair ∈ pairs := by
    rw [hsplit]
    exact List.mem_append_right _ List.mem_cons_self
  cases h with
  | rejected hnot => cases hnot.symm.trans hpairing
  | @same _ pair' hpairing' hfound =>
      cases hpairing'.symm.trans hpairing
      have hnone : before.find? (fun p => p.base == p.patch) = none := by
        rw [List.find?_eq_none]
        intro p hp
        rw [beq_iff_eq]
        exact hbefore p hp
      have hfirst : pairs.find? (fun p => p.base == p.patch) = some pair := by
        rw [hsplit, List.find?_append, hnone, Option.none_or, List.find?_cons_of_pos]
        exact beq_iff_eq.mpr hsame
      cases hfound.symm.trans hfirst
      rw [raise_of_not_abort hpolicy]
      exact ⟨rfl, rfl⟩
  | redirected hpairing' hdiffer _ =>
      cases hpairing'.symm.trans hpairing
      exact absurd hsame (hdiffer pair hmem)
  | stopped hpairing' hdiffer _ =>
      cases hpairing'.symm.trans hpairing
      exact absurd hsame (hdiffer pair hmem)
  | aborted hpairing' hdiffer _ =>
      cases hpairing'.symm.trans hpairing
      exact absurd hsame (hdiffer pair hmem)

/-! ## What the answer tells -/

section Answer
variable (h : rig.Halts entity done rest tries answer)
include h

theorem Halts.ok_iff (htried : rig.Tried done tries) :
    answer = .ok () ↔ tries.length = (done ++ rest).length ∧ ∀ t ∈ tries, t.accepted = true := by
  have hlength : done.length = tries.length := by
    rw [htried.length_eq, List.length_map]
  cases h with
  | finished haccepted =>
      rw [List.append_nil]
      exact ⟨fun _ => ⟨hlength.symm, haccepted⟩, fun _ => rfl⟩
  | unreachable _ _ =>
      refine ⟨nofun, fun ⟨hall, _⟩ => ?_⟩
      rw [List.length_append, List.length_cons] at hall
      omega
  | @refused before rest pair earlier last cause _ hlast =>
      refine ⟨nofun, fun ⟨_, haccepted⟩ => ?_⟩
      have hlast' := haccepted last (List.mem_append_right _ (List.mem_singleton_self last))
      cases hlast.symm.trans hlast'

theorem Halts.count_iff (htried : rig.Tried done tries) {n : Nat} :
    answer.map (fun () => (done ++ rest).length) = .ok n
      ↔ n = (done ++ rest).length ∧ tries.length = n ∧ ∀ t ∈ tries, t.accepted = true := by
  rw [Ending.map_eq_ok_iff]
  constructor
  · rintro ⟨⟨⟩, hok, rfl⟩
    obtain ⟨hlength, haccepted⟩ := (h.ok_iff htried).mp hok
    exact ⟨rfl, hlength, haccepted⟩
  · rintro ⟨rfl, hlength, haccepted⟩
    exact ⟨(), (h.ok_iff htried).mpr ⟨hlength, haccepted⟩, rfl⟩

theorem Halts.of_install {key operation : String} {address : Machine.Address} {cause : ε}
    (hanswer : answer = .error (.install key operation address cause)) :
    ∃ before pair earlier last, done = before ++ [pair] ∧ tries = earlier ++ [last]
      ∧ (∀ t ∈ earlier, t.accepted = true) ∧ last.accepted = false
      ∧ key = entity ∧ operation = pair.name ∧ address = pair.base := by
  cases h with
  | finished _ => cases hanswer
  | unreachable _ _ => cases hanswer
  | @refused before rest pair earlier last cause haccepted hlast =>
      cases hanswer
      exact ⟨before, pair, earlier, last, rfl, rfl, haccepted, hlast, rfl, rfl, rfl⟩

theorem Halts.of_code {cause : CodeError} (hanswer : answer = .error (.code cause)) :
    (∀ t ∈ tries, t.accepted = true)
      ∧ ∃ pair after, rest = pair :: after ∧ rig.encode pair.patch = .error cause := by
  cases h with
  | finished _ => cases hanswer
  | @unreachable done after pair tries cause haccepted hcode =>
      cases hanswer
      exact ⟨haccepted, pair, after, rfl, hcode⟩
  | refused _ _ => cases hanswer

theorem Halts.ok_or_error :
    answer = .ok () ∨ (∃ cause, answer = .error (.code cause))
      ∨ ∃ key operation address cause, answer = .error (.install key operation address cause) := by
  cases h with
  | finished _ => exact .inl rfl
  | unreachable _ _ => exact .inr (.inl ⟨_, rfl⟩)
  | refused _ _ => exact .inr (.inr ⟨_, _, _, _, rfl⟩)

end Answer
end Rig

/-- A function is not redirected to itself by a pair of two functions. -/
theorem Writer.redirect_ne_sameAddress {writer : Writer σ ε} {encode : Encoder} {pair : Pair}
    (h : pair.base ≠ pair.patch) (s : σ) (address : Machine.Address) :
    (writer.redirect encode pair.base pair.patch s).answer ≠ .error (.sameAddress address) := by
  intro hsame
  cases hcode : encode pair.patch with
  | error cause =>
      simp only [redirect, if_neg h, hcode, Effect.answer_pure] at hsame
      cases hsame
  | ok code =>
      rw [(writer.redirect_of_code (s := s) h hcode).1] at hsame
      cases hwrite : (writer.write pair.base code s).answer with
      | ok _ =>
          rw [hwrite] at hsame
          cases hsame
      | error cause =>
          rw [hwrite] at hsame
          cases hsame

/-- **An application tries the first pairs and answers where it stopped.**  For every instruction
set, writer and policy that does not abort, and for all tables:

* tables that do not pair up, and pairs one of which leads back to itself, are answered for as
  such, and nothing is tried;
* otherwise the tries are the trampolines of the first pairs.  The answer is a count exactly if
  every pair was tried and every try accepted, and the count is the number of pairs.  A refused
  write is the last try, and the error names its pair.  If there is no trampoline to a destination,
  its pair is the one after those that were tried, all of them with success.  There are no other
  answers, and no pair is ever found to be of one function with itself while it is redirected. -/
theorem Rig.apply_tries_prefix (arch : Arch) (writer : Writer σ ε) (policy : Policy)
    (hpolicy : policy.abortOnFault = false) (base patch : Table) (s : σ) :
    let rig : Rig σ ε := ⟨arch.trampoline, writer, policy⟩
    let e := rig.apply base patch s
    let tries := Event.tries e.trace
    (∀ cause, base.pairing patch = .error cause →
      e.answer = .error (.pairing cause) ∧ tries = [])
    ∧ ∀ pairs, base.pairing patch = .ok pairs →
      (∀ before pair after, pairs = before ++ pair :: after → (∀ p ∈ before, p.base ≠ p.patch) →
        pair.base = pair.patch →
        e.answer = .error (.sameAddress base.key pair.name pair.base) ∧ tries = [])
      ∧ ((∀ p ∈ pairs, p.base ≠ p.patch) →
        (∀ p ∈ pairs, ∀ s' address,
          (writer.redirect arch.trampoline p.base p.patch s').answer
            ≠ .error (.sameAddress address))
        ∧ ∃ done rest, pairs = done ++ rest ∧ rig.Tried done tries
          ∧ (∀ n, e.answer = .ok n
            ↔ n = pairs.length ∧ tries.length = n ∧ ∀ t ∈ tries, t.accepted = true)
          ∧ (∀ entity operation address cause,
            e.answer = .error (.install entity operation address cause) →
            ∃ before pair earlier last, done = before ++ [pair] ∧ tries = earlier ++ [last]
              ∧ (∀ t ∈ earlier, t.accepted = true) ∧ last.accepted = false
              ∧ entity = base.key ∧ operation = pair.name ∧ address = pair.base)
          ∧ (∀ cause, e.answer = .error (.code cause) →
            (∀ t ∈ tries, t.accepted = true)
            ∧ ∃ pair after, rest = pair :: after ∧ arch.trampoline pair.patch = .error cause)
          ∧ ((∃ n, e.answer = .ok n) ∨ (∃ cause, e.answer = .error (.code cause))
            ∨ ∃ entity operation address cause,
              e.answer = .error (.install entity operation address cause))) := by
  intro rig e tries
  have happlies : rig.Applies base patch s tries e.answer e.state := rig.apply_applies base patch s
  constructor
  · intro cause hpairing
    obtain ⟨hanswer, htries, -⟩ := happlies.of_rejected hpairing
    exact ⟨hanswer, htries⟩
  · intro pairs hpairing
    constructor
    · intro before pair after hsplit hbefore hsame
      exact happlies.of_first_same hpolicy hpairing hsplit hbefore hsame
    · intro hdiffer
      obtain ⟨done, rest, ending, rfl, htried, hhalts, hanswer⟩ :=
        happlies.halts hpolicy hpairing hdiffer
      rw [hanswer]
      refine ⟨fun p hp s' address => Writer.redirect_ne_sameAddress (hdiffer p hp) s' address,
        done, rest, rfl, htried, fun n => hhalts.count_iff htried, ?_, ?_, ?_⟩
      · intro key operation address cause herror
        exact hhalts.of_install (Ending.eq_error_of_map herror)
      · intro cause herror
        exact hhalts.of_code (Ending.eq_error_of_map herror)
      · rcases hhalts.ok_or_error with rfl | ⟨cause, rfl⟩ | ⟨key, operation, address, cause, rfl⟩
        · exact .inl ⟨_, rfl⟩
        · exact .inr (.inl ⟨cause, rfl⟩)
        · exact .inr (.inr ⟨key, operation, address, cause, rfl⟩)

/-- The writer is full after one write.  The second pair is the one that is named, its try the last
and the only one refused, and the third pair is left. -/
theorem Rig.apply_tries_prefix_refused :
    let plain : Entity.Shape := ⟨none, [], .unit⟩
    let base := (((Table.empty (.bare ⟨"S", 8, 8⟩)).define "a" plain 0x1000).define "b" plain
      0x1100).define "c" plain 0x1200
    let patch := (((Table.empty (.overlay ⟨"P", 8, 8⟩ 0 (.bare ⟨"S", 8, 8⟩))).override "a" plain
      0x7000).override "b" plain 0x7100).override "c" plain 0x7200
    let rig : Rig Nat String :=
      ⟨Arch.trampoline .x64, .counting (some 1) "full", { abortOnFault := false }⟩
    let e := rig.apply base patch 0
    e.answer = .error (.install "S" "b" 0x1100 "full")
      ∧ ∃ done rest, done ++ rest = [⟨"a", 0x1000, 0x7000⟩, ⟨"b", 0x1100, 0x7100⟩,
          ⟨"c", 0x1200, 0x7200⟩]
        ∧ rig.Tried done (Event.tries e.trace)
        ∧ ∃ before pair earlier last, done = before ++ [pair]
          ∧ Event.tries e.trace = earlier ++ [last] ∧ (∀ t ∈ earlier, t.accepted = true)
          ∧ last.accepted = false ∧ pair.name = "b" := by
  intro plain base patch rig e
  have hanswer : e.answer = .error (.install "S" "b" 0x1100 "full") := by decide
  obtain ⟨-, hpairs⟩ := apply_tries_prefix .x64 (.counting (some 1) "full")
    { abortOnFault := false } rfl base patch 0
  obtain ⟨-, hpairs⟩ := hpairs [⟨"a", 0x1000, 0x7000⟩, ⟨"b", 0x1100, 0x7100⟩,
    ⟨"c", 0x1200, 0x7200⟩] (by decide)
  obtain ⟨-, done, rest, hsplit, htried, -, hinstall, -⟩ := hpairs (by decide)
  obtain ⟨before, pair, earlier, last, hdone, htries, haccepted, hlast, -, hname, -⟩ :=
    hinstall _ _ _ _ hanswer
  exact ⟨hanswer, done, rest, hsplit.symm, htried, before, pair, earlier, last, hdone, htries,
    haccepted, hlast, hname.symm⟩

end Hotswap
