import Mathlib.Data.List.Induction
import Mathlib.Data.List.Nodup
import Mathlib.Logic.Relation
import Hotswap.Proofs.Pairing

/-!
# What pairing reads of a patch

Pairing looks an operation of the base up in the patch by its name, and takes the first override that
it meets.  Of the operations of a patch nothing else is read: not where the others stand, nor what
they are.  Two patches of one layout in which the same overrides come first are paired alike, with
the same error if there is one (`Table.pairing_congr`).

The same is said once more in terms of what an author does to a table.  `Edit` has two rules.

    insert   an operation that is no override, that is of a name the base does not have, or that
             stands behind another override of its name
    swap     two neighbours, unless they override one name

Any number of edits, made or taken back, keeps the first overrides (`firstOverride_edits`).  There is
no other way to keep them: a table can be cut down to its first overrides (`exists_essential`), and
two such tables with the same overrides are reorderings of each other (`perm_of_essential`).
-/

namespace Hotswap.Entity

/-! ## Pairing depends on the first overrides -/

section Congruence
variable {base p q : Table}

theorem Table.pairOf_congr (hlayout : p.layout = q.layout) (earlier : List Pair)
    (old new : Operation) : base.pairOf p earlier old new = base.pairOf q earlier old new := by
  simp only [pairOf, hlayout]

theorem Table.pairsFrom_congr (hlayout : p.layout = q.layout) {olds : List Operation}
    (hsame : ∀ old ∈ olds, p.override? old.name = q.override? old.name) (earlier : List Pair) :
    base.pairsFrom p earlier olds = base.pairsFrom q earlier olds := by
  induction olds generalizing earlier with
  | nil => rfl
  | cons old olds ih =>
      obtain ⟨hold, hrest⟩ := List.forall_mem_cons.mp hsame
      rw [pairsFrom, pairsFrom, hold]
      cases q.override? old.name with
      | none => exact ih hrest earlier
      | some new =>
          simp only [pairOf_congr hlayout earlier old new]
          cases base.pairOf q earlier old new with
          | error cause => rfl
          | ok pair => simp only [ih hrest (earlier ++ [pair])]

theorem Table.pairing_congr (hlayout : p.layout = q.layout)
    (hsame : ∀ old ∈ base.operations, p.override? old.name = q.override? old.name) :
    base.pairing p = base.pairing q := by
  rw [pairing, pairing, hlayout, pairsFrom_congr hlayout hsame]

end Congruence

/-! ## The first override among the operations of a table -/

/-- Whether the operation is a replacement for the one called `name`. -/
def Operation.replaces (name : String) (op : Operation) : Bool :=
  op.role == .override && op.name == name

theorem Operation.replaces_iff {name : String} {op : Operation} :
    op.replaces name = true ↔ op.role = .override ∧ op.name = name := by
  rw [replaces, Bool.and_eq_true, beq_iff_eq, beq_iff_eq]

/-- The first replacement for the operation called `name`. -/
def firstOverride (ops : List Operation) (name : String) : Option Operation :=
  ops.find? fun op => op.replaces name

theorem Table.override?_eq_firstOverride (table : Table) (name : String) :
    table.override? name = firstOverride table.operations name := rfl

/-! ## Edits -/

/-- Behind the operations in `before`, pairing with `base` never gets to `op`. -/
inductive Operation.PassedOver (base : Table) (before : List Operation) (op : Operation) : Prop
  | unmarked : op.role ≠ .override → PassedOver base before op
  | unknown : (∀ old ∈ base.operations, old.name ≠ op.name) → PassedOver base before op
  | shadowed {first : Operation} :
      first ∈ before → first.role = .override → first.name = op.name → PassedOver base before op

/-- A change to the operations of a patch. -/
inductive Edit (base : Table) : List Operation → List Operation → Prop
  | insert {before after : List Operation} {op : Operation} :
      op.PassedOver base before → Edit base (before ++ after) (before ++ op :: after)
  | swap {before after : List Operation} {first second : Operation} :
      ¬ (first.role = .override ∧ second.role = .override ∧ first.name = second.name) →
      Edit base (before ++ first :: second :: after) (before ++ second :: first :: after)

/-- The tables come from each other by edits, each of them made or taken back. -/
abbrev Edits (base : Table) : List Operation → List Operation → Prop :=
  Relation.EqvGen (Edit base)

section Edits
variable {base : Table} {xs ys before after : List Operation} {op first second : Operation}

theorem firstOverride_insert (h : op.PassedOver base before) {old : Operation}
    (hold : old ∈ base.operations) :
    firstOverride (before ++ after) old.name = firstOverride (before ++ op :: after) old.name := by
  simp only [firstOverride, List.find?_append]
  cases hreplaces : op.replaces old.name with
  | false => rw [List.find?_cons_of_neg (Bool.eq_false_iff.mp hreplaces)]
  | true =>
      obtain ⟨hrole, hname⟩ := Operation.replaces_iff.mp hreplaces
      cases h with
      | unmarked hnot => exact absurd hrole hnot
      | unknown hnone => exact absurd hname.symm (hnone old hold)
      | shadowed hmem hrole' hname' =>
          have hfirst := Operation.replaces_iff.mpr ⟨hrole', hname'.trans hname⟩
          have hfound := List.find?_isSome.mpr ⟨_, hmem, hfirst⟩
          rw [Option.or_of_isSome hfound, Option.or_of_isSome hfound]

theorem firstOverride_swap
    (h : ¬ (first.role = .override ∧ second.role = .override ∧ first.name = second.name))
    (name : String) :
    firstOverride (before ++ first :: second :: after) name
      = firstOverride (before ++ second :: first :: after) name := by
  simp only [firstOverride, List.find?_append, List.find?_cons]
  cases hfirst : first.replaces name with
  | false => rfl
  | true =>
      cases hsecond : second.replaces name with
      | false => rfl
      | true =>
          obtain ⟨hrole, hname⟩ := Operation.replaces_iff.mp hfirst
          obtain ⟨hrole', hname'⟩ := Operation.replaces_iff.mp hsecond
          exact absurd ⟨hrole, hrole', hname.trans hname'.symm⟩ h

theorem firstOverride_edit (h : Edit base xs ys) {old : Operation}
    (hold : old ∈ base.operations) : firstOverride xs old.name = firstOverride ys old.name := by
  cases h with
  | insert hpassed => exact firstOverride_insert hpassed hold
  | swap hdiffer => exact firstOverride_swap hdiffer old.name

theorem firstOverride_edits (h : Edits base xs ys) {old : Operation}
    (hold : old ∈ base.operations) : firstOverride xs old.name = firstOverride ys old.name := by
  induction h with
  | rel _ _ hedit => exact firstOverride_edit hedit hold
  | refl _ => rfl
  | symm _ _ _ ih => exact ih.symm
  | trans _ _ _ _ _ ih ih' => exact ih.trans ih'

theorem Edit.append (h : Edit base xs ys) (rest : List Operation) :
    Edit base (xs ++ rest) (ys ++ rest) := by
  cases h with
  | insert hpassed =>
      rw [List.append_assoc, List.append_assoc]
      exact .insert hpassed
  | swap hdiffer =>
      rw [List.append_assoc, List.append_assoc]
      exact .swap hdiffer

theorem edits_append (h : Edits base xs ys) (rest : List Operation) :
    Edits base (xs ++ rest) (ys ++ rest) := by
  induction h with
  | rel _ _ hedit => exact .rel _ _ (hedit.append rest)
  | refl _ => exact .refl _
  | symm _ _ _ ih => exact .symm _ _ ih
  | trans _ _ _ _ _ ih ih' => exact .trans _ _ _ ih ih'

/-! ## Cutting a table down to its first overrides -/

/-- All operations are overrides of names that the base has, and of different ones. -/
structure Essential (base : Table) (ops : List Operation) : Prop where
  isOverride : ∀ op ∈ ops, op.role = .override
  known : ∀ op ∈ ops, ∃ old ∈ base.operations, old.name = op.name
  nodup : (ops.map Operation.name).Nodup

theorem Essential.concat (h : Essential base xs) (hop : ¬ op.PassedOver base xs) :
    Essential base (xs ++ [op]) := by
  have hrole : op.role = .override := Decidable.not_not.mp fun hnot => hop (.unmarked hnot)
  have hknown : ∃ old ∈ base.operations, old.name = op.name := by
    apply Decidable.not_not.mp
    intro hnone
    exact hop (.unknown fun old hold hname => hnone ⟨old, hold, hname⟩)
  refine ⟨fun x hx => ?_, fun x hx => ?_, ?_⟩
  · rcases List.mem_append.mp hx with hx | hx
    · exact h.isOverride x hx
    · exact List.mem_singleton.mp hx ▸ hrole
  · rcases List.mem_append.mp hx with hx | hx
    · exact h.known x hx
    · exact List.mem_singleton.mp hx ▸ hknown
  · rw [List.map_append, List.map_singleton, ← List.concat_eq_append]
    refine h.nodup.concat fun hmem => ?_
    obtain ⟨first, hfirst, hname⟩ := List.mem_map.mp hmem
    exact hop (.shadowed hfirst (h.isOverride first hfirst) hname)

theorem exists_essential (base : Table) (ops : List Operation) :
    ∃ rest, Edits base ops rest ∧ Essential base rest := by
  induction ops using List.reverseRecOn with
  | nil => exact ⟨[], .refl _, nofun, nofun, List.nodup_nil⟩
  | append_singleton ops op ih =>
      obtain ⟨rest, hedits, hrest⟩ := ih
      have hboth := edits_append hedits [op]
      by_cases hop : op.PassedOver base rest
      · -- the last operation goes: its insertion is taken back
        have hinsert : Edit base (rest ++ []) (rest ++ [op]) := .insert hop
        rw [List.append_nil] at hinsert
        exact ⟨rest, .trans _ _ _ hboth (.symm _ _ (.rel _ _ hinsert)), hrest⟩
      · exact ⟨rest ++ [op], hboth, hrest.concat hop⟩

theorem Essential.firstOverride_eq (h : Essential base xs) (hop : op ∈ xs) :
    firstOverride xs op.name = some op := by
  have hreplaces := Operation.replaces_iff.mpr ⟨h.isOverride op hop, rfl⟩
  have hfound : (firstOverride xs op.name).isSome := List.find?_isSome.mpr ⟨op, hop, hreplaces⟩
  obtain ⟨first, hfirst⟩ := Option.isSome_iff_exists.mp hfound
  have hname := (Operation.replaces_iff.mp (List.find?_some hfirst)).2
  rw [hfirst, List.inj_on_of_nodup_map h.nodup (List.mem_of_find?_eq_some hfirst) hop hname]

theorem Essential.subset (hxs : Essential base xs)
    (hsame : ∀ old ∈ base.operations, firstOverride xs old.name = firstOverride ys old.name) :
    xs ⊆ ys := by
  intro op hop
  obtain ⟨old, hold, hname⟩ := hxs.known op hop
  have hfound := hsame old hold
  rw [hname, hxs.firstOverride_eq hop] at hfound
  exact List.mem_of_find?_eq_some hfound.symm

theorem perm_of_essential (hxs : Essential base xs) (hys : Essential base ys)
    (hsame : ∀ old ∈ base.operations, firstOverride xs old.name = firstOverride ys old.name) :
    xs.Perm ys := by
  rw [List.perm_ext_iff_of_nodup hxs.nodup.of_map hys.nodup.of_map]
  exact fun op => ⟨fun h => hxs.subset hsame h,
    fun h => hys.subset (fun old hold => (hsame old hold).symm) h⟩

/-- Operations of different names may be reordered, one swap at a time. -/
theorem edits_of_perm (h : xs.Perm ys) (hnames : (xs.map Operation.name).Nodup) :
    Edits base (before ++ xs) (before ++ ys) := by
  induction h generalizing before with
  | nil => exact .refl _
  | @cons op tail tail' _ ih =>
      rw [List.append_cons before op tail, List.append_cons before op tail']
      exact ih (List.nodup_cons.mp hnames).2
  | swap first second rest =>
      refine .rel _ _ (.swap fun hsame => ?_)
      exact (List.nodup_cons.mp hnames).1 (hsame.2.2 ▸ List.mem_cons_self)
  | trans hperm _ ih ih' =>
      exact .trans _ _ _ (ih hnames) (ih' ((hperm.map Operation.name).nodup_iff.mp hnames))

theorem edits_of_firstOverride
    (hsame : ∀ old ∈ base.operations, firstOverride xs old.name = firstOverride ys old.name) :
    Edits base xs ys := by
  obtain ⟨xs', hxs, hessential⟩ := exists_essential base xs
  obtain ⟨ys', hys, hessential'⟩ := exists_essential base ys
  have hperm : xs'.Perm ys' := by
    refine perm_of_essential hessential hessential' fun old hold => ?_
    rw [← firstOverride_edits hxs hold, hsame old hold, firstOverride_edits hys hold]
  have hmiddle : Edits base ([] ++ xs') ([] ++ ys') := edits_of_perm hperm hessential.nodup
  exact .trans _ _ _ hxs (.trans _ _ _ hmiddle (.symm _ _ hys))

end Edits

/-- **Only the first override of each name of the base matters.**  Two patches of one layout in which
those are the same are paired alike, result or error.  So are two patches that come from each other
by edits, and these are just the patches with the same first overrides. -/
theorem Table.first_overrides_decide (base p q : Table) (hlayout : p.layout = q.layout) :
    let agree := ∀ old ∈ base.operations, p.override? old.name = q.override? old.name
    (agree → base.pairing p = base.pairing q)
    ∧ (Edits base p.operations q.operations → base.pairing p = base.pairing q)
    ∧ (agree ↔ Edits base p.operations q.operations) := by
  intro agree
  have hagree : agree ↔ Edits base p.operations q.operations := by
    simp only [agree, override?_eq_firstOverride]
    exact ⟨edits_of_firstOverride, fun hedits old hold => firstOverride_edits hedits hold⟩
  have hpairing : agree → base.pairing p = base.pairing q := pairing_congr hlayout
  exact ⟨hpairing, fun hedits => hpairing (hagree.mpr hedits), hagree⟩

/-- The second patch takes an operation over, overrides one that the base does not have, and
overrides `a` a second time with another signature. -/
theorem Table.first_overrides_decide_beside_others :
    let plain : Shape := ⟨none, [], .unit⟩
    let wide : Shape := ⟨none, [⟨"i64", 8, 8⟩], .unit⟩
    let base := ((empty (.bare ⟨"S", 8, 8⟩)).define "a" plain 1).define "b" plain 2
    let patch := empty (.overlay ⟨"P", 8, 8⟩ 0 (.bare ⟨"S", 8, 8⟩))
    let short := (patch.override "a" plain 3).override "b" plain 4
    let long := ((((patch.forward "a" plain 5).override "b" plain 4).override "a" plain 3).override
      "c" plain 6).override "a" wide 7
    short.layout = long.layout
      ∧ (∀ old ∈ base.operations, short.override? old.name = long.override? old.name)
      ∧ base.pairing short = .ok [⟨"a", 1, 3⟩, ⟨"b", 2, 4⟩]
      ∧ base.pairing long = .ok [⟨"a", 1, 3⟩, ⟨"b", 2, 4⟩]
      ∧ Edits base short.operations long.operations := by
  intro plain wide base patch short long
  have hagree : ∀ old ∈ base.operations, short.override? old.name = long.override? old.name :=
    List.forall_mem_cons.mpr ⟨rfl, List.forall_mem_singleton.mpr rfl⟩
  have hshort : base.pairing short = .ok [⟨"a", 1, 3⟩, ⟨"b", 2, 4⟩] := by decide
  obtain ⟨hpairing, -, hedits⟩ := first_overrides_decide base short long rfl
  exact ⟨rfl, hagree, hshort, (hpairing hagree).symm.trans hshort, hedits.mp hagree⟩

end Hotswap.Entity
