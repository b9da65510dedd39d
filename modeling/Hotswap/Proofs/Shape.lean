import Hotswap.Proofs.Pairing

/-!
# Tables of functions

Operations are described in two steps that know nothing of each other: `Shape.operation` writes down
the parameters of a function, with a receiver for a method, and `Table.pairing` compares what was
written down, receivers by the layouts of their tables.  Here the two are put together.  A `Twin` is
a function of a base entity with the function that is to replace it; the base table defines the one
and the table of an overlay overrides the other, in whatever order.

    Signature.Agrees      two methods or two free functions, of the same arguments and result
    the overlay           at offset zero, and of the size and alignment of the base

Pairing succeeds exactly if the overlay is one and all twins agree.  A receiver never stands in the
way: that of a method of the overlay starts with the base by construction (`fits_receiver`).
-/

namespace Hotswap.Entity

open Machine (Address)

/-! ## Functions and their replacements -/

/-- The type of a function, without the entity that it may be a method of. -/
structure Signature where
  isMethod : Bool
  arguments : List ValueType
  result : ValueType
deriving DecidableEq, Repr

/-- Both are methods or neither is, they take the same arguments, and they give the same result. -/
structure Signature.Agrees (old new : Signature) : Prop where
  isMethod : old.isMethod = new.isMethod
  arguments : old.arguments = new.arguments
  result : old.result = new.result

/-- The shape of a function that belongs to `owner`; if it is a method, then one of `owner`. -/
def Signature.on (signature : Signature) (owner : Layout) : Shape :=
  ⟨if signature.isMethod then some owner else none, signature.arguments, signature.result⟩

/-- A function of a base entity and the one that is to replace it. -/
structure Twin where
  name : String
  old : Signature
  oldEntry : Address
  new : Signature
  newEntry : Address
deriving DecidableEq, Repr

namespace Twin

def Agrees (t : Twin) : Prop :=
  t.old.Agrees t.new

/-- The replacement of the one function by the other, as operations of the two entities. -/
def replacement (t : Twin) (base patch : Layout) : Replacement :=
  ⟨(t.old.on base).operation .define t.name t.oldEntry,
    (t.new.on patch).operation .override t.name t.newEntry⟩

/-- The pair of the two functions. -/
def pair (t : Twin) : Pair :=
  ⟨t.name, t.oldEntry, t.newEntry⟩

end Twin

namespace Table

/-- The table of a base entity that defines these functions. -/
def defining (base : Layout) (twins : List Twin) : Table :=
  twins.foldl (fun table t => table.define t.name (t.old.on base) t.oldEntry) (empty base)

/-- The table of a patch entity that overrides these functions. -/
def overriding (patch : Layout) (twins : List Twin) : Table :=
  twins.foldl (fun table t => table.override t.name (t.new.on patch) t.newEntry) (empty patch)

theorem foldl_add {α : Type} (f : α → Operation) (xs : List α) (table : Table) :
    xs.foldl (fun table x => table.add (f x)) table
      = ⟨table.layout, table.operations ++ xs.map f⟩ := by
  induction xs generalizing table with
  | nil => rw [List.foldl_nil, List.map_nil, List.append_nil]
  | cons x xs ih =>
      rw [List.foldl_cons, ih, List.map_cons]
      simp only [add, List.append_assoc, List.singleton_append]

theorem defining_eq (base patch : Layout) (twins : List Twin) :
    defining base twins = ⟨base, twins.map fun t => (t.replacement base patch).old⟩ :=
  foldl_add (fun t : Twin => (t.replacement base patch).old) twins (empty base)

theorem overriding_eq (base patch : Layout) (twins : List Twin) :
    overriding patch twins = ⟨patch, twins.map fun t => (t.replacement base patch).new⟩ :=
  foldl_add (fun t : Twin => (t.replacement base patch).new) twins (empty patch)

end Table

/-! ## Signatures -/

section
variable {base patch : Layout}

/-- A unit result counts as none, and no other type does. -/
theorem Shape.returns_eq_iff {s t : Shape} : s.returns = t.returns ↔ s.result = t.result := by
  unfold returns
  split
  · rename_i hs
    split
    · rename_i ht
      exact iff_of_true rfl (hs.trans ht.symm)
    · rename_i ht
      exact iff_of_false (List.cons_ne_nil _ _).symm fun h => ht (h ▸ hs)
  · rename_i hs
    split
    · rename_i ht
      exact iff_of_false (List.cons_ne_nil _ _) fun h => hs (h.trans ht)
    · rw [List.cons.injEq, and_iff_left rfl]

theorem forall₂_fits_values {olds news : List ValueType} :
    List.Forall₂ (Param.Fits base patch) (olds.map .value) (news.map .value) ↔ olds = news := by
  rw [List.forall₂_map_left_iff, List.forall₂_map_right_iff]
  exact List.forall₂_eq_eq_eq ▸ Iff.rfl

theorem not_fits_values_receiver {olds : List ValueType} {owner : Layout} {rest : List Param} :
    ¬ List.Forall₂ (Param.Fits base patch) (olds.map .value) (Shape.receiver owner :: rest) := by
  intro h
  obtain ⟨old, olds', hfits, -, hsplit⟩ := List.forall₂_cons_right_iff.mp h
  obtain ⟨type, -, rfl⟩ := List.mem_map.mp (hsplit ▸ List.mem_cons_self)
  exact hfits

theorem not_fits_receiver_values {news : List ValueType} {owner : Layout} {rest : List Param} :
    ¬ List.Forall₂ (Param.Fits base patch) (Shape.receiver owner :: rest) (news.map .value) := by
  intro h
  obtain ⟨new, news', hfits, -, hsplit⟩ := List.forall₂_cons_left_iff.mp h
  obtain ⟨type, -, rfl⟩ := List.mem_map.mp (hsplit ▸ List.mem_cons_self)
  exact hfits

theorem Signature.params_on (signature : Signature) (owner : Layout) :
    (signature.on owner).params
      = if signature.isMethod then Shape.receiver owner :: signature.arguments.map .value
        else signature.arguments.map .value := by
  unfold on Shape.params
  split
  · rfl
  · rfl

theorem fits_receiver (base : Layout) (type : ValueType) (offset : Nat) :
    Param.Fits base (.overlay type offset base) (Shape.receiver base)
      (Shape.receiver (.overlay type offset base)) :=
  ⟨rfl, rfl, rfl⟩

/-- The parameters fit exactly if both functions are methods or neither is, and the arguments are
the same. -/
theorem Signature.forall₂_fits_iff (old new : Signature) (base : Layout) (type : ValueType)
    (offset : Nat) :
    List.Forall₂ (Param.Fits base (.overlay type offset base)) (old.on base).params
        (new.on (.overlay type offset base)).params
      ↔ old.isMethod = new.isMethod ∧ old.arguments = new.arguments := by
  rw [params_on, params_on]
  cases old.isMethod with
  | true =>
      cases new.isMethod with
      | true =>
          rw [if_pos rfl, if_pos rfl, List.forall₂_cons, and_iff_right (fits_receiver ..),
            forall₂_fits_values, and_iff_right rfl]
      | false =>
          rw [if_pos rfl, if_neg Bool.false_ne_true]
          exact iff_of_false not_fits_receiver_values fun h => Bool.false_ne_true h.1.symm
  | false =>
      cases new.isMethod with
      | true =>
          rw [if_neg Bool.false_ne_true, if_pos rfl]
          exact iff_of_false not_fits_values_receiver fun h => Bool.false_ne_true h.1
      | false =>
          rw [if_neg Bool.false_ne_true, if_neg Bool.false_ne_true, forall₂_fits_values,
            and_iff_right rfl]

theorem Twin.fits_iff (t : Twin) (base : Layout) (type : ValueType) (offset : Nat) :
    let r := t.replacement base (.overlay type offset base)
    Operation.Fits base (.overlay type offset base) r.old r.new ↔ t.Agrees := by
  intro r
  have hparams := t.old.forall₂_fits_iff t.new base type offset
  have hreturns : r.old.returns = r.new.returns ↔ t.old.result = t.new.result :=
    Shape.returns_eq_iff
  constructor
  · rintro ⟨hfits, hsame⟩
    obtain ⟨hmethod, harguments⟩ := hparams.mp hfits
    exact ⟨hmethod, harguments, hreturns.mp hsame⟩
  · rintro ⟨hmethod, harguments, hresult⟩
    exact ⟨hparams.mpr ⟨hmethod, harguments⟩, hreturns.mpr hresult⟩

end

/-! ## The replacements of two tables of functions -/

section
variable {base patch : Layout} {twins order : List Twin}

theorem Table.override?_overriding (base patch : Layout) (hnames : (order.map Twin.name).Nodup)
    {t : Twin} (ht : t ∈ order) :
    (overriding patch order).override? t.name = some (t.replacement base patch).new := by
  obtain ⟨before, after, rfl⟩ := List.append_of_mem ht
  rw [List.map_append, List.map_cons] at hnames
  rw [overriding_eq base, override?_eq_some_iff]
  refine ⟨rfl, rfl, before.map fun t => (t.replacement base patch).new,
    after.map fun t => (t.replacement base patch).new, ?_, ?_⟩
  · rw [List.map_append, List.map_cons]
  · rintro op hop ⟨-, hname⟩
    obtain ⟨u, hu, rfl⟩ := List.mem_map.mp hop
    exact (List.nodup_append.mp hnames).2.2 _ (List.mem_map_of_mem hu) _ List.mem_cons_self hname

theorem Table.replacements_of_twins (horder : order.Perm twins)
    (hnames : (twins.map Twin.name).Nodup) :
    (defining base twins).replacements (overriding patch order)
      = twins.map fun t => t.replacement base patch := by
  have hnames' : (order.map Twin.name).Nodup := (horder.map Twin.name).nodup_iff.mpr hnames
  rw [replacements, replacementsOf, defining_eq base patch, List.filterMap_map,
    ← List.filterMap_eq_map]
  refine List.filterMap_congr fun t ht => ?_
  have hfound := override?_overriding base patch hnames' (horder.mem_iff.mpr ht)
  exact congrArg (Option.map (Replacement.mk (t.replacement base patch).old)) hfound

end

/-! ## Overlays of a base -/

section
variable {base : Layout} {type : ValueType} {offset : Nat}

theorem Layout.isEmbeddedIn_overlay :
    base.isEmbeddedIn (.overlay type offset base) = (offset == 0) := by
  rw [show base.isEmbeddedIn (.overlay type offset base) = (offset == 0 && some base == some base)
    from rfl, beq_self_eq_true, Bool.and_true]

theorem Layout.isOverlay_overlay_iff :
    base.IsOverlay (.overlay type offset base)
      ↔ offset = 0 ∧ type.size = base.type.size ∧ type.align = base.type.align := by
  rw [IsOverlay, ← isEmbeddedIn_iff, isEmbeddedIn_overlay, beq_iff_eq]
  rfl

/-- What is wrong with the layout of an overlay: the offset comes before the size. -/
theorem Table.pairing_of_not_overlay {first second : Table} (hfirst : first.layout = base)
    (hsecond : second.layout = .overlay type offset base) :
    (offset ≠ 0 → first.pairing second = .error (.foreign base.type type))
    ∧ (offset = 0 → ¬ (type.size = base.type.size ∧ type.align = base.type.align) →
      first.pairing second = .error (.resized base.type type)) := by
  have htype : (Layout.overlay type offset base).type = type := rfl
  rw [pairing, hfirst, hsecond, Layout.overlayFault?, Layout.isEmbeddedIn_overlay, htype]
  constructor
  · intro hoffset
    rw [beq_false_of_ne hoffset]
    rfl
  · rintro rfl hsizes
    rw [if_pos (not_and_or.mp hsizes)]
    rfl

end

/-! ## Pairing functions -/

theorem Replacement.Fault.eq_signature {base patch : Table} {earlier : List Replacement}
    {r : Replacement} {e : PairingError} (h : r.Fault base patch earlier e)
    (hnot : ¬ Operation.Fits base.layout patch.layout r.old r.new) :
    ∃ misfit, e = .signature base.key misfit r.old r.new := by
  cases h with
  | signature _ _ => exact ⟨_, rfl⟩
  | unresolved hfits _ => exact absurd hfits hnot
  | aliased hfits _ _ _ => exact absurd hfits hnot

section
variable {base : Layout} {type : ValueType} {offset : Nat} {twins order : List Twin}

/-- Behind the twins before it, a twin can only be at fault for its types. -/
theorem Twin.sound_iff {before after : List Twin} {t : Twin}
    (hsplit : twins = before ++ t :: after)
    (hentries : ∀ t ∈ twins, t.oldEntry ≠ 0 ∧ t.newEntry ≠ 0)
    (hbases : (twins.map Twin.oldEntry).Nodup) :
    let patch := Layout.overlay type offset base
    Replacement.Sound (.defining base twins) (.overriding patch order)
        (before.map fun u => u.replacement base patch) (t.replacement base patch)
      ↔ t.Agrees := by
  intro patch
  have hfits := t.fits_iff base type offset
  rw [Table.defining_eq base patch, Table.overriding_eq base patch]
  constructor
  · intro hsound
    exact hfits.mp hsound.fits
  · intro hagrees
    refine ⟨hfits.mpr hagrees, hentries t ?_, fun first hfirst heq => ?_⟩
    · rw [hsplit]
      exact List.mem_append_right _ List.mem_cons_self
    · obtain ⟨u, hu, rfl⟩ := List.mem_map.mp hfirst
      rw [hsplit, List.map_append, List.map_cons] at hbases
      exact (List.nodup_append.mp hbases).2.2 _ (List.mem_map_of_mem hu) _ List.mem_cons_self heq

theorem allSound_twins_iff {before after : List Twin} (hsplit : twins = before ++ after)
    (hentries : ∀ t ∈ twins, t.oldEntry ≠ 0 ∧ t.newEntry ≠ 0)
    (hbases : (twins.map Twin.oldEntry).Nodup) :
    let patch := Layout.overlay type offset base
    AllSound (.defining base twins) (.overriding patch order) []
        (before.map fun t => t.replacement base patch)
      ↔ ∀ t ∈ before, t.Agrees := by
  intro patch
  constructor
  · intro hall t ht
    obtain ⟨first, rest, rfl⟩ := List.append_of_mem ht
    rw [List.append_assoc] at hsplit
    have hsound := hall (first.map fun t => t.replacement base patch) (t.replacement base patch)
      (rest.map fun t => t.replacement base patch) (by rw [List.map_append, List.map_cons])
    exact (Twin.sound_iff hsplit hentries hbases).mp hsound
  · intro hagree first r rest hmap
    obtain ⟨first, rest, rfl, rfl, hrest⟩ := List.map_eq_append_iff.mp hmap
    obtain ⟨t, rest, rfl, rfl, -⟩ := List.map_eq_cons_iff.mp hrest
    rw [List.append_assoc] at hsplit
    exact (Twin.sound_iff hsplit hentries hbases).mpr
      (hagree t (List.mem_append_right _ List.mem_cons_self))

/-- **Tables of functions pair exactly if the types agree.**  The base table defines functions of
the base, methods and free functions, under names and entries that all differ.  The patch table
overrides the same names, in any order, by functions of an overlay of the base.  No entry is zero.

    success                the overlay lies at offset zero, with the size and alignment of the base,
                           and all types agree; then there is one pair for each function, in the
                           order of the base
    the layout's error     the overlay lies elsewhere, or has another size or alignment
    a signature's error    the overlay is one; the error is that of the first function whose types
                           do not agree
-/
theorem Table.pairing_of_functions (base : Layout) (type : ValueType) (offset : Nat)
    (horder : order.Perm twins) (hnames : (twins.map Twin.name).Nodup)
    (hentries : ∀ t ∈ twins, t.oldEntry ≠ 0 ∧ t.newEntry ≠ 0)
    (hbases : (twins.map Twin.oldEntry).Nodup) :
    let patch := Layout.overlay type offset base
    let answer := (defining base twins).pairing (overriding patch order)
    (answer = .ok (twins.map Twin.pair)
      ↔ (offset = 0 ∧ type.size = base.type.size ∧ type.align = base.type.align)
        ∧ ∀ t ∈ twins, t.Agrees)
    ∧ (offset ≠ 0 → answer = .error (.foreign base.type type))
    ∧ (offset = 0 → ¬ (type.size = base.type.size ∧ type.align = base.type.align) →
      answer = .error (.resized base.type type))
    ∧ (offset = 0 ∧ type.size = base.type.size ∧ type.align = base.type.align →
      ¬ (∀ t ∈ twins, t.Agrees) →
      ∃ before t after misfit, twins = before ++ t :: after ∧ (∀ u ∈ before, u.Agrees)
        ∧ ¬ t.Agrees
        ∧ answer = .error (.signature base.key misfit (t.replacement base patch).old
          (t.replacement base patch).new)) := by
  intro patch answer
  have hreplacements : (defining base twins).replacements (overriding patch order)
      = twins.map fun t => t.replacement base patch := replacements_of_twins horder hnames
  have hall : AllSound (defining base twins) (overriding patch order) []
        (twins.map fun t => t.replacement base patch)
      ↔ ∀ t ∈ twins, t.Agrees :=
    allSound_twins_iff (List.append_nil twins).symm hentries hbases
  have hbase : (defining base twins).layout = base := by rw [defining_eq base patch]
  have hpatch : (overriding patch order).layout = patch := by rw [overriding_eq base patch]
  have hoverlay : (defining base twins).layout.IsOverlay (overriding patch order).layout
      ↔ offset = 0 ∧ type.size = base.type.size ∧ type.align = base.type.align := by
    rw [hbase, hpatch]
    exact Layout.isOverlay_overlay_iff
  obtain ⟨hforeign, hresized⟩ := pairing_of_not_overlay hbase hpatch
  refine ⟨?_, hforeign, hresized, fun hlies hdisagree => ?_⟩
  · rw [pairing_eq_ok_iff, hoverlay, hreplacements, hall, List.map_map]
    exact ⟨fun h => ⟨h.1, h.2.1⟩, fun h => ⟨h.1, h.2, rfl⟩⟩
  · rcases allSound_or_first (defining base twins) (overriding patch order) []
        (twins.map fun t => t.replacement base patch) with
      hsound | ⟨first, r, rest, hsplit, hfirst, hr⟩
    · exact absurd (hall.mp hsound) hdisagree
    · obtain ⟨e, he, hfault⟩ := pairsFrom_of_first (hreplacements.trans hsplit) hfirst hr
      obtain ⟨before, after, htwins, rfl, hrest⟩ := List.map_eq_append_iff.mp hsplit
      obtain ⟨t, after, rfl, rfl, -⟩ := List.map_eq_cons_iff.mp hrest
      have hnot : ¬ t.Agrees := fun h => hr ((Twin.sound_iff htwins hentries hbases).mpr h)
      have hagree := (allSound_twins_iff htwins hentries hbases).mp hfirst
      obtain ⟨misfit, rfl⟩ := hfault.eq_signature fun hfits => by
        rw [hbase, hpatch] at hfits
        exact hnot ((t.fits_iff base type offset).mp hfits)
      rw [List.map_nil, ← pairing_of_isOverlay (hoverlay.mpr hlies), key, hbase] at he
      exact ⟨before, t, after, misfit, htwins, hagree, hnot, he⟩

/-- The patch table lists its overrides the other way round.  One method takes another number of
arguments in the second pair of tables, and is named. -/
theorem Table.pairing_of_functions_in_other_order :
    let i64 : ValueType := ⟨"i64", 8, 8⟩
    let base := (Layout.bare ⟨"Sq", 8, 8⟩).field "id" 0 i64
    let patch := Layout.overlay ⟨"SqPatch", 8, 8⟩ 0 base
    let get : Twin := ⟨"GetId", ⟨true, [], i64⟩, 0x1000, ⟨true, [], i64⟩, 0x7000⟩
    let make : Twin := ⟨"Make", ⟨false, [], .unit⟩, 0x1100, ⟨false, [], .unit⟩, 0x7100⟩
    let set : Twin := ⟨"SetId", ⟨true, [i64], .unit⟩, 0x1200, ⟨true, [i64, .unit], .unit⟩, 0x7200⟩
    (defining base [get, make]).pairing (overriding patch [make, get])
        = .ok [⟨"GetId", 0x1000, 0x7000⟩, ⟨"Make", 0x1100, 0x7100⟩]
      ∧ ∃ misfit, (defining base [get, set]).pairing (overriding patch [set, get])
        = .error (.signature "Sq" misfit (set.replacement base patch).old
          (set.replacement base patch).new) := by
  intro i64 base patch get make set
  have hget : get.Agrees := ⟨rfl, rfl, rfl⟩
  have hmake : make.Agrees := ⟨rfl, rfl, rfl⟩
  constructor
  · refine (pairing_of_functions base ⟨"SqPatch", 8, 8⟩ 0 (.swap get make []) (by decide)
      (by decide) (by decide)).1.mpr ⟨⟨rfl, rfl, rfl⟩, ?_⟩
    exact List.forall_mem_cons.mpr ⟨hget, List.forall_mem_singleton.mpr hmake⟩
  · have hset : ¬ set.Agrees := fun h => absurd h.arguments (by decide)
    obtain ⟨before, t, after, misfit, hsplit, hbefore, ht, herror⟩ :=
      (pairing_of_functions base ⟨"SqPatch", 8, 8⟩ 0 (.swap get set []) (by decide)
        (by decide) (by decide)).2.2.2 ⟨rfl, rfl, rfl⟩
        fun h => hset (h set (List.mem_cons_of_mem _ List.mem_cons_self))
    have hmem : t ∈ [get, set] := by
      rw [hsplit]
      exact List.mem_append_right _ List.mem_cons_self
    rcases List.mem_cons.mp hmem with rfl | hmem
    · exact absurd hget ht
    · cases List.mem_singleton.mp hmem
      exact ⟨misfit, herror⟩

end

end Hotswap.Entity
