import Hotswap.Entity.Pairing

/-!
# Overlays

Whether one entity may be patched over another is decided from their layouts alone, and of the patch
only the first field is looked at.  Two things follow from that one field.

    it holds a whole layout           so there is one base for it, and the overlay has one layer
                                      more than its base (`layers`): no circle, nothing over itself
    it is as large as the overlay     so in an honest layout nothing is left for the other fields

`layers` counts how often a layout holds another at its front.  Every accepted overlay adds one
(`layers_of_isEmbeddedIn`), and so `n` of them, one over the other, add `n` (`layers_of_chain`).
-/

namespace Hotswap.Entity
namespace Layout

/-! ## Layers -/

/-- How many entities lie one in the other at the front of a layout. -/
def layers : Layout → Nat
  | ⟨_, ⟨_, _, _, some inner⟩ :: _⟩ => inner.layers + 1
  | _ => 0
termination_by structural layout => layout

section
variable {base other patch : Layout}

theorem layers_of_firstField {f : Field} (hfirst : patch.firstField = some f)
    (hholds : f.embedded = some base) : patch.layers = base.layers + 1 := by
  obtain ⟨type, fields⟩ := patch
  cases fields with
  | nil => cases hfirst
  | cons first rest =>
      cases hfirst
      obtain ⟨name, offset, type, embedded⟩ := f
      cases hholds
      rfl

theorem layers_of_isEmbeddedIn (h : base.isEmbeddedIn patch = true) :
    patch.layers = base.layers + 1 := by
  obtain ⟨f, hfirst, -, hholds⟩ := isEmbeddedIn_iff.mp h
  exact layers_of_firstField hfirst hholds

theorem eq_of_isEmbeddedIn (h : base.isEmbeddedIn patch = true)
    (h' : other.isEmbeddedIn patch = true) : base = other := by
  obtain ⟨f, hfirst, -, hholds⟩ := isEmbeddedIn_iff.mp h
  obtain ⟨g, hfirst', -, hholds'⟩ := isEmbeddedIn_iff.mp h'
  cases hfirst.symm.trans hfirst'
  exact Option.some.inj (hholds.symm.trans hholds')

theorem isEmbeddedIn_of_accepted (h : base.overlayFault? patch = none) :
    base.isEmbeddedIn patch = true :=
  isEmbeddedIn_iff.mpr (overlayFault?_eq_none_iff.mp h).1

theorem layers_of_chain {n : Nat} {l : Nat → Layout}
    (h : ∀ i < n, (l i).overlayFault? (l (i + 1)) = none) :
    (l n).layers = (l 0).layers + n := by
  induction n with
  | zero => rfl
  | succ n ih =>
      have hlast := layers_of_isEmbeddedIn (isEmbeddedIn_of_accepted (h n (Nat.lt_succ_self n)))
      have hbelow := ih fun i hi => h i (Nat.lt_succ_of_lt hi)
      rw [hlast, hbelow, Nat.add_assoc]

/-! ## Layouts that are turned away -/

theorem not_isEmbeddedIn_self (layout : Layout) : layout.isEmbeddedIn layout = false := by
  rw [← Bool.not_eq_true]
  intro h
  exact Nat.succ_ne_self _ (layers_of_isEmbeddedIn h).symm

/-- An overlay of an overlay does not hold the lowest base at its own front. -/
theorem not_isEmbeddedIn_of_two (h : base.isEmbeddedIn other = true)
    (h' : other.isEmbeddedIn patch = true) : base.isEmbeddedIn patch = false := by
  rw [← Bool.not_eq_true]
  intro hskips
  cases eq_of_isEmbeddedIn hskips h'
  exact Bool.false_ne_true ((not_isEmbeddedIn_self base).symm.trans h)

end
end Layout

theorem Table.pairing_of_not_isEmbeddedIn {base patch : Table}
    (h : base.layout.isEmbeddedIn patch.layout = false) :
    base.pairing patch = .error (.foreign base.layout.type patch.layout.type) := by
  rw [pairing, Layout.overlayFault?, h]
  rfl

/-! ## One base, and no circles -/

/-- **A layout lies over one base at most, and layouts never lie over each other in a circle**,
however deep they are.  So a table is no patch of a table with its own layout, and one that patches a
patch is none of what lies below; both are told that the base is not at their front. -/
theorem Layout.overlays_one_base_no_circle :
    (∀ base other patch : Layout, base.overlayFault? patch = none →
      other.overlayFault? patch = none → base = other)
    ∧ (∀ layout : Layout, layout.overlayFault? layout ≠ none)
    ∧ (∀ (n : Nat) (l : Nat → Layout), 1 ≤ n →
      (∀ i < n, (l i).overlayFault? (l (i + 1)) = none) → l n ≠ l 0)
    ∧ (∀ base patch : Table, base.layout = patch.layout →
      base.pairing patch = .error (.foreign base.layout.type patch.layout.type))
    ∧ ∀ lowest middle highest : Table, lowest.layout.overlayFault? middle.layout = none →
      middle.layout.overlayFault? highest.layout = none →
      lowest.layout.overlayFault? highest.layout ≠ none
      ∧ lowest.pairing highest = .error (.foreign lowest.layout.type highest.layout.type) := by
  have hcircle : ∀ (n : Nat) (l : Nat → Layout), 1 ≤ n →
      (∀ i < n, (l i).overlayFault? (l (i + 1)) = none) → l n ≠ l 0 := by
    intro n l hn hchain hback
    have hlayers := layers_of_chain hchain
    rw [hback] at hlayers
    omega
  refine ⟨fun base other patch h h' => ?_, fun layout h => ?_, hcircle, fun base patch hsame => ?_,
    fun lowest middle highest h h' => ?_⟩
  · exact eq_of_isEmbeddedIn (isEmbeddedIn_of_accepted h) (isEmbeddedIn_of_accepted h')
  · -- a layout over itself is a circle of one step
    exact hcircle 1 (fun _ => layout) (Nat.le_refl 1) (fun _ _ => h) rfl
  · apply Table.pairing_of_not_isEmbeddedIn
    rw [hsame]
    exact not_isEmbeddedIn_self patch.layout
  · have hskips := not_isEmbeddedIn_of_two (isEmbeddedIn_of_accepted h) (isEmbeddedIn_of_accepted h')
    refine ⟨fun hnone => ?_, Table.pairing_of_not_isEmbeddedIn hskips⟩
    exact Bool.false_ne_true (hskips.symm.trans (isEmbeddedIn_of_accepted hnone))

/-- An entity, its patch, and a patch of that patch. -/
theorem Layout.overlays_one_base_no_circle_three_high :
    let entity : Layout := (bare ⟨"S", 8, 8⟩).field "id" 0 ⟨"i64", 8, 8⟩
    let first : Layout := .overlay ⟨"P", 8, 8⟩ 0 entity
    let second : Layout := .overlay ⟨"Q", 8, 8⟩ 0 first
    entity.overlayFault? first = none ∧ first.overlayFault? second = none
      ∧ second.overlayFault? second ≠ none
      ∧ (Table.empty entity).pairing (.empty second)
        = .error (.foreign ⟨"S", 8, 8⟩ ⟨"Q", 8, 8⟩) := by
  intro entity first second
  have hfirst : entity.overlayFault? first = none := by decide
  have hsecond : first.overlayFault? second = none := by decide
  obtain ⟨-, hself, -, -, hskips⟩ := overlays_one_base_no_circle
  exact ⟨hfirst, hsecond, hself second,
    (hskips (.empty entity) (.empty first) (.empty second) hfirst hsecond).2⟩

/-! ## Storage -/

/-- The field takes up the byte at `x`, counted from the start of its entity. -/
def Field.Occupies (f : Field) (x : Nat) : Prop :=
  f.offset ≤ x ∧ x < f.offset + f.type.size

theorem Field.size_eq_zero_iff {f : Field} : f.type.size = 0 ↔ ∀ x, ¬ f.Occupies x := by
  constructor
  · rintro hempty x ⟨hle, hlt⟩
    rw [hempty, Nat.add_zero] at hlt
    exact Nat.not_lt_of_le hle hlt
  · intro hnone
    refine Nat.eq_zero_of_not_pos fun hpos => hnone f.offset ⟨Nat.le_refl _, ?_⟩
    exact Nat.lt_add_of_pos_right hpos

/-- A layout that is true of some entity: the fields lie inside it, no two of them share a byte, and
a field that holds an entity is as large as that entity. -/
structure Layout.Honest (layout : Layout) : Prop where
  inside : ∀ f ∈ layout.fields, ∀ x, f.Occupies x → x < layout.type.size
  apart : layout.fields.Pairwise fun f g => ∀ x, f.Occupies x → ¬ g.Occupies x
  measured : ∀ f ∈ layout.fields, ∀ inner, f.embedded = some inner →
    inner.type.size = f.type.size

theorem Layout.Honest.size_eq_zero {layout : Layout} (h : layout.Honest) {first f : Field}
    {rest : List Field} (hfields : layout.fields = first :: rest)
    (hfills : ∀ x, first.Occupies x ↔ x < layout.type.size) (hf : f ∈ rest) :
    f.type.size = 0 := by
  refine Field.size_eq_zero_iff.mpr fun x hx => ?_
  have hmem : f ∈ layout.fields := hfields ▸ List.mem_cons_of_mem first hf
  have hapart := h.apart
  rw [hfields, List.pairwise_cons] at hapart
  exact hapart.1 f hf x ((hfills x).mpr (h.inside f hmem x hx)) hx

/-- **An overlay adds no storage.**  The layout of a patch that is honest and accepted over some base
begins with a field that takes up the entity from its first byte to its last, and all its other
fields are empty. -/
theorem Layout.overlay_adds_no_storage {base patch : Layout} (hhonest : patch.Honest)
    (haccepted : base.overlayFault? patch = none) :
    ∃ first rest, patch.fields = first :: rest
      ∧ first.offset = 0 ∧ first.type.size = patch.type.size
      ∧ (∀ x, first.Occupies x ↔ x < patch.type.size)
      ∧ ∀ f ∈ rest, f.type.size = 0 := by
  obtain ⟨⟨first, hfirst, hoffset, hholds⟩, hsize, -⟩ := overlayFault?_eq_none_iff.mp haccepted
  obtain ⟨rest, hfields⟩ := List.head?_eq_some_iff.mp hfirst
  have hmem : first ∈ patch.fields := hfields ▸ List.mem_cons_self
  have hfull : first.type.size = patch.type.size :=
    (hhonest.measured first hmem base hholds).symm.trans hsize.symm
  have hfills : ∀ x, first.Occupies x ↔ x < patch.type.size := by
    intro x
    rw [Field.Occupies, hoffset, hfull, Nat.zero_add, and_iff_right (Nat.zero_le x)]
  exact ⟨first, rest, hfields, hoffset, hfull, hfills,
    fun f hf => hhonest.size_eq_zero hfields hfills hf⟩

/-- A patch entity that carries a marker without size behind its base. -/
theorem Layout.overlay_adds_no_storage_beside_marker :
    let entity : Layout := (bare ⟨"S", 8, 8⟩).field "id" 0 ⟨"i64", 8, 8⟩
    let marker : Field := ⟨"marker", 8, .unit, none⟩
    let patch : Layout := ((bare ⟨"P", 8, 8⟩).embed "base" 0 entity).field "marker" 8 .unit
    patch.Honest ∧ entity.overlayFault? patch = none ∧ marker ∈ patch.fields
      ∧ ∃ first rest, patch.fields = first :: rest ∧ first.type.size = 8
        ∧ ∀ f ∈ rest, f.type.size = 0 := by
  intro entity marker patch
  have hbase : ∀ x, Field.Occupies ⟨"base", 0, ⟨"S", 8, 8⟩, some entity⟩ x → x < 8 :=
    fun x hx => hx.2
  have hmarker : ∀ x, ¬ marker.Occupies x := Field.size_eq_zero_iff.mp rfl
  have hhonest : patch.Honest := by
    constructor
    · exact List.forall_mem_cons.mpr
        ⟨hbase, List.forall_mem_singleton.mpr fun x hx => absurd hx (hmarker x)⟩
    · exact List.pairwise_pair.mpr fun x _ => hmarker x
    · refine List.forall_mem_cons.mpr ⟨?_, List.forall_mem_singleton.mpr nofun⟩
      rintro inner hinner
      cases hinner
      rfl
  have haccepted : entity.overlayFault? patch = none := by decide
  obtain ⟨first, rest, hfields, -, hsize, -, hrest⟩ := overlay_adds_no_storage hhonest haccepted
  exact ⟨hhonest, haccepted, List.mem_cons_of_mem _ List.mem_cons_self, first, rest, hfields, hsize,
    hrest⟩

end Hotswap.Entity
