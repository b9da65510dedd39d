import Mathlib.Data.List.Forall2
import Hotswap.Entity.Pairing

/-!
# Pairing against its specification

`Table.pairing` walks the operations of the base once, looks each one up in the patch, checks what
it finds against the pairs made so far, and stops at the first fault.  The specification here has no
walk in it.  It is a list, read off the two tables, and a predicate on each place of that list:

    Replaces       the base operations that the patch overrides, in the order of the base, each
                   with the first override of its name; there is one such list, `replacements`
    Sound          signatures fit, both entries are resolved, no earlier replacement has the entry

**Proved here.**

    a patch that is no overlay of the base is rejected for its layout, whatever it overrides
    every replacement sound      ⟺   the pairs are those of the replacements, one each, in order
    the first one that is not    ⟹   its own error: signature, then entries, then alias

`Fits` is the signature check without positions and without reasons
(`Operation.misfit?_eq_none_iff`).
-/

namespace Hotswap.Entity

open Machine (Address)

/-! ## Signatures that fit -/

/-- `new` may stand where `old` stood: two receivers, each the entity of its own table and the new
one starting with the old one, or two values of one type. -/
def Param.Fits (base patch : Layout) : Param → Param → Prop
  | .receiver pointee _, .receiver newPointee firstField =>
    pointee = base.type ∧ newPointee = patch.type ∧ firstField = some pointee
  | .value old, .value new => old = new
  | _, _ => False

/-- The parameters fit position by position, and the returned types are the same. -/
def Operation.Fits (base patch : Layout) (old new : Operation) : Prop :=
  List.Forall₂ (Param.Fits base patch) old.params new.params ∧ old.returns = new.returns

section Signature
variable {base patch : Layout}

theorem Param.misfit?_eq_none_iff {position : Nat} {old new : Param} :
    old.misfit? base patch position new = none ↔ Param.Fits base patch old new := by
  cases old with
  | receiver pointee first =>
      cases new with
      | receiver newPointee firstField => simp [Param.misfit?, Param.Fits]
      | value type => simp [Param.misfit?, Param.Fits]
  | value type =>
      cases new with
      | receiver newPointee firstField => simp [Param.misfit?, Param.Fits]
      | value newType => simp [Param.misfit?, Param.Fits]

theorem paramsMisfit?_eq_none_iff :
    ∀ {position : Nat} {olds news : List Param}, olds.length = news.length →
      (paramsMisfit? base patch position olds news = none
        ↔ List.Forall₂ (Param.Fits base patch) olds news)
  | _, [], [], _ => by simp [paramsMisfit?]
  | position, old :: olds, new :: news, h => by
      have htail : olds.length = news.length := Nat.succ.inj h
      rw [paramsMisfit?, Option.or_eq_none_iff, Param.misfit?_eq_none_iff,
        paramsMisfit?_eq_none_iff htail, List.forall₂_cons]

theorem returnsMisfit?_eq_none_iff :
    ∀ {position : Nat} {olds news : List ValueType}, olds.length = news.length →
      (returnsMisfit? position olds news = none ↔ olds = news)
  | _, [], [], _ => by simp [returnsMisfit?]
  | position, old :: olds, new :: news, h => by
      have htail : olds.length = news.length := Nat.succ.inj h
      rw [returnsMisfit?]
      by_cases hhead : old = new
      · rw [if_pos hhead, returnsMisfit?_eq_none_iff htail, hhead]
        simp
      · rw [if_neg hhead]
        exact ⟨nofun, fun same => absurd (List.cons.inj same).1 hhead⟩

theorem Operation.misfit?_eq_none_iff {old new : Operation} :
    old.misfit? base patch new = none ↔ Operation.Fits base patch old new := by
  unfold Operation.misfit? Operation.Fits
  split
  · rename_i hcount
    exact ⟨nofun, fun fits => absurd fits.1.length_eq hcount⟩
  · rename_i hcount
    split
    · rename_i hreturns
      exact ⟨nofun, fun fits => absurd (congrArg List.length fits.2) hreturns⟩
    · rename_i hreturns
      rw [Option.or_eq_none_iff, paramsMisfit?_eq_none_iff (Decidable.not_not.mp hcount),
        returnsMisfit?_eq_none_iff (Decidable.not_not.mp hreturns)]

end Signature

/-! ## Replacements -/

/-- A base operation together with the override that is to replace it. -/
structure Replacement where
  old : Operation
  new : Operation

/-- The addresses to redirect from and to. -/
def Replacement.pair (r : Replacement) : Pair :=
  ⟨r.old.name, r.old.entry, r.new.entry⟩

/-- The operations among `olds` that `patch` overrides, each with the first override of its
name. -/
def Table.replacementsOf (patch : Table) (olds : List Operation) : List Replacement :=
  olds.filterMap fun old => (patch.override? old.name).map fun new => ⟨old, new⟩

/-- What `patch` replaces of `base`, in the order of `base`. -/
def Table.replacements (base patch : Table) : List Replacement :=
  patch.replacementsOf base.operations

/-- `new` is the first override of the name in the table. -/
structure Table.IsFirstOverride (patch : Table) (name : String) (new : Operation) : Prop where
  role_eq : new.role = .override
  name_eq : new.name = name
  first : ∃ before after, patch.operations = before ++ new :: after
    ∧ ∀ op ∈ before, ¬ (op.role = .override ∧ op.name = name)

/-- What `patch` replaces of the operations in a list: an operation without an override in `patch`
stays, and any other goes with the first override of its name. -/
inductive Table.Replaces (patch : Table) : List Operation → List Replacement → Prop
  | nil : Replaces patch [] []
  | stays {old : Operation} {olds : List Operation} {rs : List Replacement} :
      (∀ op ∈ patch.operations, ¬ (op.role = .override ∧ op.name = old.name)) →
      Replaces patch olds rs → Replaces patch (old :: olds) rs
  | goes {old new : Operation} {olds : List Operation} {rs : List Replacement} :
      patch.IsFirstOverride old.name new →
      Replaces patch olds rs → Replaces patch (old :: olds) (⟨old, new⟩ :: rs)

/-- Nothing is wrong with the replacement `r` behind those in `earlier`. -/
structure Replacement.Sound (base patch : Table) (earlier : List Replacement)
    (r : Replacement) : Prop where
  fits : Operation.Fits base.layout patch.layout r.old r.new
  resolved : r.old.entry ≠ 0 ∧ r.new.entry ≠ 0
  fresh : ∀ first ∈ earlier, first.old.entry ≠ r.old.entry

/-- Every replacement of the list is sound behind those in `earlier` and those before it. -/
def AllSound (base patch : Table) (earlier rs : List Replacement) : Prop :=
  ∀ before r after, rs = before ++ r :: after → r.Sound base patch (earlier ++ before)

/-- The error for a replacement that is not sound: the signature is looked at first, then the
entries, then the replacements before it. -/
inductive Replacement.Fault (base patch : Table) (earlier : List Replacement)
    (r : Replacement) : PairingError → Prop
  | signature {misfit : Misfit} :
      ¬ Operation.Fits base.layout patch.layout r.old r.new →
      r.old.misfit? base.layout patch.layout r.new = some misfit →
      Fault base patch earlier r (.signature base.key misfit r.old r.new)
  | unresolved :
      Operation.Fits base.layout patch.layout r.old r.new →
      r.old.entry = 0 ∨ r.new.entry = 0 →
      Fault base patch earlier r (.unresolved base.key r.old.name)
  | aliased {first : Replacement} :
      Operation.Fits base.layout patch.layout r.old r.new →
      r.old.entry ≠ 0 ∧ r.new.entry ≠ 0 →
      first ∈ earlier → first.old.entry = r.old.entry →
      Fault base patch earlier r (.aliased base.key first.old.name r.old.name r.old.entry)

/-! ## The first override of a name -/

theorem Table.override?_eq_some_iff {patch : Table} {name : String} {new : Operation} :
    patch.override? name = some new ↔ patch.IsFirstOverride name new := by
  simp only [Table.override?, List.find?_eq_some_iff_append, Bool.and_eq_true, beq_iff_eq,
    Bool.not_eq_true', Bool.and_eq_false_iff, beq_eq_false_iff_ne, ← not_and_or, ne_eq]
  exact ⟨fun ⟨⟨hrole, hname⟩, hfirst⟩ => ⟨hrole, hname, hfirst⟩,
    fun ⟨hrole, hname, hfirst⟩ => ⟨⟨hrole, hname⟩, hfirst⟩⟩

theorem Table.override?_eq_none_iff {patch : Table} {name : String} :
    patch.override? name = none
      ↔ ∀ op ∈ patch.operations, ¬ (op.role = .override ∧ op.name = name) := by
  simp only [Table.override?, List.find?_eq_none, Bool.and_eq_true, beq_iff_eq]

theorem Table.mem_replacements {base patch : Table} {r : Replacement}
    (h : r ∈ base.replacements patch) :
    r.old ∈ base.operations ∧ r.new ∈ patch.operations
      ∧ r.new.role = .override ∧ r.new.name = r.old.name := by
  obtain ⟨old, hold, hnew⟩ := List.mem_filterMap.mp h
  obtain ⟨new, hfound, rfl⟩ := Option.map_eq_some_iff.mp hnew
  obtain ⟨hrole, hname, before, after, hsplit, -⟩ := override?_eq_some_iff.mp hfound
  refine ⟨hold, ?_, hrole, hname⟩
  rw [hsplit]
  exact List.mem_append_right before List.mem_cons_self

theorem Table.replacementsOf_cons_of_none {patch : Table} {old : Operation}
    {olds : List Operation} (h : patch.override? old.name = none) :
    patch.replacementsOf (old :: olds) = patch.replacementsOf olds := by
  simp only [replacementsOf, List.filterMap_cons, h, Option.map_none]

theorem Table.replacementsOf_cons_of_some {patch : Table} {old new : Operation}
    {olds : List Operation} (h : patch.override? old.name = some new) :
    patch.replacementsOf (old :: olds) = ⟨old, new⟩ :: patch.replacementsOf olds := by
  simp only [replacementsOf, List.filterMap_cons, h, Option.map_some]

theorem Table.replaces_iff {patch : Table} {olds : List Operation} {rs : List Replacement} :
    patch.Replaces olds rs ↔ rs = patch.replacementsOf olds := by
  constructor
  · intro h
    induction h with
    | nil => rfl
    | stays hnone _ ih => rw [ih, replacementsOf_cons_of_none (override?_eq_none_iff.mpr hnone)]
    | goes hfirst _ ih => rw [ih, replacementsOf_cons_of_some (override?_eq_some_iff.mpr hfirst)]
  · rintro rfl
    induction olds with
    | nil => exact .nil
    | cons old olds ih =>
        cases hnew : patch.override? old.name with
        | none =>
            rw [replacementsOf_cons_of_none hnew]
            exact .stays (override?_eq_none_iff.mp hnew) ih
        | some new =>
            rw [replacementsOf_cons_of_some hnew]
            exact .goes (override?_eq_some_iff.mp hnew) ih

/-! ## Sound lists -/

section Walk
variable {base patch : Table}

theorem allSound_nil {earlier : List Replacement} : AllSound base patch earlier [] :=
  fun before _ _ h => absurd h (by simp)

theorem allSound_cons {earlier rs : List Replacement} {r : Replacement} :
    AllSound base patch earlier (r :: rs)
      ↔ r.Sound base patch earlier ∧ AllSound base patch (earlier ++ [r]) rs := by
  constructor
  · intro h
    refine ⟨?_, fun before next after hsplit => ?_⟩
    · simpa using h [] r rs rfl
    · rw [List.append_assoc]
      exact h (r :: before) next after (by rw [hsplit]; rfl)
  · rintro ⟨hr, hrs⟩ before next after hsplit
    cases before with
    | nil =>
        obtain ⟨rfl, rfl⟩ := List.cons.inj hsplit
        simpa using hr
    | cons first before =>
        obtain ⟨rfl, hsplit'⟩ := List.cons.inj hsplit
        have := hrs before next after hsplit'
        rwa [List.append_assoc] at this

theorem allSound_or_first (base patch : Table) (earlier rs : List Replacement) :
    AllSound base patch earlier rs
      ∨ ∃ before r after, rs = before ++ r :: after ∧ AllSound base patch earlier before
        ∧ ¬ r.Sound base patch (earlier ++ before) := by
  induction rs generalizing earlier with
  | nil => exact .inl allSound_nil
  | cons r rs ih =>
      by_cases hr : r.Sound base patch earlier
      · rcases ih (earlier ++ [r]) with hrs | ⟨before, next, after, rfl, hbefore, hnext⟩
        · exact .inl (allSound_cons.mpr ⟨hr, hrs⟩)
        · refine .inr ⟨r :: before, next, after, rfl, allSound_cons.mpr ⟨hr, hbefore⟩, ?_⟩
          rwa [List.append_assoc] at hnext
      · exact .inr ⟨[], r, rs, rfl, allSound_nil, by simpa using hr⟩

theorem AllSound.sound {earlier rs : List Replacement} (h : AllSound base patch earlier rs)
    {r : Replacement} (hr : r ∈ rs) : ∃ before, r.Sound base patch (earlier ++ before) := by
  obtain ⟨before, after, rfl⟩ := List.append_of_mem hr
  exact ⟨before, h before r after rfl⟩

theorem AllSound.nodup {earlier rs : List Replacement} (h : AllSound base patch earlier rs) :
    (rs.map fun r => r.old.entry).Nodup := by
  rw [List.nodup_iff_pairwise_ne, List.pairwise_map, List.pairwise_iff_forall_sublist]
  intro first r hsub
  obtain ⟨before, rest, rfl, hfirst, hr⟩ := List.cons_sublist_iff.mp hsub
  obtain ⟨middle, after, rfl⟩ := List.append_of_mem (List.singleton_sublist.mp hr)
  have hsound := h (before ++ middle) r after (by simp)
  exact hsound.fresh first (by simp [hfirst])

/-! ## One step of the walk

The walk carries the pairs made so far; the specification speaks of the replacements they came
from.  `earlier.map pair` is what ties the two together. -/

theorem Table.pairOf_of_sound {earlier : List Replacement} {old new : Operation}
    (h : Replacement.Sound base patch earlier ⟨old, new⟩) :
    base.pairOf patch (earlier.map Replacement.pair) old new
      = .ok (Replacement.pair ⟨old, new⟩) := by
  have hfits := Operation.misfit?_eq_none_iff.mpr h.fits
  have hentries : ¬ (old.entry = 0 ∨ new.entry = 0) := not_or.mpr h.resolved
  have hnone : (earlier.map Replacement.pair).find? (fun pair => pair.base == old.entry)
      = none := by
    rw [List.find?_eq_none]
    intro pair hpair
    obtain ⟨first, hfirst, rfl⟩ := List.mem_map.mp hpair
    simpa [Replacement.pair] using h.fresh first hfirst
  simp only [pairOf, hfits, if_neg hentries, hnone]
  rfl

theorem Table.pairOf_of_not_sound {earlier : List Replacement} {old new : Operation}
    (h : ¬ Replacement.Sound base patch earlier ⟨old, new⟩) :
    ∃ e, base.pairOf patch (earlier.map Replacement.pair) old new = .error e
      ∧ Replacement.Fault base patch earlier ⟨old, new⟩ e := by
  unfold pairOf
  cases hmisfit : old.misfit? base.layout patch.layout new with
  | some misfit =>
      have hfits : ¬ Operation.Fits base.layout patch.layout old new := by
        rw [← Operation.misfit?_eq_none_iff, hmisfit]
        nofun
      exact ⟨_, rfl, .signature hfits hmisfit⟩
  | none =>
      have hfits := Operation.misfit?_eq_none_iff.mp hmisfit
      by_cases hentries : old.entry = 0 ∨ new.entry = 0
      · exact ⟨_, if_pos hentries, .unresolved hfits hentries⟩
      · simp only [if_neg hentries]
        cases hfound : (earlier.map Replacement.pair).find? fun pair => pair.base == old.entry with
        | none =>
            refine absurd ⟨hfits, not_or.mp hentries, fun first hfirst => ?_⟩ h
            have := List.find?_eq_none.mp hfound first.pair (List.mem_map_of_mem hfirst)
            simpa [Replacement.pair] using this
        | some pair =>
            obtain ⟨first, hfirst, rfl⟩ := List.mem_map.mp (List.mem_of_find?_eq_some hfound)
            have hsame : first.old.entry = old.entry := by
              simpa [Replacement.pair] using List.find?_some hfound
            exact ⟨_, rfl, .aliased hfits (not_or.mp hentries) hfirst hsame⟩

/-! ## The whole walk -/

theorem Table.pairsFrom_of_allSound {olds : List Operation} {earlier : List Replacement}
    (h : AllSound base patch earlier (patch.replacementsOf olds)) :
    base.pairsFrom patch (earlier.map Replacement.pair) olds
      = .ok ((patch.replacementsOf olds).map Replacement.pair) := by
  induction olds generalizing earlier with
  | nil => rfl
  | cons old olds ih =>
      cases hnew : patch.override? old.name with
      | none =>
          rw [replacementsOf_cons_of_none hnew] at h ⊢
          simp only [pairsFrom, hnew]
          exact ih h
      | some new =>
          rw [replacementsOf_cons_of_some hnew] at h ⊢
          obtain ⟨hsound, hrest⟩ := allSound_cons.mp h
          have htail := ih hrest
          rw [List.map_append, List.map_singleton] at htail
          simp only [pairsFrom, hnew, pairOf_of_sound hsound]
          rw [htail]
          rfl

theorem Table.pairsFrom_of_first {olds : List Operation} {earlier before after : List Replacement}
    {r : Replacement} (hsplit : patch.replacementsOf olds = before ++ r :: after)
    (hbefore : AllSound base patch earlier before)
    (hr : ¬ r.Sound base patch (earlier ++ before)) :
    ∃ e, base.pairsFrom patch (earlier.map Replacement.pair) olds = .error e
      ∧ r.Fault base patch (earlier ++ before) e := by
  induction olds generalizing earlier before with
  | nil => exact absurd hsplit (by simp [replacementsOf])
  | cons old olds ih =>
      cases hnew : patch.override? old.name with
      | none =>
          rw [replacementsOf_cons_of_none hnew] at hsplit
          simp only [pairsFrom, hnew]
          exact ih hsplit hbefore hr
      | some new =>
          rw [replacementsOf_cons_of_some hnew] at hsplit
          cases before with
          | nil =>
              obtain ⟨rfl, -⟩ := List.cons.inj hsplit
              rw [List.append_nil] at hr ⊢
              obtain ⟨e, he, hfault⟩ := pairOf_of_not_sound hr
              exact ⟨e, by simp only [pairsFrom, hnew, he], hfault⟩
          | cons first before =>
              obtain ⟨rfl, hsplit'⟩ := List.cons.inj hsplit
              obtain ⟨hsound, hrest⟩ := allSound_cons.mp hbefore
              have happend : earlier ++ ⟨old, new⟩ :: before
                  = (earlier ++ [⟨old, new⟩]) ++ before := by simp
              rw [happend] at hr ⊢
              obtain ⟨e, he, hfault⟩ := ih hsplit' hrest hr
              rw [List.map_append, List.map_singleton] at he
              refine ⟨e, ?_, hfault⟩
              simp only [pairsFrom, hnew, pairOf_of_sound hsound]
              rw [he]

/-! ## Pairing -/

theorem Table.pairing_of_isOverlay (h : base.layout.IsOverlay patch.layout) :
    base.pairing patch = base.pairsFrom patch [] base.operations := by
  rw [pairing, Layout.overlayFault?_eq_none_iff.mpr h]

/-- Pairing succeeds with the pairs of the replacements, and only if all of them are sound. -/
theorem Table.pairing_eq_ok_iff {pairs : List Pair} :
    base.pairing patch = .ok pairs
      ↔ base.layout.IsOverlay patch.layout
        ∧ AllSound base patch [] (base.replacements patch)
        ∧ pairs = (base.replacements patch).map Replacement.pair := by
  constructor
  · intro h
    have hoverlay : base.layout.IsOverlay patch.layout := by
      rw [← Layout.overlayFault?_eq_none_iff]
      cases hfault : base.layout.overlayFault? patch.layout with
      | none => rfl
      | some fault => simp [pairing, hfault] at h
    rw [pairing_of_isOverlay hoverlay] at h
    rcases allSound_or_first base patch [] (base.replacements patch) with
      hall | ⟨before, r, after, hsplit, hbefore, hr⟩
    · refine ⟨hoverlay, hall, ?_⟩
      have hpairs := pairsFrom_of_allSound hall
      rw [List.map_nil, h] at hpairs
      exact Except.ok.inj hpairs
    · obtain ⟨e, he, -⟩ := pairsFrom_of_first hsplit hbefore hr
      rw [List.map_nil, h] at he
      exact absurd he nofun
  · rintro ⟨hoverlay, hall, rfl⟩
    rw [pairing_of_isOverlay hoverlay]
    exact pairsFrom_of_allSound hall

theorem Table.pairing_of_not_isOverlay (h : ¬ base.layout.IsOverlay patch.layout) :
    base.pairing patch = .error (.foreign base.layout.type patch.layout.type)
      ∨ base.pairing patch = .error (.resized base.layout.type patch.layout.type) := by
  unfold pairing
  cases hfault : base.layout.overlayFault? patch.layout with
  | none => exact absurd (Layout.overlayFault?_eq_none_iff.mp hfault) h
  | some fault =>
      unfold Layout.overlayFault? at hfault
      split at hfault
      · cases hfault; exact .inl rfl
      · split at hfault
        · cases hfault; exact .inr rfl
        · exact absurd hfault nofun

end Walk

/-- **What pairing answers**, for every base and every patch.  The replacements are the overridden
operations of the base, in its order, each with the first override of its name.  A patch that is no
overlay of the base is rejected for its layout.  Otherwise the replacements decide: if all are
sound, there is one pair for each, in order and from entries that all differ; if not, the first that
is not sound decides with its own fault. -/
theorem Table.pairing_verdict (base patch : Table) :
    (∀ rs, patch.Replaces base.operations rs ↔ rs = base.replacements patch)
    ∧ (¬ base.layout.IsOverlay patch.layout →
      base.pairing patch = .error (.foreign base.layout.type patch.layout.type)
        ∨ base.pairing patch = .error (.resized base.layout.type patch.layout.type))
    ∧ (base.layout.IsOverlay patch.layout → AllSound base patch [] (base.replacements patch) →
      base.pairing patch = .ok ((base.replacements patch).map Replacement.pair)
        ∧ (((base.replacements patch).map Replacement.pair).map Pair.base).Nodup)
    ∧ (base.layout.IsOverlay patch.layout →
      ∀ before r after, base.replacements patch = before ++ r :: after →
        AllSound base patch [] before → ¬ r.Sound base patch before →
        ∃ e, base.pairing patch = .error e ∧ r.Fault base patch before e) := by
  refine ⟨fun _ => replaces_iff, pairing_of_not_isOverlay, fun hoverlay hall => ⟨?_, ?_⟩, ?_⟩
  · exact pairing_eq_ok_iff.mpr ⟨hoverlay, hall, rfl⟩
  · rw [List.map_map]
    exact hall.nodup
  · intro hoverlay before r after hsplit hbefore hr
    rw [pairing_of_isOverlay hoverlay]
    exact pairsFrom_of_first hsplit hbefore hr

/-- One replacement that is sound, and a second one from the same entry. -/
theorem Table.pairing_verdict_shared_entry :
    let plain : Shape := ⟨none, [], .unit⟩
    let base := ((empty (.bare ⟨"S", 8, 8⟩)).define "a" plain 1).define "b" plain 1
    let half := (empty (.overlay ⟨"P", 8, 8⟩ 0 (.bare ⟨"S", 8, 8⟩))).override "a" plain 2
    let full := half.override "b" plain 3
    base.pairing half = .ok [⟨"a", 1, 2⟩]
      ∧ ∃ e, base.pairing full = .error e
        ∧ Replacement.Fault base full
          [⟨plain.operation .define "a" 1, plain.operation .override "a" 2⟩]
          ⟨plain.operation .define "b" 1, plain.operation .override "b" 3⟩ e := by
  intro plain base half full
  have hoverlay : base.layout.IsOverlay full.layout := ⟨⟨_, rfl, rfl, rfl⟩, rfl, rfl⟩
  have hfits : ∀ role name entry role' name' entry',
      Operation.Fits base.layout full.layout (plain.operation role name entry)
        (plain.operation role' name' entry') := fun _ _ _ _ _ _ => ⟨.nil, rfl⟩
  have hsound : ∀ patch, patch.layout = full.layout →
      AllSound base patch [] [⟨plain.operation .define "a" 1, plain.operation .override "a" 2⟩] :=
    fun patch hlayout => allSound_cons.mpr
      ⟨⟨hlayout ▸ hfits .., by decide, nofun⟩, allSound_nil⟩
  obtain ⟨-, -, hall, -⟩ := pairing_verdict base half
  obtain ⟨-, -, -, hfirst⟩ := pairing_verdict base full
  refine ⟨(hall hoverlay (hsound half rfl)).1, ?_⟩
  refine hfirst hoverlay _ _ [] rfl (hsound full rfl) fun hr => ?_
  exact hr.fresh _ List.mem_cons_self rfl

end Hotswap.Entity
