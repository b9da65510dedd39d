import Hotswap.Proofs.Pairing
import Hotswap.Proofs.Session.Apply

/-!
# Operations that a patch leaves out

A bystander is a base operation that the patch does not override: one that the patch entity only
takes over, or does not know.  Pairing skips bystanders, and so it never compares their entries
with those of the pairs.  A bystander with an entry of its own keeps its body; one that shares its
entry with an overridden operation is redirected along with it, and no error tells
(`shared_entry_spares_nobody`).

    a pair starts from the entry of a bystander   ⟺   an overridden operation has that entry

The check for aliases covers the same case between two overridden operations only.
-/

namespace Hotswap

open Machine (Address)
open Entity (Operation Pair Table)

/-! ## Entries that are redirected -/

namespace Entity.Table

variable {base patch : Table} {name : String} {entry : Address}

/-- The patch replaces the base operation called `name`. -/
def Overrides (patch : Table) (name : String) : Prop :=
  ∃ op ∈ patch.operations, op.role = .override ∧ op.name = name

instance : Decidable (patch.Overrides name) :=
  inferInstanceAs (Decidable (∃ op ∈ patch.operations, op.role = .override ∧ op.name = name))

theorem overrides_iff : patch.Overrides name ↔ ∃ new, patch.override? name = some new := by
  rw [← Option.isSome_iff_exists, override?, List.find?_isSome]
  simp only [Overrides, Bool.and_eq_true, beq_iff_eq]

theorem exists_replacement_iff {old : Operation} :
    (∃ r ∈ base.replacements patch, r.old = old)
      ↔ old ∈ base.operations ∧ patch.Overrides old.name := by
  constructor
  · rintro ⟨r, hr, rfl⟩
    obtain ⟨hold, hnew, hrole, hname⟩ := mem_replacements hr
    exact ⟨hold, r.new, hnew, hrole, hname⟩
  · rintro ⟨hold, hoverrides⟩
    obtain ⟨new, hnew⟩ := overrides_iff.mp hoverrides
    refine ⟨⟨old, new⟩, List.mem_filterMap.mpr ⟨old, hold, ?_⟩, rfl⟩
    rw [hnew, Option.map_some]

theorem mem_bases_of_pairing {pairs : List Pair} (h : base.pairing patch = .ok pairs) :
    entry ∈ pairs.map Pair.base
      ↔ ∃ old ∈ base.operations, patch.Overrides old.name ∧ old.entry = entry := by
  obtain ⟨-, -, rfl⟩ := pairing_eq_ok_iff.mp h
  rw [List.map_map, List.mem_map]
  constructor
  · rintro ⟨r, hr, rfl⟩
    obtain ⟨hold, hoverrides⟩ := exists_replacement_iff.mp ⟨r, hr, rfl⟩
    exact ⟨r.old, hold, hoverrides, rfl⟩
  · rintro ⟨old, hold, hoverrides, rfl⟩
    obtain ⟨r, hr, rfl⟩ := exists_replacement_iff.mpr ⟨hold, hoverrides⟩
    exact ⟨r, hr, rfl⟩

end Entity.Table

/-! ## Entries that are written -/

namespace Rig

variable {σ ε : Type} {rig : Rig σ ε} {base patch : Table} {s : σ} {pairs : List Pair}

theorem address_mem_bases (h : base.pairing patch = .ok pairs) {t : Try}
    (ht : t ∈ Event.tries (rig.apply base patch s).trace) : t.address ∈ pairs.map Pair.base := by
  obtain ⟨pairs', hpairing, pair, hpair, -, haddress, -⟩ :=
    (rig.apply_applies base patch s).mem_tries ht
  cases h.symm.trans hpairing
  rw [haddress]
  exact List.mem_map_of_mem hpair

theorem exists_try_of_mem_bases (h : base.pairing patch = .ok pairs) {count : Nat}
    (hanswer : (rig.apply base patch s).answer = .ok count) {entry : Address}
    (hentry : entry ∈ pairs.map Pair.base) :
    ∃ t ∈ Event.tries (rig.apply base patch s).trace, t.address = entry ∧ t.accepted = true := by
  obtain ⟨pairs', hpairing, -, haddress, haccepted⟩ :=
    (rig.apply_applies base patch s).of_ok hanswer
  cases h.symm.trans hpairing
  rw [← haddress] at hentry
  obtain ⟨t, ht, hsame⟩ := List.mem_map.mp hentry
  exact ⟨t, ht, hsame, haccepted t ht⟩

/-- **What happens to a bystander**, for all tables that pair up.  A pair starts from its entry
exactly if an operation of another name that the patch overrides has the same entry.  If there is
none, no application writes there, whatever the encoder, the writer and its state; if there is one,
every application that succeeds does. -/
theorem bystander_redirected_iff (h : base.pairing patch = .ok pairs) {o : Operation}
    (hskipped : ¬ patch.Overrides o.name) :
    let shared := ∃ other ∈ base.operations,
      other.name ≠ o.name ∧ patch.Overrides other.name ∧ other.entry = o.entry
    ((∃ pair ∈ pairs, pair.base = o.entry) ↔ shared)
    ∧ (¬ shared → ∀ (rig : Rig σ ε) (s : σ),
      ∀ t ∈ Event.tries (rig.apply base patch s).trace, t.address ≠ o.entry)
    ∧ (shared → ∀ (rig : Rig σ ε) (s : σ) (count : Nat),
      (rig.apply base patch s).answer = .ok count →
      ∃ t ∈ Event.tries (rig.apply base patch s).trace,
        t.address = o.entry ∧ t.accepted = true) := by
  intro shared
  have hbases : o.entry ∈ pairs.map Pair.base ↔ shared := by
    rw [Table.mem_bases_of_pairing h]
    constructor
    · rintro ⟨other, hother, hoverrides, hentry⟩
      -- the overridden operation is another one, for `o` has no override
      refine ⟨other, hother, ?_, hoverrides, hentry⟩
      intro hname
      exact hskipped (hname ▸ hoverrides)
    · rintro ⟨other, hother, -, hoverrides, hentry⟩
      exact ⟨other, hother, hoverrides, hentry⟩
  refine ⟨?_, ?_, ?_⟩
  · rw [← hbases, List.mem_map]
  · intro hnot rig s t ht hentry
    have hmem := address_mem_bases h ht
    rw [hentry] at hmem
    exact hnot (hbases.mp hmem)
  · intro hshared rig s count hanswer
    exact exists_try_of_mem_bases h hanswer (hbases.mpr hshared)

/-- Two operations with one body.  The patch overrides `a` alone, and the one pair starts from `b`
as well. -/
theorem shared_entry_spares_nobody :
    let plain : Entity.Shape := ⟨none, [], .unit⟩
    let b := plain.operation .define "b" 0x1000
    let base := ((Table.empty (.bare ⟨"S", 8, 8⟩)).define "a" plain 0x1000).add b
    let patch := (Table.empty (.overlay ⟨"P", 8, 8⟩ 0 (.bare ⟨"S", 8, 8⟩))).override "a" plain
      0x7000
    base.pairing patch = .ok [⟨"a", 0x1000, 0x7000⟩] ∧ b ∈ base.operations
      ∧ ¬ patch.Overrides b.name
      ∧ ∃ pair ∈ [(⟨"a", 0x1000, 0x7000⟩ : Pair)], pair.base = b.entry := by
  intro plain b base patch
  refine ⟨?_, ?_, ?_, ?_⟩
  · decide
  · decide
  · decide
  · decide

/-- The same with a third operation that has an entry of its own: applying the patch writes over
`b` and stays away from `c`. -/
theorem bystander_redirected_iff_shared :
    let plain : Entity.Shape := ⟨none, [], .unit⟩
    let b := plain.operation .define "b" 0x1000
    let c := plain.operation .define "c" 0x2000
    let base := (((Table.empty (.bare ⟨"S", 8, 8⟩)).define "a" plain 0x1000).add b).add c
    let patch := (Table.empty (.overlay ⟨"P", 8, 8⟩ 0 (.bare ⟨"S", 8, 8⟩))).override "a" plain
      0x7000
    let rig : Rig Nat String := ⟨Machine.Arch.x64.trampoline, .counting none "", {}⟩
    let tries := Event.tries (rig.apply base patch 0).trace
    base.pairing patch = .ok [⟨"a", 0x1000, 0x7000⟩]
      ∧ ¬ patch.Overrides b.name ∧ (∃ t ∈ tries, t.address = b.entry ∧ t.accepted = true)
      ∧ ¬ patch.Overrides c.name ∧ ∀ t ∈ tries, t.address ≠ c.entry := by
  intro plain b c base patch rig tries
  have hpairing : base.pairing patch = .ok [⟨"a", 0x1000, 0x7000⟩] := by decide
  have hb : ¬ patch.Overrides b.name := by decide
  have hc : ¬ patch.Overrides c.name := by decide
  obtain ⟨hpair, -, hwrites⟩ := bystander_redirected_iff (σ := Nat) (ε := String) hpairing hb
  obtain ⟨hpair', hspares, -⟩ := bystander_redirected_iff (σ := Nat) (ε := String) hpairing hc
  refine ⟨hpairing, hb, ?_, hc, ?_⟩
  · have hshared := hpair.mp ⟨_, List.mem_singleton_self _, rfl⟩
    exact hwrites hshared rig 0 1 (by decide)
  · have hown := mt hpair'.mpr (by decide)
    exact hspares hown rig 0

end Rig
end Hotswap
