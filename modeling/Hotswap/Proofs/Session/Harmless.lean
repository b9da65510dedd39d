import Hotswap.Proofs.Session.Call

/-!
# Errors that are not fatal

After a fatal error the code is in doubt.  After any other error one would expect it untouched, and
on `x64` and `arm64` it is.  On `x86` it need not be: whether there is a trampoline to a destination
is looked at pair by pair, inside the loop that writes, so a destination out of reach stops the loop
after the pairs before it were redirected (`harmless_error_after_write`).

`harmless_error_writes_iff` says exactly when that happens, by the tables alone: some pair is the
first whose destination lies beyond 32 bits, and it is not the first pair.
-/

namespace Hotswap

open Machine (Address Arch)
open Entity (Pair Table)

variable {σ ε : Type}

/-- There is a trampoline for each of the first pairs, at least one, but not for the next. -/
def Rig.StopsMidway (rig : Rig σ ε) (base patch : Table) : Prop :=
  ∃ done pair rest, base.pairing patch = .ok (done ++ pair :: rest) ∧ done ≠ []
    ∧ (∀ p ∈ done, ∃ code, rig.encode p.patch = .ok code)
    ∧ ∃ cause, rig.encode pair.patch = .error cause

theorem Rig.Applies.writes_iff {rig : Rig σ ε} {base patch : Table} {s s' : σ} {tries : List Try}
    {e : PatchError ε} (h : rig.Applies base patch s tries (.error e) s')
    (hharmless : e.isFatal = false) :
    (∃ t ∈ tries, t.accepted = true) ↔ rig.StopsMidway base patch := by
  generalize hanswer : (Ending.error e : Ending (PatchError ε) Nat) = answer at h
  cases h with
  | rejected hpairing =>
      refine ⟨fun ⟨t, ht, _⟩ => absurd ht List.not_mem_nil, ?_⟩
      rintro ⟨done, pair, rest, hok, -⟩
      cases hpairing.symm.trans hok
  | same _ _ =>
      cases eq_of_raise hanswer.symm
      cases hharmless
  | redirected _ _ _ => cases hanswer
  | aborted _ _ _ => cases hanswer
  | stopped hpairing _ hloop =>
      cases hanswer
      obtain ⟨done, pair, rest, cause, rfl, hlast, -, hdone, haddress, haccepted⟩ :=
        hloop.of_harmless rfl hharmless
      constructor
      · rintro ⟨t, ht, -⟩
        refine ⟨done, pair, rest, hpairing, ?_, hdone, cause, hlast⟩
        rintro rfl
        cases List.map_eq_nil_iff.mp haddress
        exact List.not_mem_nil ht
      · rintro ⟨done', pair', rest', hok, hne, hdone', -⟩
        have hsplit : done ++ pair :: rest = done' ++ pair' :: rest' :=
          Except.ok.inj (hpairing.symm.trans hok)
        cases tries with
        | cons t tries => exact ⟨t, List.mem_cons_self, haccepted t List.mem_cons_self⟩
        | nil =>
            -- nothing was tried, so the first pair is already the one out of reach
            cases List.map_eq_nil_iff.mp haddress.symm
            cases done' with
            | nil => exact absurd rfl hne
            | cons first done' =>
                obtain ⟨rfl, -⟩ := List.cons.inj hsplit
                obtain ⟨code, hcode⟩ := hdone' pair List.mem_cons_self
                cases hlast.symm.trans hcode

/-- A call that ends in an error that is not fatal got a write accepted exactly if it applied
tables that stop midway. -/
theorem Rig.writes_of_harmless_iff {rig : Rig σ ε} {s : Session σ} {call : Call} {e : PatchError ε}
    (herror : (rig.perform s call).answer = .error e) (hharmless : e.isFatal = false) :
    Event.writes (rig.perform s call).trace ≠ []
      ↔ ∃ base patch, rig.applied s call = some (base, patch) ∧ rig.StopsMidway base patch := by
  rw [Ne, Event.writes_eq_nil_iff]
  cases happlied : rig.applied s call with
  | none =>
      obtain ⟨-, htries, -⟩ := perform_of_not_applied happlied
      rw [htries]
      exact ⟨fun h => absurd nofun h, fun ⟨_, _, hnone, _⟩ => absurd hnone nofun⟩
  | some tables =>
      obtain ⟨base, patch⟩ := tables
      obtain ⟨hanswer, htries, -⟩ := perform_of_applied happlied
      have happlies := rig.apply_applies base patch s.writer
      rw [Ending.eq_error_of_map (hanswer.symm.trans herror)] at happlies
      rw [htries]
      constructor
      · intro hsome
        refine ⟨base, patch, rfl, (happlies.writes_iff hharmless).mp ?_⟩
        simpa using hsome
      · rintro ⟨base', patch', hsame, hmidway⟩
        cases hsame
        simpa using (happlies.writes_iff hharmless).mpr hmidway

/-! ## The instruction sets -/

theorem Machine.Arch.eq_x86_of_unreachable {arch : Arch} {target : Address}
    (h : arch.addressCount ≤ target.toNat) : arch = .x86 := by
  have hlt : target.toNat < UInt64.size := target.toNat_lt
  cases arch with
  | x86 => rfl
  | x64 => exact absurd hlt (Nat.not_lt.mpr h)
  | arm64 => exact absurd hlt (Nat.not_lt.mpr h)

/-- **When an error that is not fatal comes after a write.**  For every instruction set, writer and
policy, in every state and for every call: if the call ends in such an error, a write was accepted
during it exactly if the instruction set is `x86`, the call applied a patch whose pairs have a first
destination beyond 32 bits, and there is a pair before that one. -/
theorem Rig.harmless_error_writes_iff (arch : Arch) (policy : Policy) (writer : Writer σ ε)
    (s : Session σ) (call : Call) (e : PatchError ε)
    (herror : (Rig.perform ⟨arch.trampoline, writer, policy⟩ s call).answer = .error e)
    (hharmless : e.isFatal = false) :
    Event.writes (Rig.perform ⟨arch.trampoline, writer, policy⟩ s call).trace ≠ []
      ↔ arch = .x86 ∧ ∃ base patch done pair rest,
        Rig.applied ⟨arch.trampoline, writer, policy⟩ s call = some (base, patch)
        ∧ base.pairing patch = .ok (done ++ pair :: rest) ∧ done ≠ []
        ∧ (∀ p ∈ done, p.patch.toNat < UInt32.size) ∧ UInt32.size ≤ pair.patch.toNat := by
  rw [writes_of_harmless_iff herror hharmless]
  simp only [StopsMidway, Arch.trampoline_ok_iff, Arch.trampoline_error_iff]
  constructor
  · rintro ⟨base, patch, happlied, done, pair, rest, hpairing, hne, hdone, hlast⟩
    cases Arch.eq_x86_of_unreachable hlast
    exact ⟨rfl, base, patch, done, pair, rest, happlied, hpairing, hne, hdone, hlast⟩
  · rintro ⟨rfl, base, patch, done, pair, rest, happlied, hpairing, hne, hdone, hlast⟩
    exact ⟨base, patch, happlied, done, pair, rest, hpairing, hne, hdone, hlast⟩

/-- Two overrides, the second beyond 32 bits: the error is not fatal, and the first was written. -/
theorem Rig.harmless_error_after_write :
    let plain : Entity.Shape := ⟨none, [], .unit⟩
    let base := ((Table.empty (.bare ⟨"S", 8, 8⟩)).define "a" plain 0x1000).define "b" plain 0x2000
    let patch := ((Table.empty (.overlay ⟨"P", 8, 8⟩ 0 (.bare ⟨"S", 8, 8⟩))).override "a" plain
      0x3000).override "b" plain 0x100000000
    let rig : Rig Nat String := ⟨Arch.x86.trampoline, .counting none "", { abortOnFault := false }⟩
    (rig.perform (.fresh 0) (.apply base patch)).answer
        = .error (.code (.outOfRange .x86 0x100000000))
      ∧ (PatchError.code (.outOfRange .x86 0x100000000) : PatchError String).isFatal = false
      ∧ Event.writes (rig.perform (.fresh 0) (.apply base patch)).trace
        = [(0x1000, [0xB8, 0x00, 0x30, 0x00, 0x00, 0xFF, 0xE0])] :=
  ⟨rfl, rfl, rfl⟩

/-- The same pairs, applied when the base arrives after its candidate. -/
theorem Rig.harmless_error_writes_iff_on_registration :
    let plain : Entity.Shape := ⟨none, [], .unit⟩
    let base := ((Table.empty (.bare ⟨"S", 8, 8⟩)).define "a" plain 0x1000).define "b" plain 0x2000
    let patch := ((Table.empty (.overlay ⟨"P", 8, 8⟩ 0 (.bare ⟨"S", 8, 8⟩))).override "a" plain
      0x3000).override "b" plain 0x100000000
    let rig : Rig Nat String := ⟨Arch.x86.trampoline, .counting none "", { abortOnFault := false }⟩
    let waiting := (rig.perform (.fresh 0) (.submit ⟨"S", "1", some "1", patch⟩)).state
    (rig.perform waiting (.register base)).answer = .error (.code (.outOfRange .x86 0x100000000))
      ∧ Event.writes (rig.perform waiting (.register base)).trace ≠ [] := by
  intro plain base patch rig waiting
  have herror : (rig.perform waiting (.register base)).answer
      = .error (.code (.outOfRange .x86 0x100000000)) := rfl
  refine ⟨herror, (harmless_error_writes_iff _ _ _ waiting _ _ herror rfl).mpr ⟨rfl, ?_⟩⟩
  refine ⟨base, patch, [⟨"a", 0x1000, 0x3000⟩], ⟨"b", 0x2000, 0x100000000⟩, [], rfl, rfl, nofun,
    ?_, ?_⟩
  · intro p hp
    cases List.mem_singleton.mp hp
    decide
  · decide

end Hotswap
