import Hotswap.Proofs.Session.Steady
import Hotswap.Proofs.Session.Stored

/-!
# Entities are independent

Two calls about two entities can be made in either order.  Neither reads the slot of the other, and
a writer whose answers are fixed gives each the same answers, so all that could tell the orders
apart is what the writer leaves behind.

Live memory answers by its pages, and a call changes no page (`steadyBy_page`).  What it changes is
the bytes of its accepted writes: the memory it leaves is the one it found with these stored
(`Memory.storeAll`), and stores that share no byte can be exchanged (`storeAll_comm`), though their
pages may be shared.
-/

namespace Hotswap

open Machine (Address Arch)
open Entity (Pair Table)

variable {σ ε : Type}

/-! ## Live memory -/

theorem Writer.steadyBy_page [Paging] : Writer.bytes.windowed.SteadyBy Memory.page where
  answer h location bytes := Memory.answer_install_congr h location bytes
  kept m location bytes := m.page_install location bytes

namespace Rig

variable {arch : Arch} {policy : Policy}

/-! ## Two calls in either order -/

/-- The call `a` leaves the slots of all keys but `key`, and whether `a` or `b` is made first cannot
be told from their answers, from the slots of the session afterwards, nor from the tries, apart from
their order. -/
structure Independent (rig : Rig σ ε) (s : Session σ) (key : String) (a b : Call) : Prop where
  frame : ∀ k, k ≠ key → (rig.perform s a).state.slot k = s.slot k
  answers : ∃ first second, (rig.run s [a, b]).map Effect.answer = [first, second]
    ∧ (rig.run s [b, a]).map Effect.answer = [second, first]
  slots : ∀ k, (rig.sessionAfter s [a, b]).slot k = (rig.sessionAfter s [b, a]).slot k
  tries : ((rig.run s [a, b]).flatMap fun e => Event.tries e.trace).Perm
    ((rig.run s [b, a]).flatMap fun e => Event.tries e.trace)

variable {γ : Type} {f : σ → γ} {rig : Rig σ ε} {a b : Call} {k₁ k₂ : String}

theorem perform_after (hwriter : rig.writer.SteadyBy f) (ha : a.key? = some k₁)
    (hb : b.key? = some k₂) (hne : k₁ ≠ k₂) (s : Session σ) :
    (rig.perform (rig.perform s a).state b).Alike (rig.perform s b)
      ∧ (rig.perform (rig.perform s a).state b).state.slot k₂ = (rig.perform s b).state.slot k₂ :=
  perform_congr hwriter hb (slot_perform_of_ne ha (Ne.symm hne)) (kept_perform hwriter s a)

theorem run_two (hpolicy : rig.policy.abortOnFault = false) (s : Session σ) (a b : Call) :
    rig.run s [a, b] = [rig.perform s a, rig.perform (rig.perform s a).state b] := by
  rw [run_cons _ (perform_ne_aborted hpolicy), run_cons _ (perform_ne_aborted hpolicy), run]

theorem independent_of_steadyBy (hpolicy : rig.policy.abortOnFault = false)
    (hwriter : rig.writer.SteadyBy f) (ha : a.key? = some k₁) (hb : b.key? = some k₂)
    (hne : k₁ ≠ k₂) (s : Session σ) : rig.Independent s k₁ a b := by
  obtain ⟨⟨hanswerB, htriesB⟩, hslotB⟩ := perform_after hwriter ha hb hne s
  obtain ⟨⟨hanswerA, htriesA⟩, hslotA⟩ := perform_after hwriter hb ha (Ne.symm hne) s
  constructor
  · intro k hk
    exact slot_perform_of_ne ha hk
  · refine ⟨(rig.perform s a).answer, (rig.perform s b).answer, ?_, ?_⟩
    · rw [run_two hpolicy, List.map_cons, List.map_singleton, hanswerB]
    · rw [run_two hpolicy, List.map_cons, List.map_singleton, hanswerA]
  · intro k
    show (rig.perform (rig.perform s a).state b).state.slot k
      = (rig.perform (rig.perform s b).state a).state.slot k
    by_cases hfirst : k = k₁
    · subst hfirst
      rw [slot_perform_of_ne hb hne, hslotA]
    · by_cases hsecond : k = k₂
      · subst hsecond
        rw [hslotB, slot_perform_of_ne ha (Ne.symm hne)]
      · rw [slot_perform_of_ne hb hsecond, slot_perform_of_ne ha hfirst,
          slot_perform_of_ne ha hfirst, slot_perform_of_ne hb hsecond]
  · rw [run_two hpolicy, run_two hpolicy]
    simp only [List.flatMap_cons, List.flatMap_nil, List.append_nil, htriesA, htriesB]
    exact List.perm_append_comm

end Rig

/-- **Entities are independent.**  Two calls about two keys, each a registration, a submission or a
request to apply what waits, under a policy that does not abort and in any session:

* if the answers of the writer are fixed by the address and the bytes of a write, the calls are
  independent;
* so they are over live memory, whose answers depend on the pages.  There the memory is the same as
  well in either order, its bytes and its pages, if no byte is written by both. -/
theorem Rig.calls_independent [Paging] (policy : Policy) (hpolicy : policy.abortOnFault = false)
    {a b : Call} {k₁ k₂ : String} (ha : a.key? = some k₁) (hb : b.key? = some k₂) (hne : k₁ ≠ k₂) :
    (∀ (σ ε : Type) (encode : Encoder) (writer : Writer σ ε),
      (∀ location bytes s t,
        (writer.write location bytes s).answer = (writer.write location bytes t).answer) →
      ∀ s, (Rig.mk encode writer policy).Independent s k₁ a b)
    ∧ ∀ (arch : Arch) (s : Session Memory),
      (live arch policy).Independent s k₁ a b
      ∧ ((∀ x, ¬ (Written (Event.tries ((live arch policy).perform s a).trace) x
            ∧ Written (Event.tries ((live arch policy).perform s b).trace) x)) →
        ((live arch policy).sessionAfter s [a, b]).writer
          = ((live arch policy).sessionAfter s [b, a]).writer) := by
  constructor
  · intro σ ε encode writer hfixed s
    have hwriter : writer.SteadyBy fun _ => () :=
      ⟨fun _ location bytes => hfixed location bytes _ _, fun _ _ _ => rfl⟩
    exact independent_of_steadyBy hpolicy hwriter ha hb hne s
  · intro arch s
    have hwriter : (live arch policy).writer.SteadyBy Memory.page := Writer.steadyBy_page
    refine ⟨independent_of_steadyBy hpolicy hwriter ha hb hne s, fun hapart => ?_⟩
    have htriesB := (perform_after hwriter ha hb hne s).1.tries
    have htriesA := (perform_after hwriter hb ha (Ne.symm hne) s).1.tries
    show ((live arch policy).perform ((live arch policy).perform s a).state b).state.writer
      = ((live arch policy).perform ((live arch policy).perform s b).state a).state.writer
    rw [writer_perform_live, writer_perform_live, writer_perform_live, writer_perform_live, htriesB,
      htriesA]
    exact Memory.storeAll_comm hapart s.writer

/-- Two entries on one page, so that both calls open a window over it: a candidate of "S" arrives
after its base, and the base of "T" after its candidate. -/
theorem Rig.calls_independent_on_one_page :
    let plain : Entity.Shape := ⟨none, [], .unit⟩
    let base (name : String) (entry : Address) :=
      (Table.empty (.bare ⟨name, 8, 8⟩)).define "a" plain entry
    let patch (name : String) (entry : Address) :=
      (Table.empty (.overlay ⟨"P", 8, 8⟩ 0 (.bare ⟨name, 8, 8⟩))).override "a" plain entry
    let memory : Memory := (⟨fun _ => 0, fun _ => .unmapped⟩ : Memory).setPage 0x1000
      (.mapped ⟨true, false, true⟩)
    let policy : Policy := { abortOnFault := false }
    let rig := live .x64 policy
    let s := rig.sessionAfter (.fresh memory)
      [.register (base "S" 0x1000), .submit ⟨"T", "1", some "1", patch "T" 0x7000⟩]
    let a : Call := .submit ⟨"S", "1", some "1", patch "S" 0x7100⟩
    let b : Call := .register (base "T" 0x1010)
    a.key? = some "S" ∧ b.key? = some "T"
      ∧ (rig.run s [a, b]).map Effect.answer = [.ok (.applied 1), .ok (.applied 1)]
      ∧ rig.Independent s "S" a b
      ∧ (rig.sessionAfter s [a, b]).writer = (rig.sessionAfter s [b, a]).writer
      ∧ (Rig.mk Machine.Arch.x64.trampoline (.counting none "") policy).Independent (.fresh 0)
        "S" a b := by
  intro plain base patch memory policy rig s a b
  obtain ⟨hany, hlive⟩ := calls_independent policy rfl (a := a) (b := b) rfl rfl (by decide)
  obtain ⟨hindependent, hmemory⟩ := hlive .x64 s
  have hfirst : Event.tries (rig.perform s a).trace
      = [⟨0x1000, [0x49, 0xBB, 0, 0x71, 0, 0, 0, 0, 0, 0, 0x41, 0xFF, 0xE3], true⟩] := by decide
  have hsecond : Event.tries (rig.perform s b).trace
      = [⟨0x1010, [0x49, 0xBB, 0, 0x70, 0, 0, 0, 0, 0, 0, 0x41, 0xFF, 0xE3], true⟩] := by decide
  refine ⟨rfl, rfl, by decide, hindependent, hmemory fun x ⟨hx, hx'⟩ => ?_, ?_⟩
  · rw [hfirst] at hx
    rw [hsecond] at hx'
    obtain ⟨t, ht, -, hspans⟩ := hx
    obtain ⟨t', ht', -, hspans'⟩ := hx'
    cases List.mem_singleton.mp ht
    cases List.mem_singleton.mp ht'
    have hclear : ClearOfEnd 0x1000 13 := by decide
    have hclear' : ClearOfEnd 0x1010 13 := by decide
    have hbelow := hclear.spans_iff.mp hspans
    have habove := hclear'.spans_iff.mp hspans'
    have hlow : (0x1000 : Address).toNat = 0x1000 := rfl
    have hhigh : (0x1010 : Address).toNat = 0x1010 := rfl
    omega
  · exact hany Nat String _ _ (fun _ _ _ _ => rfl) (.fresh 0)

end Hotswap
