import Hotswap.Proofs.Pairing
import Hotswap.Proofs.Session.Run

/-!
# On whose authority a session writes

A session that starts fresh and is driven through its registry only writes what it was asked to.
Each write belongs to one key, and answers to two calls made so far:

    the last registration of the key          its table has the operation at the address
    the last accepted submission for the key  its table has the override that the bytes lead to

What pairing guarantees for the two tables (`Entity.Table.pairing_eq_ok_iff`) is used here and not
proved again.  A submission is applied once at most.  That is about the submission and not about the
candidate: one that is offered again may be applied again.
-/

namespace Hotswap

open Machine (Address)
open Entity (AllSound Operation Replacement Table)

variable {σ ε : Type}

/-- The candidate asks for these bytes at this address of the base `t`: they lead from one of the
operations of `t` to an override that may replace it. -/
structure Rig.Authorizes (rig : Rig σ ε) (t : Table) (c : Candidate) (address : Address)
    (bytes : List UInt8) : Prop where
  current : c.version = some c.moduleVersion
  overlay : t.layout.IsOverlay c.table.layout
  override : ∃ o ∈ t.operations, ∃ p ∈ c.table.operations,
    p.role = .override ∧ p.name = o.name ∧ o.misfit? t.layout c.table.layout p = none
      ∧ address = o.entry ∧ o.entry ≠ 0 ∧ p.entry ≠ 0 ∧ p.entry ≠ o.entry
      ∧ rig.encode p.entry = .ok bytes

/-- In the run from `start`, the call at place `i` hands over the candidate that was submitted by
the one at place `k`. -/
def Rig.Hands (rig : Rig σ ε) (start : Session σ) (calls : List Call) (i k : Nat) : Prop :=
  ∃ m base c, (rig.trail start calls)[i]? = some m
    ∧ rig.handed m.session m.call = some (base, c)
    ∧ IsLast (Call.submitted? c.entity) (calls.take (i + 1)) k c

namespace Rig

section Moment
variable {rig : Rig σ ε} {w : σ} {calls : List Call} {i : Nat} {m : Moment σ} {base : Table}
  {c : Candidate}

theorem accounts_of_trail (hm : (rig.trail (.fresh w) calls)[i]? = some m) :
    rig.Accounts (calls.take (i + 1)) ((rig.trail (.fresh w) calls).take i)
      (m.session.record m.call) := by
  have hreaches : rig.Reaches (.fresh w) ((rig.trail (.fresh w) calls).take i) m.session :=
    Reaches.start.of_trail hm
  rw [rig.take_succ_of_trail hm]
  exact (accounts_of_reaches hreaches).record (Nat.le_of_eq (List.length_map _).symm) m.call

/-- What is handed over was registered and submitted by the last calls that did so for the key, and
no moment since the submission handed over anything of that key. -/
theorem source_of_handed (hm : (rig.trail (.fresh w) calls)[i]? = some m)
    (hhanded : rig.handed m.session m.call = some (base, c)) :
    rig.settles m.session m.call = some c.entity ∧ c.isCurrent
      ∧ (∃ j, IsLast (Call.registered? c.entity) (calls.take (i + 1)) j base)
      ∧ ∃ k, IsLast (Call.submitted? c.entity) (calls.take (i + 1)) k c
        ∧ rig.UsedBefore ((rig.trail (.fresh w) calls).take i) c.entity k := by
  obtain ⟨key, hsettles, hready, -⟩ := perform_of_handed hhanded
  obtain ⟨hbase, hpending⟩ := Session.ready_eq_some_iff.mp hready
  have haccounts := accounts_of_trail hm
  obtain ⟨j, hregistered⟩ := haccounts.base hbase
  obtain ⟨k, hsubmitted, hused⟩ := haccounts.pending hpending
  obtain ⟨call, -, hcall⟩ := hsubmitted.found
  obtain ⟨rfl, hcurrent⟩ := Call.entity_of_submitted? hcall
  exact ⟨hsettles, hcurrent, ⟨j, hregistered⟩, k, hsubmitted, hused⟩

theorem authorizes_of_tries {s : σ} {t : Try} (hcurrent : c.isCurrent)
    (ht : t ∈ Event.tries (rig.apply base c.table s).trace) :
    rig.Authorizes base c t.address t.bytes := by
  obtain ⟨pairs, hpairing, pair, hpair, hdiffer, haddress, hcode⟩ :=
    (rig.apply_applies base c.table s).mem_tries ht
  obtain ⟨hoverlay, hall, rfl⟩ := Table.pairing_eq_ok_iff.mp hpairing
  obtain ⟨r, hr, rfl⟩ := List.mem_map.mp hpair
  obtain ⟨hold, hnew, hrole, hname⟩ := Table.mem_replacements hr
  obtain ⟨before, hsound⟩ := hall.sound hr
  refine ⟨by simpa [Candidate.isCurrent] using hcurrent, hoverlay, r.old, hold, r.new, hnew, hrole,
    hname, Operation.misfit?_eq_none_iff.mpr hsound.fits, haddress, hsound.resolved.1,
    hsound.resolved.2, hdiffer.symm, hcode⟩

theorem handed_once {j k : Nat} (hlt : i < j) (hi : rig.Hands (.fresh w) calls i k)
    (hj : rig.Hands (.fresh w) calls j k) : False := by
  obtain ⟨m, base, c, hm, hhanded, hlast⟩ := hi
  obtain ⟨m', base', c', hm', hhanded', hlast'⟩ := hj
  obtain ⟨hsettles, -, -, -⟩ := source_of_handed hm hhanded
  obtain ⟨-, -, -, k', hlast'', hused⟩ := source_of_handed hm' hhanded'
  cases hlast'.unique hlast''
  -- the call at place `k` submits one candidate only, so both are of one key
  obtain ⟨hk, call, hcall, hsubmitted⟩ := hlast.found_of_take
  obtain ⟨-, call', hcall', hsubmitted'⟩ := hlast'.found_of_take
  cases hcall.symm.trans hcall'
  have hentity : c.entity = c'.entity := Call.entity_eq_of_submitted? hsubmitted hsubmitted'
  have hpast : ((rig.trail (.fresh w) calls).take j)[i]? = some m := by
    rw [List.getElem?_take_of_lt hlt]
    exact hm
  have hbefore := hused i m hpast (by rw [hsettles, hentity]) (by rw [hhanded]; rfl)
  exact Nat.lt_irrefl i (Nat.lt_of_lt_of_le hbefore (Nat.le_of_lt_succ hk))

end Moment
end Rig

/-- **On whose authority a run writes.**  From a fresh session on, for every encoder, writer and
policy and every run through the registry: a write that is handed to the writer belongs to a key,
and at that moment the last registration and the last accepted submission of the key authorize it.
A call that hands something over uses up the submission of its candidate, and its tries are those of
this one application; any other call tries nothing; and no submission is handed over twice. -/
theorem Rig.run_writes_authorized (rig : Rig σ ε) (w : σ) (calls : List Call)
    (hregistry : ∀ call ∈ calls, call.isDirect = false) :
    (∀ i e, (rig.run (.fresh w) calls)[i]? = some e →
      ∀ address bytes accepted, Event.attempt address bytes accepted ∈ e.trace →
        ∃ key t c, (∃ j, IsLast (Call.registered? key) (calls.take (i + 1)) j t)
          ∧ (∃ k, IsLast (Call.submitted? key) (calls.take (i + 1)) k c
            ∧ rig.Hands (.fresh w) calls i k)
          ∧ rig.Authorizes t c address bytes)
    ∧ (∀ i m base c, (rig.trail (.fresh w) calls)[i]? = some m →
      rig.handed m.session m.call = some (base, c) →
        (∃ k, rig.Hands (.fresh w) calls i k)
        ∧ Event.tries (rig.perform m.session m.call).trace
          = Event.tries (rig.apply base c.table m.session.writer).trace)
    ∧ (∀ (i : Nat) (m : Moment σ), (rig.trail (.fresh w) calls)[i]? = some m →
      rig.handed m.session m.call = none →
      Event.tries (rig.perform m.session m.call).trace = [])
    ∧ ∀ i j k, rig.Hands (.fresh w) calls i k → rig.Hands (.fresh w) calls j k → i = j := by
  have hnone : ∀ (i : Nat) (m : Moment σ), (rig.trail (.fresh w) calls)[i]? = some m →
      rig.handed m.session m.call = none →
      Event.tries (rig.perform m.session m.call).trace = [] := by
    intro i m hm hhanded
    have hdirect : m.call.isDirect = false := by
      refine hregistry m.call ((rig.map_call_trail_prefix (.fresh w) calls).subset ?_)
      exact List.mem_map_of_mem (List.mem_of_getElem? hm)
    obtain ⟨-, -, htries⟩ := perform_of_not_handed hdirect hhanded
    exact htries
  refine ⟨?_, ?_, hnone, ?_⟩
  · intro i e he address bytes accepted hattempt
    rw [run_eq_map_trail, List.getElem?_map] at he
    obtain ⟨m, hm, rfl⟩ := Option.map_eq_some_iff.mp he
    have htry := Event.mem_tries.mpr hattempt
    cases hhanded : rig.handed m.session m.call with
    | none =>
        rw [hnone i m hm hhanded] at htry
        exact absurd htry List.not_mem_nil
    | some both =>
        obtain ⟨base, c⟩ := both
        obtain ⟨-, -, -, -, -, htries⟩ := perform_of_handed hhanded
        obtain ⟨-, hcurrent, hregistered, k, hsubmitted, -⟩ := source_of_handed hm hhanded
        rw [htries] at htry
        exact ⟨c.entity, base, c, hregistered, ⟨k, hsubmitted, m, base, c, hm, hhanded, hsubmitted⟩,
          authorizes_of_tries hcurrent htry⟩
  · intro i m base c hm hhanded
    obtain ⟨-, -, -, -, -, htries⟩ := perform_of_handed hhanded
    obtain ⟨-, -, -, k, hsubmitted, -⟩ := source_of_handed hm hhanded
    exact ⟨⟨k, m, base, c, hm, hhanded, hsubmitted⟩, htries⟩
  · intro i j k hi hj
    rcases Nat.lt_trichotomy i j with hlt | heq | hgt
    · exact (handed_once hlt hi hj).elim
    · exact heq
    · exact (handed_once hgt hj hi).elim

/-- Of two candidates that wait, the newer one is applied as the base arrives. -/
theorem Rig.run_writes_authorized_on_registration :
    let plain : Entity.Shape := ⟨none, [], .unit⟩
    let base := (Table.empty (.bare ⟨"S", 8, 8⟩)).define "a" plain 0x1000
    let patch := (Table.empty (.overlay ⟨"P", 8, 8⟩ 0 (.bare ⟨"S", 8, 8⟩))).override "a" plain
    let rig : Rig Nat String := ⟨Machine.Arch.x86.trampoline, .counting none "", {}⟩
    let calls : List Call := [.submit ⟨"S", "1", some "1", patch 0x2000⟩,
      .submit ⟨"S", "1", some "1", patch 0x3000⟩, .register base]
    let bytes : List UInt8 := [0xB8, 0x00, 0x30, 0x00, 0x00, 0xFF, 0xE0]
    (∀ call ∈ calls, call.isDirect = false)
      ∧ ∃ e, (rig.run (.fresh 0) calls)[2]? = some e
        ∧ Event.attempt 0x1000 bytes true ∈ e.trace
        ∧ ∃ key t c, (∃ j, IsLast (Call.registered? key) calls j t)
          ∧ (∃ k, IsLast (Call.submitted? key) calls k c ∧ rig.Hands (.fresh 0) calls 2 k)
          ∧ rig.Authorizes t c 0x1000 bytes := by
  intro plain base patch rig calls bytes
  have hregistry : ∀ call ∈ calls, call.isDirect = false := by simp [calls, Call.isDirect]
  have hrun : ((rig.run (.fresh 0) calls)[2]?.map fun e => Event.tries e.trace)
      = some [⟨0x1000, bytes, true⟩] := by decide
  obtain ⟨e, he, htries⟩ := Option.map_eq_some_iff.mp hrun
  have hattempt : Event.attempt 0x1000 bytes true ∈ e.trace := by
    rw [← Event.mem_tries, htries]
    exact List.mem_singleton_self _
  exact ⟨hregistry, e, he, hattempt,
    (run_writes_authorized rig 0 calls hregistry).1 2 e he 0x1000 bytes true hattempt⟩

end Hotswap
