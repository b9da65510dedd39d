import Hotswap.Proofs.Delivery.Process

/-!
# Modules whose names do not vouch for them

The only way from a file to a session is through a load, and a load offers nothing unless the file
name carries the version that the module reports.  So every candidate of a session that is fed by a
watcher alone goes back to such a load (`Watcher.Origin`):

    module at path, reports version v      path ends in v.extension, v is not empty
    original candidate of the report       stamped with v, whatever it carried
    accepted by the session                its author attached v

To the session, one step of the process is a run of calls (`runs_perform`).  A run of steps is one
as well (`exists_runs`), and `Rig.Runs.lineage` takes over from there.
-/

namespace Hotswap.Delivery

variable {σ ε : Type}

/-! ## Names that vouch for a version -/

theorem Path.carries_iff {version extension : String} {path : Path} :
    path.carries version extension = true
      ↔ version ≠ "" ∧ ∃ name, path.fileName? = some name
        ∧ (version ++ "." ++ extension).toList <:+ name.toList := by
  rw [carries, Bool.and_eq_true, Bool.not_eq_true', Option.any_eq_true]
  simp only [List.isSuffixOf_iff_suffix, ← Bool.not_eq_true, String.isEmpty_iff]

namespace Watcher

/-- Opened by the path, a module reports the candidate `original`, its name vouches for the version
that it reports, and `c` is that candidate as the session has accepted it. -/
structure Vouches (w : Watcher σ ε) (site : Site σ) (path : Path) (report : Report)
    (original c : Candidate) : Prop where
  reported : site.report? path = some report
  member : original ∈ report.candidates
  version : report.version ≠ ""
  name : ∃ name, path.fileName? = some name
    ∧ (report.version ++ "." ++ w.settings.extension).toList <:+ name.toList
  stamped : c = { original with moduleVersion := report.version }
  tag : c.version = some report.version

/-- One of the loads vouches for the candidate. -/
def Origin (w : Watcher σ ε) (loads : List (Site σ × Path)) (c : Candidate) : Prop :=
  ∃ load ∈ loads, ∃ report original, w.Vouches load.1 load.2 report original c

theorem Origin.mono {w : Watcher σ ε} {loads more : List (Site σ × Path)} {c : Candidate}
    (hsubset : loads ⊆ more) (h : w.Origin loads c) : w.Origin more c := by
  obtain ⟨load, hload, hvouches⟩ := h
  exact ⟨load, hsubset hload, hvouches⟩

/-- A load vouches for every candidate that it offers and that the session accepts. -/
theorem origin_of_offers {w : Watcher σ ε} {loads : List (Site σ × Path)} {call : Call}
    {key : String} {c : Candidate} (hcall : call ∈ loads.flatMap w.offers)
    (hsubmitted : call.submitted? key = some c) : w.Origin loads c := by
  obtain ⟨load, hload, hoffer⟩ := List.mem_flatMap.mp hcall
  obtain ⟨report, htaken, c', hc', rfl⟩ := mem_offers_iff.mp hoffer
  obtain ⟨original, horiginal, hstamped⟩ := List.mem_map.mp hc'
  obtain ⟨hreport, hcarries⟩ := taken?_eq_some_iff.mp htaken
  obtain ⟨hversion, hname⟩ := Path.carries_iff.mp hcarries
  obtain ⟨⟨-, hcurrent⟩, hc⟩ := Option.ite_none_right_eq_some.mp hsubmitted
  cases hc
  refine ⟨load, hload, report, original, hreport, horiginal, hversion, hname, hstamped.symm, ?_⟩
  rw [← hstamped] at hcurrent ⊢
  simpa [Candidate.isCurrent] using hcurrent

end Watcher

/-! ## A process with a watcher -/

namespace Watcher

variable (w : Watcher σ ε)

/-- The call applies nothing directly, and one of the loads vouches for what it submits. -/
structure Proper (w : Watcher σ ε) (loads : List (Site σ × Path)) (call : Call) : Prop where
  registry : call.isDirect = false
  origin (key : String) (c : Candidate) : call.submitted? key = some c → w.Origin loads c

theorem Proper.mono {w : Watcher σ ε} {loads more : List (Site σ × Path)} {call : Call}
    (hsubset : loads ⊆ more) (h : w.Proper loads call) : w.Proper more call :=
  ⟨h.registry, fun key c hsubmitted => (h.origin key c hsubmitted).mono hsubset⟩

theorem proper_of_offers {loads : List (Site σ × Path)} {call : Call}
    (hcall : call ∈ loads.flatMap w.offers) : w.Proper loads call := by
  refine ⟨?_, fun key c => origin_of_offers hcall⟩
  obtain ⟨load, -, hoffer⟩ := List.mem_flatMap.mp hcall
  obtain ⟨report, -, c, -, rfl⟩ := mem_offers_iff.mp hoffer
  rfl

theorem proper_of_callsOf {site : Site σ} {step : Step} {call : Call}
    (hcall : call ∈ w.callsOf site step) : w.Proper (w.loadsOf site step) call := by
  cases step with
  | load path => exact w.proper_of_offers hcall
  | loadExisting => exact w.proper_of_offers hcall
  | event notices => exact w.proper_of_offers hcall
  | change change => exact w.proper_of_offers hcall
  | register table =>
      cases List.mem_singleton.mp hcall
      exact ⟨rfl, nofun⟩
  | applyPending key =>
      cases List.mem_singleton.mp hcall
      exact ⟨rfl, nofun⟩

/-- To the session, the steps are a run of proper calls. -/
theorem exists_runs (steps : List Step) (site : Site σ) :
    ∃ calls, w.rig.Runs site.session calls (Event.tries (w.run steps site).trace)
        (w.run steps site).answer (w.run steps site).state.session
      ∧ ∀ call ∈ calls, w.Proper (w.allLoads steps site) call := by
  induction steps generalizing site with
  | nil => exact ⟨[], .done, nofun⟩
  | cons step steps ih =>
      have hstep := w.runs_perform site step
      simp only [run, allLoads, Effect.andThen, Effect.trace_after, Event.tries_append,
        Effect.answer_after, Effect.state_after]
      cases hstopped : (w.perform site step).answer with
      | true =>
          rw [hstopped] at hstep
          simp only [if_true, Effect.trace_pure, Event.tries_nil, List.append_nil]
          exact ⟨_, hstep, fun call hcall => w.proper_of_callsOf hcall⟩
      | false =>
          rw [hstopped] at hstep
          obtain ⟨rest, hrest, hproper⟩ := ih (w.perform site step).state
          simp only [Bool.false_eq_true, if_false]
          refine ⟨_, hstep.append hrest, fun call hcall => ?_⟩
          rcases List.mem_append.mp hcall with hfirst | hlater
          · exact (w.proper_of_callsOf hfirst).mono (List.subset_append_left ..)
          · exact (hproper call hlater).mono (List.subset_append_right ..)

/-- **Nothing arrives that its file name does not vouch for**, for every watcher, every directory
and every run of a process whose session gets its candidates from the watcher alone: a candidate
that waits, and one whose table was applied, was reported in a load made in this run by a module
whose file name ends in its version, a dot and the extension.  All writes are those of such
applications.

A load that fails does nothing to the session and keeps no module.  It leaves the files as they are
as well, if the module itself does. -/
theorem candidates_vouched (writer : σ) (disk : Disk) (residents : List Resident)
    (steps : List Step) :
    let start : Site σ := ⟨.fresh writer, disk, residents⟩
    let e := w.run steps start
    let loads := w.allLoads steps start
    (∀ key c, (e.state.session.slot key).pending = some c → w.Origin loads c)
    ∧ (∃ applications : List (Application σ),
      Event.tries e.trace = applications.flatMap w.rig.triesOf
      ∧ ∀ a ∈ applications, w.Origin loads a.candidate)
    ∧ ∀ site path cause, (w.load path site).answer = .error cause →
      Event.tries (w.load path site).trace = []
      ∧ (w.load path site).state.session = site.session
      ∧ (w.load path site).state.residents = site.residents
      ∧ (site.Stays path → (w.load path site).state = site) := by
  intro start e loads
  obtain ⟨calls, hruns, hproper⟩ := w.exists_runs steps start
  obtain ⟨hpending, happlications⟩ := hruns.lineage (P := w.Origin loads)
    (fun call hcall => (hproper call hcall).registry)
    (fun call hcall => (hproper call hcall).origin) nofun
  refine ⟨hpending, happlications, fun site path cause hfails => ?_⟩
  cases htaken : w.taken? site path with
  | none =>
      obtain ⟨cause', hload⟩ := load_of_not_taken htaken
      obtain ⟨hsession, hresidents⟩ := site.session_entered path
      rw [hload]
      exact ⟨rfl, hsession, hresidents, fun hstays => hstays.entered_eq⟩
  | some report => exact absurd hfails (w.load_ne_error_of_taken htaken)

end Watcher
end Hotswap.Delivery
