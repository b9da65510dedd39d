import Hotswap.Proofs.Delivery.Feed

/-!
# A process with a watcher

The session of a process may get its candidates from a watcher alone.  Bases are registered and
waiting candidates are asked for as before, and someone else may change the files in between.  A
step of such a process is one of these, and a run makes steps until one stops the process.

Each step comes to some loads (`Watcher.loadsOf`), and to some calls of the session
(`Watcher.callsOf`).
-/

namespace Hotswap.Delivery

open Entity (Table)

variable {σ ε : Type}

/-- What can happen in a process whose session gets its candidates from a watcher alone. -/
inductive Step where
  | load (path : Path)
  | loadExisting
  /-- Several paths are noticed at once. -/
  | event (notices : List Notice)
  | register (table : Table)
  | applyPending (key : String)
  /-- Someone else changes the files. -/
  | change (change : Change)

namespace Watcher

/-- Makes one step.  The answer is whether it stopped the process. -/
def perform (w : Watcher σ ε) (site : Site σ) : Step → Effect Event (Site σ) Bool
  | .load path => (w.load path site).map Ending.isAborted
  | .loadExisting => (w.loadExisting site).map Ending.isAborted
  | .event notices => (w.heedAll notices site).map Ending.isAborted
  | .register table => call (.register table)
  | .applyPending key => call (.applyPending key)
  | .change change => .pure false { site with disk := change.perform site.disk }
where
  call (c : Call) : Effect Event (Site σ) Bool :=
    ((w.rig.perform site.session c).map Ending.isAborted).mapState fun s =>
      { site with session := s }

/-- Makes the steps in order, up to one that stops the process. -/
def run (w : Watcher σ ε) : List Step → Site σ → Effect Event (Site σ) Bool
  | [], site => .pure false site
  | step :: steps, site =>
    (w.perform site step).andThen fun stopped site =>
      if stopped then .pure true site else w.run steps site

/-- The loads that a step comes to. -/
def loadsOf (w : Watcher σ ε) (site : Site σ) : Step → List (Site σ × Path)
  | .load path => [(site, path)]
  | .loadExisting => w.loads (w.existing site) site
  | .event notices => w.loads (notices.filterMap w.worth?) site
  | _ => []

/-- The loads that are made in a run. -/
def allLoads (w : Watcher σ ε) : List Step → Site σ → List (Site σ × Path)
  | [], _ => []
  | step :: steps, site =>
    w.loadsOf site step ++
      if (w.perform site step).answer then [] else w.allLoads steps (w.perform site step).state

/-- The calls of the session that a step comes to. -/
def callsOf (w : Watcher σ ε) (site : Site σ) : Step → List Call
  | .register table => [.register table]
  | .applyPending key => [.applyPending key]
  | step => (w.loadsOf site step).flatMap w.offers

variable (w : Watcher σ ε)

theorem runs_perform (site : Site σ) (step : Step) :
    w.rig.Runs site.session (w.callsOf site step) (Event.tries (w.perform site step).trace)
      (w.perform site step).answer (w.perform site step).state.session := by
  cases step with
  | load path =>
      have hcalls : w.callsOf site (.load path) = w.offers (site, path) :=
        List.flatMap_singleton ..
      rw [hcalls]
      exact w.feeds_load path site
  | loadExisting => exact w.feeds_loadExisting site
  | event notices => exact w.feeds_heedAll notices site
  | register table => exact w.rig.runs_perform site.session (.register table)
  | applyPending key => exact w.rig.runs_perform site.session (.applyPending key)
  | change change => exact .done

/-! ## What every load keeps -/

section Keeps
variable {w} {Q : Site σ → Prop} (hload : ∀ path site, Q site → Q (w.load path site).state)
include hload

theorem loadAll_keeps (paths : List Path) {site : Site σ} (h : Q site) :
    Q (w.loadAll paths site).state := by
  induction paths generalizing site with
  | nil => exact h
  | cons path paths ih =>
      have hfirst : Q (w.loadLogged path site).state := by
        rw [(w.loadLogged_eq path site).1]
        exact hload path site h
      rw [loadAll]
      refine Effect.state_next_of hfirst fun loaded => ?_
      exact Effect.state_next_of (ih hfirst) fun n => ih hfirst

theorem loadExisting_keeps {site : Site σ} (h : Q site) : Q (w.loadExisting site).state := by
  simp only [loadExisting]
  split
  · exact h
  · exact loadAll_keeps hload _ h

theorem heedAll_keeps (notices : List Notice) {site : Site σ} (h : Q site) :
    Q (w.heedAll notices site).state := by
  induction notices generalizing site with
  | nil => exact h
  | cons notice notices ih =>
      cases hworth : w.worth? notice with
      | none =>
          rw [w.heedAll_cons_of_none hworth]
          exact ih h
      | some path =>
          have hfirst : Q (w.loadLogged path site).state := by
            rw [(w.loadLogged_eq path site).1]
            exact hload path site h
          rw [w.heedAll_cons_of_some hworth]
          exact Effect.state_next_of hfirst fun loaded => ih hfirst

end Keeps

/-- What every step keeps holds at the end of a run. -/
theorem run_keeps {Q : Site σ → Prop} (hstep : ∀ step site, Q site → Q (w.perform site step).state)
    (steps : List Step) {site : Site σ} (h : Q site) : Q (w.run steps site).state := by
  induction steps generalizing site with
  | nil => exact h
  | cons step steps ih =>
      rw [run, Effect.state_andThen]
      split
      · exact hstep step site h
      · exact ih (hstep step site h)

end Watcher
end Hotswap.Delivery
