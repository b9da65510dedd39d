import Hotswap.Proofs.Delivery.Descent

/-!
# Files only go

While nobody adds files, they only go.  Some go because a watcher has loaded them, and some because
someone else removes them.

    Chain     one load after the other, each in the site that the one before it left
    Course    the same, with changes by someone else in between, none of which adds a file

A run of steps that load and of such changes is a course (`course_run`).  Whatever is missing at the
end of a course was taken away by one of its loads or withdrawn by one of its changes
(`Course.lacks`).  No file is taken away twice: once a load has succeeded, nothing is left to delete
where its path leads (`Course.not_removable`).
-/

namespace Hotswap.Delivery

variable {σ ε : Type}

/-! ## Loads in a chain -/

namespace Watcher

variable (w : Watcher σ ε) {site last : Site σ} {path : Path}

/-- The loads were made one after the other, each in the site that the one before it left. -/
inductive Chain (w : Watcher σ ε) : Site σ → List (Site σ × Path) → Site σ → Prop
  | done {site : Site σ} : Chain w site [] site
  | load {site last : Site σ} {path : Path} {loads : List (Site σ × Path)} :
      Chain w (w.load path site).state loads last → Chain w site ((site, path) :: loads) last

section Chain
variable {w} {loads : List (Site σ × Path)}

theorem Chain.tidy (h : w.Chain site loads last) (htidy : site.Tidy) : last.Tidy := by
  induction h with
  | done => exact htidy
  | load _ ih => exact ih (w.tidy_load htidy _)

theorem Chain.lacksOnly (h : w.Chain site loads last) (htidy : site.Tidy) :
    Disk.LacksOnly (fun place => ∃ load ∈ loads, w.TakesAway load place) last.disk site.disk := by
  induction h with
  | done => exact .refl _
  | @load site last path loads _ ih =>
      have hfirst : Disk.LacksOnly (fun place => ∃ load ∈ (site, path) :: loads,
          w.TakesAway load place) (w.load path site).state.disk site.disk :=
        (w.lacksOnly_load htidy path).mono fun place htakes =>
          ⟨(site, path), List.mem_cons_self, htakes⟩
      refine ((ih (w.tidy_load htidy path)).mono fun place htakes => ?_).trans hfirst
      obtain ⟨load, hload, htakes⟩ := htakes
      exact ⟨load, List.mem_cons_of_mem _ hload, htakes⟩

end Chain

theorem chain_next_loadLogged {α : Type} {rest : List (Site σ × Path)}
    {f : Bool → Site σ → Effect Event (Site σ) (Ending LoadError α)}
    (hrest : ∀ loaded, w.Chain (w.load path site).state rest
      (f loaded (w.load path site).state).state) :
    w.Chain site ((site, path) :: if (w.load path site).answer.isAborted then [] else rest)
      ((w.loadLogged path site).next f).state := by
  obtain ⟨hstate, -, hanswer⟩ := w.loadLogged_eq path site
  cases haborted : (w.load path site).answer.isAborted with
  | true =>
      rw [haborted, if_pos rfl] at hanswer
      rw [if_pos rfl, Effect.next_aborted hanswer, hstate]
      exact .load .done
  | false =>
      rw [haborted, if_neg Bool.false_ne_true] at hanswer
      rw [if_neg Bool.false_ne_true, Effect.next_ok hanswer, hstate]
      exact .load (hrest _)

theorem chain_loadAll (paths : List Path) (site : Site σ) :
    w.Chain site (w.loads paths site) (w.loadAll paths site).state := by
  induction paths generalizing site with
  | nil => exact .done
  | cons path paths ih =>
      rw [loads, loadAll]
      refine w.chain_next_loadLogged fun loaded => ?_
      rw [Effect.next_pure]
      exact ih (w.load path site).state

theorem chain_loadExisting (site : Site σ) :
    w.Chain site (w.loads (w.existing site) site) (w.loadExisting site).state := by
  unfold existing
  cases hlist : site.disk.list w.settings.directory with
  | error cause =>
      simp only [loadExisting, hlist]
      exact .done
  | ok listed =>
      simp only [loadExisting, hlist]
      exact w.chain_loadAll _ site

theorem chain_heedAll (notices : List Notice) (site : Site σ) :
    w.Chain site (w.loads (notices.filterMap w.worth?) site) (w.heedAll notices site).state := by
  induction notices generalizing site with
  | nil => exact .done
  | cons notice notices ih =>
      cases hworth : w.worth? notice with
      | none =>
          rw [heedAll_cons_of_none w hworth, List.filterMap_cons_none hworth]
          exact ih site
      | some path =>
          rw [heedAll_cons_of_some w hworth, List.filterMap_cons_some hworth, loads]
          exact w.chain_next_loadLogged fun loaded => ih (w.load path site).state

end Watcher

/-! ## Changes that add nothing -/

namespace Change

/-- The change brings an entry. -/
def adds : Change → Bool
  | put _ _ _ => true
  | deliver _ _ _ => true
  | touch _ _ => false
  | remove _ => false

/-- The change removes what is at the place, or a directory above it. -/
def Withdraws (d : Disk) (place : Place) : Change → Prop
  | remove path => ∃ above, d.entryPlace path = .ok above ∧ above <+: place
  | _ => False

variable {P : Place → Prop} {small big : Disk} {place : Place} {change : Change}

theorem Withdraws.of_lacks (hlacks : Disk.Lacks P small big) (h : change.Withdraws small place) :
    change.Withdraws big place := by
  cases change with
  | put path node modified => exact h
  | deliver path payload modified => exact h
  | touch path modified => exact h
  | remove path =>
      obtain ⟨above, hplace, hbelow⟩ := h
      exact ⟨above, hlacks.entryPlace hplace, hbelow⟩

theorem lacks_perform (hadds : change.adds = false) (d : Disk) :
    Disk.Lacks (fun place => change.Withdraws d place) (change.perform d) d := by
  cases change with
  | put path node modified => cases hadds
  | deliver path payload modified => cases hadds
  | touch path modified =>
      rw [perform, Disk.touch]
      split
      · exact ⟨rfl, fun other => .inl (Disk.sees_stamp ..)⟩
      · exact .refl d
  | remove path =>
      rw [perform, Disk.erase]
      split
      · rename_i above hplace
        cases hthere : (d.nodeAt? above).isSome with
        | false =>
            rw [Disk.drop, hthere, if_neg Bool.false_ne_true]
            exact .refl d
        | true =>
            refine ⟨by rw [Disk.drop, if_pos hthere]; rfl, fun other => ?_⟩
            rw [Disk.sees_drop hthere]
            split
            · rename_i hbelow
              exact .inr ⟨⟨above, hplace, hbelow⟩, rfl⟩
            · exact .inl rfl
      · exact .refl d

end Change

/-! ## Courses -/

namespace Watcher

/-- The loads were made one after the other, each in the site that was left by the one before it and
by the changes in between.  None of the changes added anything. -/
inductive Course (w : Watcher σ ε) : Site σ → List (Site σ × Path) → List Change → Site σ → Prop
  | done {site : Site σ} : Course w site [] [] site
  | load {site last : Site σ} {path : Path} {loads : List (Site σ × Path)}
      {changes : List Change} :
      Course w (w.load path site).state loads changes last →
      Course w site ((site, path) :: loads) changes last
  | change {site last : Site σ} {change : Change} {loads : List (Site σ × Path)}
      {changes : List Change} :
      change.adds = false →
      Course w { site with disk := change.perform site.disk } loads changes last →
      Course w site loads (change :: changes) last

variable {w : Watcher σ ε} {site last : Site σ} {loads : List (Site σ × Path)}
  {changes : List Change}

theorem Chain.course {more : List (Site σ × Path)} {middle : Site σ}
    (h : w.Chain site loads middle) (hmore : w.Course middle more changes last) :
    w.Course site (loads ++ more) changes last := by
  induction h with
  | done => exact hmore
  | load _ ih => exact .load (ih hmore)

namespace Course

theorem tidy (h : w.Course site loads changes last) (htidy : site.Tidy) : last.Tidy := by
  induction h with
  | done => exact htidy
  | load _ ih => exact ih (w.tidy_load htidy _)
  | change _ _ ih => exact ih (w.tidy_perform htidy (.change _))

/-- Whatever is gone was taken away by a load or withdrawn by a change. -/
theorem lacks (h : w.Course site loads changes last) (htidy : site.Tidy) :
    Disk.Lacks (fun place => (∃ load ∈ loads, w.TakesAway load place)
      ∨ ∃ change ∈ changes, change.Withdraws site.disk place) last.disk site.disk := by
  induction h with
  | done => exact .refl _
  | @load site last path loads changes _ ih =>
      have hload := (w.lacksOnly_load htidy path).lacks
      refine ((ih (w.tidy_load htidy path)).mono fun place hgone => ?_).trans
        (hload.mono fun place htakes => .inl ⟨(site, path), List.mem_cons_self, htakes⟩)
      rcases hgone with ⟨load, hmem, htakes⟩ | ⟨change, hmem, hwithdraws⟩
      · exact .inl ⟨load, List.mem_cons_of_mem _ hmem, htakes⟩
      · exact .inr ⟨change, hmem, hwithdraws.of_lacks hload⟩
  | @change site last change loads changes hadds _ ih =>
      have hchange := Change.lacks_perform hadds site.disk
      refine ((ih (w.tidy_perform htidy (.change change))).mono fun place hgone => ?_).trans
        (hchange.mono fun place hwithdraws => .inr ⟨change, List.mem_cons_self, hwithdraws⟩)
      rcases hgone with ⟨load, hmem, htakes⟩ | ⟨other, hmem, hwithdraws⟩
      · exact .inl ⟨load, hmem, htakes⟩
      · exact .inr ⟨other, List.mem_cons_of_mem _ hmem, hwithdraws.of_lacks hchange⟩

theorem split {before after : List (Site σ × Path)} {load : Site σ × Path}
    (h : w.Course site (before ++ load :: after) changes last) :
    ∃ earlier later, w.Course site before earlier load.1
      ∧ w.Course (w.load load.2 load.1).state after later last := by
  generalize hloads : before ++ load :: after = loads at h
  induction h generalizing before with
  | done => exact absurd hloads (List.append_ne_nil_of_right_ne_nil before (List.cons_ne_nil _ _))
  | load hrest ih =>
      cases before with
      | nil =>
          cases hloads
          exact ⟨[], _, .done, hrest⟩
      | cons first before =>
          cases hloads
          obtain ⟨earlier, later, hbefore, hafter⟩ := ih rfl
          exact ⟨earlier, later, .load hbefore, hafter⟩
  | change hadds _ ih =>
      obtain ⟨earlier, later, hbefore, hafter⟩ := ih hloads
      exact ⟨_, later, .change hadds hbefore, hafter⟩

theorem around (h : w.Course site loads changes last) {load : Site σ × Path}
    (hload : load ∈ loads) :
    ∃ before after earlier later, w.Course site before earlier load.1
      ∧ w.Course (w.load load.2 load.1).state after later last := by
  obtain ⟨before, after, rfl⟩ := List.append_of_mem hload
  exact ⟨before, after, h.split⟩

/-- A course leads from each of its loads to every later one. -/
theorem between (h : w.Course site loads changes last) (htidy : site.Tidy) :
    loads.Pairwise fun earlier later => earlier.1.Tidy
      ∧ ∃ loads changes, w.Course (w.load earlier.2 earlier.1).state loads changes later.1 := by
  induction h with
  | done => exact .nil
  | change _ _ ih => exact ih (w.tidy_perform htidy (.change _))
  | load hrest ih =>
      refine .cons (fun later hlater => ⟨htidy, ?_⟩) (ih (w.tidy_load htidy _))
      obtain ⟨before, _, earlier, _, hbefore, -⟩ := hrest.around hlater
      exact ⟨before, earlier, hbefore⟩

theorem not_removable {path q : Path}
    (h : w.Course (w.load path site).state loads changes last) (htidy : site.Tidy)
    (hremove : w.settings.removeAfterLoad = true)
    (hok : (w.load path site).answer.isOk = true)
    (hsame : ∀ place, site.disk.entryPlace q = .ok place → site.disk.entryPlace path = .ok place) :
    ¬ last.disk.Removable q := by
  intro hremovable
  have hlacks := h.lacks (w.tidy_load htidy path)
  exact w.not_removable_load hremove htidy hok hsame (hlacks.removable hremovable)

end Course
end Watcher

/-! ## Steps -/

/-- What this step does to the files apart from loading. -/
def Step.change? : Step → Option Change
  | .change c => some c
  | _ => none

theorem Step.change?_eq_some_iff {step : Step} {c : Change} :
    step.change? = some c ↔ step = .change c := by
  cases step with
  | change other => simp [Step.change?]
  | load path => simp [Step.change?]
  | loadExisting => simp [Step.change?]
  | event notices => simp [Step.change?]
  | register table => simp [Step.change?]
  | applyPending key => simp [Step.change?]

theorem Step.filterMap_change?_cons (step : Step) (steps : List Step) :
    (step :: steps).filterMap change? = step.change?.toList ++ steps.filterMap change? := by
  cases hchange : step.change? with
  | none => rw [List.filterMap_cons_none hchange, Option.toList_none, List.nil_append]
  | some c => rw [List.filterMap_cons_some hchange, Option.toList_some, List.singleton_append]

/-- The step loads, or someone else changes the files and adds none. -/
def Step.onlyTakes : Step → Bool
  | .load _ => true
  | .loadExisting => true
  | .event _ => true
  | .change c => !c.adds
  | .register _ => false
  | .applyPending _ => false

namespace Watcher

variable (w : Watcher σ ε) {steps : List Step} {step : Step}

theorem course_perform {site last : Site σ} {loads : List (Site σ × Path)} {changes : List Change}
    (hstep : step.onlyTakes = true)
    (hrest : w.Course (w.perform site step).state loads changes last) :
    w.Course site (w.loadsOf site step ++ loads) (step.change?.toList ++ changes) last := by
  cases step with
  | load path => exact .load hrest
  | loadExisting => exact (w.chain_loadExisting site).course hrest
  | event notices => exact (w.chain_heedAll notices site).course hrest
  | change change => exact .change (by simpa [Step.onlyTakes] using hstep) hrest
  | register table => cases hstep
  | applyPending key => cases hstep

theorem callsOf_of_onlyTakes (hstep : step.onlyTakes = true) (site : Site σ) :
    w.callsOf site step = (w.loadsOf site step).flatMap w.offers := by
  cases step with
  | load path => rfl
  | loadExisting => rfl
  | event notices => rfl
  | change change => rfl
  | register table => cases hstep
  | applyPending key => cases hstep

/-- A run is a course, and to the session it is a run of what the loads offer. -/
theorem course_run (hpolicy : w.rig.policy.abortOnFault = false)
    (hsteps : ∀ step ∈ steps, step.onlyTakes = true) (site : Site σ) :
    w.Course site (w.allLoads steps site) (steps.filterMap Step.change?) (w.run steps site).state
      ∧ w.rig.Runs site.session ((w.allLoads steps site).flatMap w.offers)
        (Event.tries (w.run steps site).trace) false (w.run steps site).state.session := by
  induction steps generalizing site with
  | nil => exact ⟨.done, .done⟩
  | cons step steps ih =>
      have htakes := hsteps step List.mem_cons_self
      have hruns := w.runs_perform site step
      have hgoes := hruns.goes hpolicy
      rw [w.callsOf_of_onlyTakes htakes, hgoes] at hruns
      obtain ⟨hcourse', hruns'⟩ := ih (fun step hstep => hsteps step (List.mem_cons_of_mem _ hstep))
        (w.perform site step).state
      have hcourse := w.course_perform htakes hcourse'
      rw [← Step.filterMap_change?_cons] at hcourse
      simp only [run, allLoads, Effect.andThen, Effect.trace_after, Event.tries_append,
        Effect.state_after, hgoes, Bool.false_eq_true, if_false, List.flatMap_append]
      exact ⟨hcourse, hruns.append hruns'⟩

end Watcher
end Hotswap.Delivery
