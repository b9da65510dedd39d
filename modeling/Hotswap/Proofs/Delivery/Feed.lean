import Hotswap.Delivery.Watch
import Hotswap.Proofs.Session.Lineage

/-!
# What loading comes to for the session

To the session, whatever a watcher loads is a run of submissions.  A path from which a report is
taken (`Watcher.taken?`) gives the stamped candidates in order, and any other path gives nothing:

    load path            the submissions of the path
    loadAll paths        those of the loads made, one after the other
    loadExisting         those of the loads made, in path order
    heedAll notices      those of the loads made, in the order of the notices

Each load sees the site that the loads before it have left (`Watcher.loads`).  That is why `Feeds`
speaks of the calls and not of the paths.
-/

namespace Hotswap.Effect

variable {τ σ ε α β γ : Type}

theorem next_after (events : List τ) (e : Effect τ σ (Ending ε α))
    (f : α → σ → Effect τ σ (Ending ε β)) : (e.after events).next f = (e.next f).after events := by
  simp only [next, andThen, after, List.append_assoc]

theorem next_next (e : Effect τ σ (Ending ε α)) (f : α → σ → Effect τ σ (Ending ε β))
    (g : β → σ → Effect τ σ (Ending ε γ)) :
    (e.next f).next g = e.next fun value s => (f value s).next g := by
  cases hanswer : e.answer with
  | ok value => rw [next_ok hanswer, next_ok hanswer, next_after]
  | error cause => rw [next_error hanswer, next_error hanswer, next_error rfl]
  | aborted => rw [next_aborted hanswer, next_aborted hanswer, next_aborted rfl]

/-- What holds where an effect ends, and still where it goes on to, holds at the end of both. -/
theorem state_next_of {Q : σ → Prop} {e : Effect τ σ (Ending ε α)}
    {f : α → σ → Effect τ σ (Ending ε β)} (he : Q e.state)
    (hf : ∀ value, Q (f value e.state).state) : Q (e.next f).state := by
  cases hanswer : e.answer with
  | ok value =>
      rw [next_ok hanswer]
      exact hf value
  | error cause =>
      rw [next_error hanswer]
      exact he
  | aborted =>
      rw [next_aborted hanswer]
      exact he

theorem next_ne_error {e : Effect τ σ (Ending ε α)} {f : α → σ → Effect τ σ (Ending ε β)}
    {cause : ε} (he : e.answer ≠ .error cause)
    (hf : ∀ value s, (f value s).answer ≠ .error cause) : (e.next f).answer ≠ .error cause := by
  cases hanswer : e.answer with
  | ok value =>
      rw [next_ok hanswer]
      exact hf value e.state
  | error cause' =>
      rw [hanswer] at he
      rw [next_error hanswer]
      exact fun h => he (congrArg Ending.error (Ending.error.inj h))
  | aborted =>
      rw [next_aborted hanswer]
      nofun

end Hotswap.Effect

namespace Hotswap.Delivery

variable {σ ε α β : Type}

/-! ## What a path delivers -/

/-- The candidates as they are handed over, with the version of the module. -/
def Report.stamped (r : Report) : List Candidate :=
  r.candidates.map fun c => { c with moduleVersion := r.version }

namespace Site

/-- What the module reports that is opened by the path, if there is one. -/
def report? (site : Site σ) (path : Path) : Option Report :=
  match site.library? path with
  | some (.module r) => some (site.disk.payloads r.source).report
  | _ => none

/-- The site once the library has been opened: a module may have deleted its own file. -/
def entered (site : Site σ) (path : Path) : Site σ :=
  match site.library? path with
  | some (.module r) =>
    if (site.disk.payloads r.source).vanishes then
      (site.unlink r.source).toOption.getD site
    else site
  | _ => site

variable {site : Site σ} {path : Path}

theorem unlink_eq {after : Site σ} (h : site.unlink path = .ok after) :
    ∃ disk, site.disk.unlink path = .ok disk ∧ after = { site with disk := disk } := by
  unfold unlink at h
  cases hdisk : site.disk.unlink path with
  | error cause =>
      rw [hdisk] at h
      cases h
  | ok disk =>
      rw [hdisk] at h
      cases h
      exact ⟨disk, rfl, rfl⟩

theorem session_entered (site : Site σ) (path : Path) :
    (site.entered path).session = site.session
      ∧ (site.entered path).residents = site.residents := by
  unfold entered
  split
  · rename_i r _
    split
    · cases h : site.unlink r.source with
      | error cause => exact ⟨rfl, rfl⟩
      | ok after =>
          obtain ⟨disk, -, rfl⟩ := unlink_eq h
          exact ⟨rfl, rfl⟩
    · exact ⟨rfl, rfl⟩
  · exact ⟨rfl, rfl⟩

/-- The module opened by the path leaves its own file alone. -/
def Stays (site : Site σ) (path : Path) : Prop :=
  ∀ r, site.library? path = some (.module r) → (site.disk.payloads r.source).vanishes = false

theorem Stays.entered_eq (h : site.Stays path) : site.entered path = site := by
  unfold entered
  split
  · rename_i r hr
    rw [h r hr, if_neg Bool.false_ne_true]
  · rfl

end Site

namespace Watcher

variable (w : Watcher σ ε)

/-- The report that is taken from a path: there is a module, and its name carries the version. -/
def taken? (w : Watcher σ ε) (site : Site σ) (path : Path) : Option Report :=
  (site.report? path).filter fun r => path.carries r.version w.settings.extension

/-- What loading a path offers to the session. -/
def offers (w : Watcher σ ε) (load : Site σ × Path) : List Call :=
  (w.taken? load.1 load.2).elim [] fun r => r.stamped.map .submit

variable {w} {site : Site σ} {path : Path} {report : Report}

theorem taken?_eq_some_iff :
    w.taken? site path = some report
      ↔ site.report? path = some report
        ∧ path.carries report.version w.settings.extension = true :=
  Option.filter_eq_some_iff

theorem mem_offers_iff {load : Site σ × Path} {call : Call} :
    call ∈ w.offers load
      ↔ ∃ report, w.taken? load.1 load.2 = some report ∧ ∃ c ∈ report.stamped, call = .submit c := by
  unfold offers
  cases w.taken? load.1 load.2 with
  | none => simp
  | some report => simp [eq_comm]

/-- A path from which nothing is taken: the load fails, and nothing has happened but what the
module itself did. -/
theorem load_of_not_taken (h : w.taken? site path = none) :
    ∃ cause, w.load path site = .pure (.error cause) (site.entered path) := by
  unfold load Site.entered
  cases hlibrary : site.library? path with
  | none => exact ⟨.unloadable path, rfl⟩
  | some library =>
      cases library with
      | stranger => exact ⟨.noEntry path, rfl⟩
      | module r =>
          simp only [taken?, Site.report?, hlibrary, Option.filter_some,
            ite_eq_right_iff, reduceCtorEq, imp_false] at h
          refine ⟨.version path (site.disk.payloads r.source).report.version, ?_⟩
          simp only [accept, if_neg h]
          exact Effect.next_error rfl _

/-- A path from which a report is taken: the module is in memory once its candidates are
accepted. -/
theorem load_of_taken (h : w.taken? site path = some report) :
    ∃ r, site.library? path = some (.module r)
      ∧ w.load path site
        = (w.accept path report (site.entered path)).next fun accepted site =>
            .pure (.ok accepted) (site.keep r) := by
  obtain ⟨hreport, -⟩ := taken?_eq_some_iff.mp h
  unfold Site.report? at hreport
  unfold load Site.entered
  cases hlibrary : site.library? path with
  | none =>
      rw [hlibrary] at hreport
      cases hreport
  | some library =>
      rw [hlibrary] at hreport
      cases library with
      | stranger => cases hreport
      | module r =>
          cases hreport
          exact ⟨r, rfl, rfl⟩

end Watcher

/-! ## Effects that feed a session -/

/-- The effect does to the session what the calls do from `s` on, and makes their tries. -/
def Feeds (rig : Rig σ ε) (s : Session σ) (calls : List Call)
    (e : Effect Event (Site σ) (Ending LoadError α)) : Prop :=
  rig.Runs s calls (Event.tries e.trace) e.answer.isAborted e.state.session

/-- The effect neither tries anything nor stops the process, and leaves the session as it is. -/
structure Quiet (s : Session σ) (e : Effect Event (Site σ) (Ending LoadError α)) : Prop where
  goes : e.answer.isAborted = false
  session : e.state.session = s
  tries : Event.tries e.trace = []

section Feeds
variable {rig : Rig σ ε} {s : Session σ} {calls rest : List Call}
  {e : Effect Event (Site σ) (Ending LoadError α)}
  {f : α → Site σ → Effect Event (Site σ) (Ending LoadError β)}

theorem Quiet.feeds (h : Quiet s e) : Feeds rig s [] e := by
  unfold Feeds
  rw [h.goes, h.session, h.tries]
  exact .done

theorem Feeds.after {events : List Event} (hquiet : Event.tries events = [])
    (h : Feeds rig s calls e) : Feeds rig s calls (e.after events) := by
  unfold Feeds
  rw [Effect.trace_after, Event.tries_append, hquiet, List.nil_append]
  exact h

theorem Feeds.next_quiet (hquiet : ∀ value site, Quiet site.session (f value site))
    (h : Feeds rig s calls e) : Feeds rig s calls (e.next f) := by
  unfold Feeds at h
  cases hanswer : e.answer with
  | ok value =>
      have hrest := hquiet value e.state
      rw [hanswer] at h
      rw [Effect.next_ok hanswer, Feeds, Effect.trace_after, Event.tries_append, hrest.tries,
        List.append_nil, Effect.answer_after, hrest.goes, Effect.state_after, hrest.session]
      exact h
  | error cause =>
      rw [Effect.next_error hanswer]
      rw [hanswer] at h
      exact h
  | aborted =>
      rw [Effect.next_aborted hanswer]
      rw [hanswer] at h
      exact h

/-- What comes after a success feeds the session further; an error before it does not occur. -/
theorem Feeds.next (hgoes : ∀ cause, e.answer ≠ .error cause)
    (hrest : ∀ value, e.answer = .ok value →
      Feeds rig e.state.session rest (f value e.state))
    (hstop : e.answer = .aborted → rest = [])
    (h : Feeds rig s calls e) : Feeds rig s (calls ++ rest) (e.next f) := by
  unfold Feeds at h
  cases hanswer : e.answer with
  | ok value =>
      rw [hanswer] at h
      rw [Effect.next_ok hanswer, Feeds, Effect.trace_after, Event.tries_append]
      exact h.append (hrest value hanswer)
  | error cause => exact absurd hanswer (hgoes cause)
  | aborted =>
      rw [hanswer] at h
      rw [Effect.next_aborted hanswer, hstop hanswer, List.append_nil]
      exact h

end Feeds

namespace Watcher

variable (w : Watcher σ ε)

theorem runs_submitAll (cs : List Candidate) (s : Session σ) :
    w.rig.Runs s (cs.map .submit) (Event.tries (w.submitAll cs s).trace)
      (w.submitAll cs s).answer.isAborted (w.submitAll cs s).state := by
  induction cs generalizing s with
  | nil => exact .done
  | cons c cs ih =>
      have hrest := ih (w.rig.submit c s).state
      cases hanswer : (w.rig.submit c s).answer with
      | ok outcome =>
          have hgoes : (w.rig.perform s (.submit c)).answer ≠ .aborted := by
            simp [Rig.perform, hanswer]
          have hsubmit : w.submitAll (c :: cs) s
              = (⟨(w.submitAll cs (w.rig.submit c s).state).answer.map (· + 1),
                  (w.submitAll cs (w.rig.submit c s).state).state,
                  (w.submitAll cs (w.rig.submit c s).state).trace⟩
                : Effect Event (Session σ) (Ending LoadError Nat)).after
                  (w.rig.submit c s).trace := by
            rw [← Effect.next_pure]
            simp only [submitAll, Effect.andThen, hanswer]
          rw [hsubmit, Effect.trace_after, Event.tries_append, Effect.answer_after,
            Ending.isAborted_map]
          exact .call hgoes hrest
      | error e =>
          have hgoes : (w.rig.perform s (.submit c)).answer ≠ .aborted := by
            simp [Rig.perform, hanswer]
          simp only [submitAll, Effect.andThen, hanswer, Effect.trace_after, Event.tries_append,
            Event.tries_note, Event.tries_nil, List.nil_append]
          exact .call hgoes hrest
      | aborted =>
          simp only [submitAll, Effect.andThen, hanswer, Effect.trace_after, Effect.trace_pure,
            List.append_nil]
          exact .stop hanswer

theorem submitAll_ne_error (cs : List Candidate) (s : Session σ) {cause : LoadError} :
    (w.submitAll cs s).answer ≠ .error cause := by
  induction cs generalizing s with
  | nil => simp [submitAll]
  | cons c cs ih =>
      have hrest := ih (w.rig.submit c s).state
      cases hanswer : (w.rig.submit c s).answer with
      | ok outcome =>
          simp only [submitAll, Effect.andThen, hanswer, Effect.answer_after]
          exact Effect.next_ne_error hrest fun n s => by simp
      | error e =>
          simp only [submitAll, Effect.andThen, hanswer, Effect.answer_after]
          exact hrest
      | aborted =>
          simp [submitAll, Effect.andThen, hanswer]

theorem quiet_discard (path : Path) (accepted : Nat) (site : Site σ) :
    Quiet site.session ((w.discard path site).map fun () => .ok accepted) := by
  unfold discard
  split
  · split
    · rename_i after h
      obtain ⟨disk, -, rfl⟩ := Site.unlink_eq h
      exact ⟨rfl, rfl, rfl⟩
    · exact ⟨rfl, rfl, rfl⟩
  · exact ⟨rfl, rfl, rfl⟩

theorem feeds_accept {path : Path} {report : Report}
    (hcarries : path.carries report.version w.settings.extension = true) (site : Site σ) :
    Feeds w.rig site.session (report.stamped.map .submit) (w.accept path report site) := by
  simp only [accept, if_pos hcarries]
  exact .next_quiet (w.quiet_discard path) (w.runs_submitAll report.stamped site.session)

theorem feeds_load (path : Path) (site : Site σ) :
    Feeds w.rig site.session (w.offers (site, path)) (w.load path site) := by
  obtain ⟨hsession, -⟩ := site.session_entered path
  cases htaken : w.taken? site path with
  | none =>
      obtain ⟨cause, hload⟩ := load_of_not_taken htaken
      rw [hload, offers, htaken]
      exact Quiet.feeds ⟨rfl, hsession, rfl⟩
  | some report =>
      obtain ⟨r, -, hload⟩ := load_of_taken htaken
      obtain ⟨-, hcarries⟩ := taken?_eq_some_iff.mp htaken
      have haccept := w.feeds_accept hcarries (site.entered path)
      rw [hsession] at haccept
      rw [hload, offers, htaken]
      exact .next_quiet (fun accepted site => ⟨rfl, rfl, rfl⟩) haccept

theorem load_ne_error_of_taken {path : Path} {site : Site σ} {report : Report} {cause : LoadError}
    (h : w.taken? site path = some report) : (w.load path site).answer ≠ .error cause := by
  obtain ⟨r, -, hload⟩ := load_of_taken h
  obtain ⟨-, hcarries⟩ := taken?_eq_some_iff.mp h
  rw [hload]
  refine Effect.next_ne_error ?_ fun accepted site => nofun
  simp only [accept, if_pos hcarries]
  refine Effect.next_ne_error ?_ fun accepted site => nofun
  exact w.submitAll_ne_error report.stamped (site.entered path).session

/-! ## Loading one after the other -/

/-- A load that is logged ends as the load does, but never with an error. -/
theorem loadLogged_eq (path : Path) (site : Site σ) :
    (w.loadLogged path site).state = (w.load path site).state
      ∧ Event.tries (w.loadLogged path site).trace = Event.tries (w.load path site).trace
      ∧ (w.loadLogged path site).answer
        = if (w.load path site).answer.isAborted then .aborted
          else .ok (w.load path site).answer.isOk := by
  unfold loadLogged
  cases hanswer : (w.load path site).answer with
  | ok accepted => simp [Effect.andThen, hanswer, Ending.isAborted, Ending.isOk]
  | error cause => simp [Effect.andThen, hanswer, Ending.isAborted, Ending.isOk]
  | aborted => simp [Effect.andThen, hanswer, Ending.isAborted]

theorem feeds_loadLogged (path : Path) (site : Site σ) :
    Feeds w.rig site.session (w.offers (site, path)) (w.loadLogged path site) := by
  obtain ⟨hstate, htries, hanswer⟩ := w.loadLogged_eq path site
  have haborted : (w.loadLogged path site).answer.isAborted
      = (w.load path site).answer.isAborted := by
    rw [hanswer]
    cases (w.load path site).answer.isAborted with
    | true => rfl
    | false => rfl
  unfold Feeds
  rw [hstate, htries, haborted]
  exact w.feeds_load path site

/-- The loads that loading the paths in order comes to, each with the site that it finds.  There is
none after a stop of the process. -/
def loads (w : Watcher σ ε) : List Path → Site σ → List (Site σ × Path)
  | [], _ => []
  | path :: paths, site =>
    (site, path) ::
      if (w.load path site).answer.isAborted then [] else w.loads paths (w.load path site).state

theorem feeds_next_loadLogged {path : Path} {site : Site σ} {rest : List Call}
    {f : Bool → Site σ → Effect Event (Site σ) (Ending LoadError α)}
    (hrest : ∀ loaded, Feeds w.rig (w.load path site).state.session rest
      (f loaded (w.load path site).state)) :
    Feeds w.rig site.session
      (w.offers (site, path) ++ if (w.load path site).answer.isAborted then [] else rest)
      ((w.loadLogged path site).next f) := by
  obtain ⟨hstate, -, hanswer⟩ := w.loadLogged_eq path site
  rw [← hstate] at hrest
  have hlogged := w.feeds_loadLogged path site
  cases haborted : (w.load path site).answer.isAborted with
  | true =>
      rw [haborted, if_pos rfl] at hanswer
      rw [if_pos rfl]
      exact .next (by rw [hanswer]; nofun) (by rw [hanswer]; nofun) (fun _ => rfl) hlogged
  | false =>
      rw [haborted, if_neg Bool.false_ne_true] at hanswer
      rw [if_neg Bool.false_ne_true]
      exact .next (by rw [hanswer]; nofun) (fun loaded _ => hrest loaded) (by rw [hanswer]; nofun)
        hlogged

theorem flatMap_loads (path : Path) (paths : List Path) (site : Site σ) :
    (w.loads (path :: paths) site).flatMap w.offers
      = w.offers (site, path) ++ if (w.load path site).answer.isAborted then []
        else (w.loads paths (w.load path site).state).flatMap w.offers := by
  rw [loads, List.flatMap_cons]
  split
  · rfl
  · rfl

theorem feeds_loadAll (paths : List Path) (site : Site σ) :
    Feeds w.rig site.session ((w.loads paths site).flatMap w.offers) (w.loadAll paths site) := by
  induction paths generalizing site with
  | nil => exact .done
  | cons path paths ih =>
      rw [flatMap_loads, loadAll]
      refine w.feeds_next_loadLogged fun loaded => ?_
      exact .next_quiet (fun n site => ⟨rfl, rfl, rfl⟩) (ih (w.load path site).state)

/-- The paths that loading what is in the directory goes through. -/
def existing (w : Watcher σ ε) (site : Site σ) : List Path :=
  match site.disk.list w.settings.directory with
  | .error _ => []
  | .ok listed => regularFiles site.disk (w.modulePaths listed)

theorem tries_skipped (disk : Disk) (paths : List Path) :
    Event.tries (skipped disk paths) = [] := by
  induction paths with
  | nil => rfl
  | cons path paths ih =>
      cases h : disk.isFile path with
      | ok isFile => simpa [skipped, h] using ih
      | error cause => simpa [skipped, h] using ih

theorem feeds_loadExisting (site : Site σ) :
    Feeds w.rig site.session ((w.loads (w.existing site) site).flatMap w.offers)
      (w.loadExisting site) := by
  unfold existing
  cases hlist : site.disk.list w.settings.directory with
  | error cause =>
      simp only [loadExisting, hlist]
      exact .done
  | ok listed =>
      simp only [loadExisting, hlist]
      exact .after (tries_skipped ..) (w.feeds_loadAll _ site)

/-- The path that is loaded because of a notice. -/
def worth? (w : Watcher σ ε) (notice : Notice) : Option Path :=
  notice.fresh?.filter (Path.isModule w.settings.extension)

theorem heedAll_cons_of_none {notice : Notice} (h : w.worth? notice = none)
    (notices : List Notice) (site : Site σ) :
    w.heedAll (notice :: notices) site = w.heedAll notices site := by
  unfold worth? at h
  rw [heedAll, heed]
  cases hfresh : notice.fresh? with
  | none => rfl
  | some path =>
      have hmodule : path.isModule w.settings.extension = false := by simpa [hfresh] using h
      simp only [hmodule]
      rfl

theorem heedAll_cons_of_some {notice : Notice} {path : Path} (h : w.worth? notice = some path)
    (notices : List Notice) (site : Site σ) :
    w.heedAll (notice :: notices) site
      = (w.loadLogged path site).next fun _ site => w.heedAll notices site := by
  obtain ⟨hfresh, hmodule⟩ := Option.filter_eq_some_iff.mp h
  simp only [heedAll, heed, hfresh, hmodule, if_true, Effect.next_next]
  rfl

theorem feeds_heedAll (notices : List Notice) (site : Site σ) :
    Feeds w.rig site.session ((w.loads (notices.filterMap w.worth?) site).flatMap w.offers)
      (w.heedAll notices site) := by
  induction notices generalizing site with
  | nil => exact .done
  | cons notice notices ih =>
      cases hworth : w.worth? notice with
      | none =>
          rw [heedAll_cons_of_none w hworth, List.filterMap_cons_none hworth]
          exact ih site
      | some path =>
          rw [heedAll_cons_of_some w hworth, List.filterMap_cons_some hworth, flatMap_loads]
          exact w.feeds_next_loadLogged fun loaded => ih (w.load path site).state

end Watcher
end Hotswap.Delivery
