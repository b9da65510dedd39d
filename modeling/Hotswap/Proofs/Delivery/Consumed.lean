import Hotswap.Proofs.Delivery.Kept

/-!
# Modules are consumed

A watcher that removes what it loads drains its directory.  While nobody adds files, each of them
goes once (`Course.not_removable`), and so no file is loaded twice, whatever the paths that name it
(`Course.nodup_consumptions`).  A path can succeed twice: the module stays in memory, and opening
its path again finds it there although the file is gone (`loaded_twice`).

    a load succeeded      no file is left at the path
    a load failed         the path is spent, as far as the later loads have other file names
    load a spent path     fails, and changes nothing (`Spent.load_eq`)

The names in a directory differ.  That is why, once all of it has been loaded, each path that is
still there is spent, and loading the directory again does nothing (`loadExisting_twice`).
-/

namespace Hotswap.Delivery

open Entity (Table)

variable {σ ε : Type}

/-! ## What fewer files show -/

namespace Disk

variable {small big : Disk} {p dir : Path} {P : Place → Prop}

namespace LacksOnly

theorem isFile (h : LacksOnly P small big) (hsmall : small.isFile p = .ok true) :
    big.isFile p = .ok true := by
  obtain ⟨place, hfind, hfile⟩ := isFile_eq_true_iff.mp hsmall
  exact isFile_eq_true_iff.mpr ⟨place, h.find_big hfind, (h.isDirectory place) ▸ hfile⟩

theorem mem_list (h : LacksOnly P small big) (htidy : small.Tidy)
    (hsmall : ∃ listed, small.list dir = .ok listed ∧ p ∈ listed) :
    ∃ listed, big.list dir = .ok listed ∧ p ∈ listed := by
  obtain ⟨parent, hfind, hdirectory, f, hf, name, hplace, hjoin⟩ := mem_list_iff.mp hsmall
  have hsees : small.sees f.place = some (f.node, f.number) := by
    rw [Disk.sees, htidy.fileAt?_eq_some_iff.mpr ⟨hf, rfl⟩]
    rfl
  rcases h.sees f.place with hsame | ⟨-, hnone, -⟩
  · obtain ⟨f', hfound, -⟩ := Option.map_eq_some_iff.mp (hsame.symm.trans hsees)
    obtain ⟨hf', hplace'⟩ := place_of_fileAt? hfound
    exact mem_list_iff.mpr ⟨parent, h.find_big hfind, (h.isDirectory parent) ▸ hdirectory, f', hf',
      name, hplace'.trans hplace, hjoin⟩
  · cases hsees.symm.trans hnone

theorem exists_list (h : LacksOnly P small big) {listed : List Path}
    (hbig : big.list dir = .ok listed) : ∃ listed, small.list dir = .ok listed := by
  obtain ⟨place, hfind, hdirectory, -⟩ := list_eq_ok_iff.mp hbig
  rcases h.find_small hfind with hfind' | ⟨-, hfile⟩
  · exact ⟨_, list_eq_ok_iff.mpr ⟨place, hfind', (h.isDirectory place).trans hdirectory, rfl⟩⟩
  · cases hfile.symm.trans hdirectory

theorem seen?_or (h : LacksOnly P small big) (p : Path) :
    small.seen? p = big.seen? p ∨ small.seen? p = none := by
  unfold Disk.seen?
  cases hfind : small.find p with
  | error cause => exact .inr rfl
  | ok place =>
      rw [h.find_big hfind]
      exact (h.sees place).imp_right fun hlacks => hlacks.2.1

end LacksOnly

end Disk

theorem Site.library?_of_lacksOnly {P : Place → Prop} {site after : Site σ}
    (hresidents : after.residents = site.residents)
    (hdisk : Disk.LacksOnly P after.disk site.disk) (q : Path) :
    after.library? q = site.library? q ∨ after.library? q = none := by
  have hknown : after.known? q = site.known? q := by rw [known?, hresidents, known?]
  have hopened (number : Nat) : after.opened q number = site.opened q number := by
    rw [opened, hresidents, opened]
  simp only [library?_eq, hknown, hopened]
  cases site.known? q with
  | some r => exact .inl rfl
  | none =>
      rcases hdisk.seen?_or q with hsame | hnone
      · exact .inl (by simp only [hsame])
      · exact .inr (by simp only [hnone, Option.bind_none, ite_self])

namespace Watcher

variable (w : Watcher σ ε) {site last : Site σ} {path q : Path} {paths : List Path}
  {loads : List (Site σ × Path)}

/-! ## Paths from which nothing comes any more -/

/-- Nothing is taken from the path, and no file is left that its module could delete. -/
structure Spent (w : Watcher σ ε) (site : Site σ) (q : Path) : Prop where
  refused : w.taken? site q = none
  stuck {r : Resident} : site.library? q = some (.module r) →
    (site.disk.payloads r.source).vanishes = true → ¬ site.disk.Removable r.source

variable {w}

theorem Spent.load_eq (h : w.Spent site q) :
    ∃ cause, w.load q site = .pure (.error cause) site := by
  obtain ⟨cause, hload⟩ := load_of_not_taken h.refused
  refine ⟨cause, hload.trans (congrArg _ ?_)⟩
  unfold Site.entered
  split
  · rename_i r hlibrary
    split
    · rename_i hvanishes
      cases hunlink : site.unlink r.source with
      | error cause => rfl
      | ok after =>
          obtain ⟨disk, hdisk, -⟩ := Site.unlink_eq hunlink
          exact absurd ⟨disk, hdisk⟩ (h.stuck hlibrary hvanishes)
    · rfl
  · rfl

theorem spent_of_not_taken (htidy : site.Tidy) (h : w.taken? site q = none) :
    w.Spent (w.load q site).state q := by
  obtain ⟨cause, hload⟩ := load_of_not_taken h
  obtain ⟨-, hresidents⟩ := site.session_entered q
  have hlacks := w.lacksOnly_entered htidy q
  rw [hload, Effect.state_pure]
  rcases Site.library?_of_lacksOnly hresidents hlacks q with hsame | hnone
  · constructor
    · rw [taken?, Site.report?, hsame, hlacks.payloads]
      exact h
    · intro r hlibrary hvanishes
      rw [hsame] at hlibrary
      rw [hlacks.payloads] at hvanishes
      rw [Site.disk_entered_of_vanishes hlibrary hvanishes]
      exact htidy.disk.not_removable_cleared fun place hplace => hplace
  · constructor
    · rw [taken?, Site.report?, hnone]
      rfl
    · intro r hlibrary
      cases hnone.symm.trans hlibrary

theorem Spent.load (h : w.Spent site q) (htidy : site.Tidy)
    (hname : q.fileName? ≠ path.fileName?) : w.Spent (w.load path site).state q := by
  have hlacks := w.lacksOnly_load htidy path
  constructor
  · rw [w.taken?_load htidy hname]
    exact h.refused
  · intro r hlibrary hvanishes hremovable
    rw [w.library?_load htidy hname] at hlibrary
    rw [hlacks.payloads] at hvanishes
    exact h.stuck hlibrary hvanishes (hlacks.lacks.removable hremovable)

theorem Spent.chain (h : w.Spent site q) (hchain : w.Chain site loads last) (htidy : site.Tidy)
    (hnames : ∀ load ∈ loads, q.fileName? ≠ load.2.fileName?) : w.Spent last q := by
  induction hchain with
  | done => exact h
  | load _ ih =>
      have hfirst := h.load htidy (hnames _ List.mem_cons_self)
      exact ih hfirst (w.tidy_load htidy _) fun load hload =>
        hnames load (List.mem_cons_of_mem _ hload)

theorem Spent.loadLogged_outcome (h : w.Spent site q) :
    (w.loadLogged q site).answer = .ok false ∧ (w.loadLogged q site).state = site
      ∧ Event.tries (w.loadLogged q site).trace = [] := by
  obtain ⟨cause, hload⟩ := h.load_eq
  obtain ⟨hstate, htries, hanswer⟩ := w.loadLogged_eq q site
  rw [hload] at hstate htries hanswer
  exact ⟨hanswer, hstate, htries⟩

theorem loadAll_of_spent (h : ∀ q ∈ paths, w.Spent site q) :
    (w.loadAll paths site).answer = .ok 0 ∧ (w.loadAll paths site).state = site
      ∧ Event.tries (w.loadAll paths site).trace = [] := by
  induction paths with
  | nil => exact ⟨rfl, rfl, rfl⟩
  | cons q paths ih =>
      obtain ⟨hanswer, hstate, htries⟩ := (h q List.mem_cons_self).loadLogged_outcome
      obtain ⟨hanswer', hstate', htries'⟩ := ih fun q hq => h q (List.mem_cons_of_mem _ hq)
      rw [loadAll, Effect.next_ok hanswer, hstate, Effect.next_pure, hanswer', Effect.trace_after,
        Event.tries_append, htries, htries']
      exact ⟨rfl, hstate', rfl⟩

variable (w)

/-! ## A directory that was loaded -/

theorem not_isFile_of_loaded {P : Place → Prop} (hremove : w.settings.removeAfterLoad = true)
    (htidy : site.Tidy) (hok : (w.load path site).answer.isOk = true) (hlast : last.Tidy)
    (hlacks : Disk.Lacks P last.disk (w.load path site).state.disk) :
    last.disk.isFile path ≠ .ok true := by
  intro hfile
  have hremovable := hlacks.removable (hlast.disk.removable_of_isFile hfile)
  exact w.not_removable_load hremove htidy hok (fun place hplace => hplace) hremovable

section Drained
variable (hpolicy : w.rig.policy.abortOnFault = false)
variable (hremove : w.settings.removeAfterLoad = true)
include hpolicy hremove

/-- What has been loaded once leaves no file, or nothing more comes from it. -/
theorem gone_or_spent (hchain : w.Chain site loads last) (htidy : site.Tidy)
    (hnames : (loads.map fun load => load.2.fileName?).Nodup) {load : Site σ × Path}
    (hload : load ∈ loads) :
    last.disk.isFile load.2 ≠ .ok true ∨ w.Spent last load.2 := by
  induction hchain with
  | done => cases hload
  | @load site last path loads hrest ih =>
      rw [List.map_cons, List.nodup_cons] at hnames
      obtain ⟨hpath, hnames⟩ := hnames
      have htidy' := w.tidy_load htidy path
      rcases List.mem_cons.mp hload with rfl | hload
      · cases htaken : w.taken? site path with
        | none =>
            refine .inr ((spent_of_not_taken htidy htaken).chain hrest htidy' fun load hload => ?_)
            intro hsame
            exact hpath (hsame ▸ List.mem_map_of_mem hload)
        | some report =>
            have hok : (w.load path site).answer.isOk = true := by
              rw [w.isOk_load hpolicy, htaken, Option.isSome_some]
            exact .inl (w.not_isFile_of_loaded hremove htidy hok (hrest.tidy htidy')
              (hrest.lacksOnly htidy').lacks)
      · exact ih htidy' hnames hload

omit hremove in
theorem map_path_loads (paths : List Path) (site : Site σ) :
    (w.loads paths site).map Prod.snd = paths := by
  induction paths generalizing site with
  | nil => rfl
  | cons path paths ih =>
      rw [loads, w.load_goes hpolicy, if_neg Bool.false_ne_true, List.map_cons, ih]

/-- **A directory that was loaded is drained**: loading it once more does nothing. -/
theorem loadExisting_twice (htidy : site.Tidy) {n : Nat}
    (hfirst : (w.loadExisting site).answer = .ok n) :
    let after := (w.loadExisting site).state
    (w.loadExisting after).answer = .ok 0 ∧ (w.loadExisting after).state = after
      ∧ Event.tries (w.loadExisting after).trace = [] := by
  intro after
  have hchain : w.Chain site (w.loads (w.existing site) site) after := w.chain_loadExisting site
  have hlacks := hchain.lacksOnly htidy
  have hnames := w.nodup_existing htidy
  rw [← w.map_path_loads hpolicy (w.existing site) site, List.map_map] at hnames
  have hspent : ∀ q ∈ w.existing after, w.Spent after q := by
    intro q hq
    obtain ⟨listed, hlist, hmem, hmodule, hfile⟩ := w.mem_existing_iff.mp hq
    obtain ⟨listed', hlist', hmem'⟩ :=
      hlacks.mem_list (hchain.tidy htidy).disk ⟨listed, hlist, hmem⟩
    have hq' : q ∈ w.existing site :=
      w.mem_existing_iff.mpr ⟨listed', hlist', hmem', hmodule, hlacks.isFile hfile⟩
    rw [← w.map_path_loads hpolicy (w.existing site) site] at hq'
    obtain ⟨load, hload, rfl⟩ := List.mem_map.mp hq'
    exact (w.gone_or_spent hpolicy hremove hchain htidy hnames hload).resolve_left fun h => h hfile
  cases hlist : site.disk.list w.settings.directory with
  | error cause =>
      simp only [loadExisting, hlist] at hfirst
      cases hfirst
  | ok listed =>
      obtain ⟨listed', hlist'⟩ := hlacks.exists_list hlist
      have hexisting : w.existing after = regularFiles after.disk (w.modulePaths listed') := by
        simp only [existing, hlist']
      rw [hexisting] at hspent
      obtain ⟨hanswer, hstate, htries⟩ := loadAll_of_spent hspent
      simp only [loadExisting, hlist', Effect.answer_after, Effect.state_after, Effect.trace_after,
        Event.tries_append, tries_skipped, List.nil_append]
      exact ⟨hanswer, hstate, htries⟩

end Drained

/-! ## Runs that load -/

theorem flatMap_offers_successes (hpolicy : w.rig.policy.abortOnFault = false)
    (loads : List (Site σ × Path)) :
    loads.flatMap w.offers = (w.successes loads).flatMap w.offers := by
  unfold successes
  induction loads with
  | nil => rfl
  | cons load loads ih =>
      rw [List.flatMap_cons, ih, List.filter_cons]
      split
      · rw [List.flatMap_cons]
      · rename_i hfails
        rw [w.isOk_load hpolicy, Bool.not_eq_true, Option.isSome_eq_false_iff,
          Option.isNone_iff_eq_none] at hfails
        rw [offers, hfails, Option.elim_none, List.nil_append]

section Consumed
variable {w} {changes : List Change} (hremove : w.settings.removeAfterLoad = true)
include hremove

theorem Course.not_isFile (h : w.Course site loads changes last) (htidy : site.Tidy)
    {load : Site σ × Path} (hload : load ∈ w.successes loads) :
    last.disk.isFile load.2 ≠ .ok true := by
  obtain ⟨hload, hok⟩ := w.mem_successes.mp hload
  obtain ⟨_, _, _, _, hbefore, hafter⟩ := h.around hload
  intro hfile
  have hremovable := (h.tidy htidy).disk.removable_of_isFile hfile
  exact hafter.not_removable (hbefore.tidy htidy) hremove hok (fun place hplace => hplace)
    hremovable

/-- No two loads take their modules from one place. -/
theorem Course.nodup_consumptions (h : w.Course site loads changes last) (htidy : site.Tidy) :
    ((w.consumptions loads).map fun load => site.disk.entryPlace load.2).Nodup := by
  -- the place that a path names is named as long as the file is there
  have hplace (load : Site σ × Path) (hload : load ∈ w.consumptions loads) :
      load.1.disk.Removable load.2 ∧ ∃ place, load.1.disk.entryPlace load.2 = .ok place
        ∧ ∀ q other, load.1.disk.entryPlace q = .ok other → site.disk.entryPlace q = .ok other := by
    obtain ⟨hsuccess, -⟩ := w.mem_consumptions.mp hload
    obtain ⟨_, _, _, _, hbefore, -⟩ := h.around (w.mem_successes.mp hsuccess).1
    have htidy' := hbefore.tidy htidy
    have hthere := htidy'.disk.removable_of_isFile (w.isFile_of_mem_consumptions htidy' hload)
    obtain ⟨place, node, hplace, -⟩ := Disk.removable_iff.mp hthere
    exact ⟨hthere, place, hplace, fun q other hq => (hbefore.lacks htidy).entryPlace hq⟩
  have hbetween : (w.consumptions loads).Pairwise _ :=
    ((h.between htidy).sublist List.filter_sublist).sublist List.filter_sublist
  rw [List.Nodup, List.pairwise_map]
  refine hbetween.imp_of_mem fun {earlier later} hearlier hlater hcourse hsame => ?_
  obtain ⟨htidy', _, _, hcourse⟩ := hcourse
  obtain ⟨-, place, hfirst, hstart⟩ := hplace earlier hearlier
  obtain ⟨hthere, -⟩ := hplace later hlater
  have hok := (w.mem_successes.mp (w.mem_consumptions.mp hearlier).1).2
  refine hcourse.not_removable htidy' hremove hok (fun other hother => ?_) hthere
  have hother' := (hstart _ _ hfirst).symm.trans (hsame.trans (hstart _ _ hother))
  rw [hfirst]
  exact hother'

theorem Course.pairwise_again (hpolicy : w.rig.policy.abortOnFault = false)
    (h : w.Course site loads changes last) (htidy : site.Tidy) :
    loads.Pairwise fun earlier later =>
      (w.load earlier.2 earlier.1).answer.isOk = true → later.2 = earlier.2 →
        (w.load later.2 later.1).answer.isOk = true ∧ w.offers later = w.offers earlier
        ∧ ¬ later.1.disk.Removable later.2 := by
  refine (h.between htidy).imp fun {earlier later} hbetween hok hsame => ?_
  obtain ⟨htidy', _, _, hbetween⟩ := hbetween
  obtain ⟨later, path⟩ := later
  obtain rfl : path = earlier.2 := hsame
  obtain ⟨hok', hoffers⟩ := hbetween.loaded_again hpolicy htidy' hok
  exact ⟨hok', hoffers, hbetween.not_removable htidy' hremove hok fun place hplace => hplace⟩

theorem Course.nodup_paths_iff (hpolicy : w.rig.policy.abortOnFault = false)
    (h : w.Course site loads changes last) (htidy : site.Tidy) :
    ((w.successes loads).map Prod.snd).Nodup
      ↔ loads.Pairwise fun earlier later =>
        (w.load earlier.2 earlier.1).answer.isOk = true → later.2 ≠ earlier.2 := by
  rw [List.Nodup, List.pairwise_map, successes, List.pairwise_filter]
  constructor
  · intro honce
    have hboth := (h.pairwise_again hremove hpolicy htidy).and honce
    refine hboth.imp fun {earlier later} hboth hok hsame => ?_
    obtain ⟨hagain, honce⟩ := hboth
    exact honce hok (hagain hok hsame).1 hsame.symm
  · intro hnever
    exact hnever.imp fun hnever hok _ hsame => hnever hok hsame.symm

end Consumed

/-- **The file of a module is consumed once**, under every policy that does not abort, for every
watcher that removes what it loads, every tidy site and every run of loads, in which paths come as
often and in whatever order they like.  Someone else may change the files, but adds none.

    what the session gets    what the successes offer
    loads from a file        no two of one place, and no file is left there afterwards
    a path loaded before     succeeds again, from memory: it offers the same, and there is no file
                             to delete
    loads from memory        those of a path that was in memory at the start or succeeded before
    a load that fails        leaves all as it was, if the module does not delete its own file
    any place                shows what it did, unless a load took its file away or someone else
                             withdrew it
    the directory            is drained: to load it twice in a row is to load it once

So a path succeeds at most once exactly if it is not named again after it has. -/
theorem consumed_once (steps : List Step) (start : Site σ)
    (hpolicy : w.rig.policy.abortOnFault = false) (hremove : w.settings.removeAfterLoad = true)
    (htidy : start.Tidy) (hsteps : ∀ step ∈ steps, step.onlyTakes = true) :
    let e := w.run steps start
    let loads := w.allLoads steps start
    let successes := w.successes loads
    w.rig.Runs start.session (successes.flatMap w.offers) (Event.tries e.trace) false
      e.state.session
    ∧ ((w.consumptions loads).map fun load => start.disk.entryPlace load.2).Nodup
    ∧ (∀ load ∈ w.consumptions loads, load.1.disk.isFile load.2 = .ok true)
    ∧ (∀ load ∈ successes, e.state.disk.isFile load.2 ≠ .ok true)
    ∧ (loads.Pairwise fun earlier later =>
      (w.load earlier.2 earlier.1).answer.isOk = true → later.2 = earlier.2 →
        (w.load later.2 later.1).answer.isOk = true ∧ w.offers later = w.offers earlier
        ∧ ¬ later.1.disk.Removable later.2)
    ∧ (∀ before load after, loads = before ++ load :: after →
      (load.1.known? load.2 = none
        ↔ start.known? load.2 = none ∧ ∀ earlier ∈ w.successes before, earlier.2 ≠ load.2))
    ∧ ((successes.map Prod.snd).Nodup
      ↔ loads.Pairwise fun earlier later =>
        (w.load earlier.2 earlier.1).answer.isOk = true → later.2 ≠ earlier.2)
    ∧ (∀ load ∈ loads, load ∉ successes → load.1.Stays load.2 →
      (w.load load.2 load.1).state = load.1)
    ∧ (∀ place, e.state.disk.sees place = start.disk.sees place
      ∨ (∃ load ∈ loads, w.TakesAway load place)
      ∨ ∃ change, .change change ∈ steps ∧ change.Withdraws start.disk place)
    ∧ ∀ n, (w.loadExisting e.state).answer = .ok n →
      let after := (w.loadExisting e.state).state
      (w.loadExisting after).answer = .ok 0 ∧ (w.loadExisting after).state = after
      ∧ Event.tries (w.loadExisting after).trace = [] := by
  intro e loads successes
  obtain ⟨hcourse, hruns⟩ := w.course_run hpolicy hsteps start
  refine ⟨?_, hcourse.nodup_consumptions hremove htidy, fun load hload => ?_,
    fun load hload => hcourse.not_isFile hremove htidy hload,
    hcourse.pairwise_again hremove hpolicy htidy, fun before load after hsplit => ?_,
    hcourse.nodup_paths_iff hremove hpolicy htidy, fun load hload hnot hstays => ?_,
    fun place => ?_, fun n hfirst => ?_⟩
  · rw [w.flatMap_offers_successes hpolicy] at hruns
    exact hruns
  · obtain ⟨hsuccess, -⟩ := w.mem_consumptions.mp hload
    obtain ⟨_, _, _, _, hbefore, -⟩ := hcourse.around (w.mem_successes.mp hsuccess).1
    exact w.isFile_of_mem_consumptions (hbefore.tidy htidy) hload
  · rw [show w.allLoads steps start = before ++ load :: after from hsplit] at hcourse
    obtain ⟨_, _, hbefore, -⟩ := hcourse.split
    exact hbefore.known?_eq_none_iff htidy
  · cases htaken : w.taken? load.1 load.2 with
    | none =>
        obtain ⟨cause, hfails⟩ := load_of_not_taken htaken
        rw [hfails, Effect.state_pure, hstays.entered_eq]
    | some report =>
        refine absurd (w.mem_successes.mpr ⟨hload, ?_⟩) hnot
        rw [w.isOk_load hpolicy, htaken, Option.isSome_some]
  · refine ((hcourse.lacks htidy).sees place).imp_right fun ⟨hgone, _⟩ => ?_
    refine hgone.imp_right fun ⟨change, hchange, hwithdraws⟩ => ⟨change, ?_, hwithdraws⟩
    obtain ⟨step, hstep, hsome⟩ := List.mem_filterMap.mp hchange
    rwa [← Step.change?_eq_some_iff.mp hsome]
  · exact w.loadExisting_twice hpolicy hremove (hcourse.tidy htidy) hfirst

/-- A directory with two modules that load, one whose name does not carry its version, and garbage.
The last two are noticed twice, and the garbage is gone in the end; the first is loaded again. -/
theorem consumed_once_beside_garbage :
    let plain : Entity.Shape := ⟨none, [], .unit⟩
    let patch := (Table.empty (.overlay ⟨"P", 8, 8⟩ 0 (.bare ⟨"S", 8, 8⟩))).override "a" plain
      0x7000
    let first : Report := ⟨"1", [⟨"S", "", some "1", patch⟩, ⟨"S", "", some "2", patch⟩]⟩
    let second : Report := ⟨"2", [⟨"S", "1", some "2", patch⟩]⟩
    let changes : List Change := [.put ⟨"/d"⟩ .directory 0, .deliver ⟨"/d/a_1.so"⟩ ⟨first, false⟩ 0,
      .deliver ⟨"/d/b_1.so"⟩ ⟨second, false⟩ 0, .deliver ⟨"/d/c_2.so"⟩ ⟨second, false⟩ 0,
      .put ⟨"/d/d.so"⟩ .garbage 0]
    let start : Site Nat :=
      ⟨.fresh 0, changes.foldl (fun d change => change.perform d) (.blank 0), []⟩
    let w : Watcher Nat String := ⟨{ directory := ⟨"/d"⟩ },
      ⟨Machine.Arch.x64.trampoline, .counting none "", ⟨false, true⟩⟩⟩
    let steps : List Step := [.event [.created ⟨"/d/d.so"⟩, .created ⟨"/d/a_1.so"⟩],
      .load ⟨"/d/b_1.so"⟩, .event [.modified ⟨"/d/d.so"⟩, .created ⟨"/d/b_1.so"⟩],
      .change (.remove ⟨"/d/d.so"⟩), .load ⟨"/d/c_2.so"⟩, .load ⟨"/d/a_1.so"⟩]
    let loads := w.allLoads steps start
    let last := (w.run steps start).state
    w.rig.policy.abortOnFault = false ∧ w.settings.removeAfterLoad = true ∧ start.Tidy
      ∧ (∀ step ∈ steps, step.onlyTakes = true)
      ∧ loads.map Prod.snd = [⟨"/d/d.so"⟩, ⟨"/d/a_1.so"⟩, ⟨"/d/b_1.so"⟩, ⟨"/d/d.so"⟩, ⟨"/d/b_1.so"⟩,
        ⟨"/d/c_2.so"⟩, ⟨"/d/a_1.so"⟩]
      ∧ (w.successes loads).map Prod.snd = [⟨"/d/a_1.so"⟩, ⟨"/d/c_2.so"⟩, ⟨"/d/a_1.so"⟩]
      ∧ (w.consumptions loads).map Prod.snd = [⟨"/d/a_1.so"⟩, ⟨"/d/c_2.so"⟩]
      ∧ ((w.consumptions loads).map fun load => start.disk.entryPlace load.2).Nodup
      ∧ ∃ n, (w.loadExisting last).answer = .ok n
        ∧ (w.loadExisting (w.loadExisting last).state).answer = .ok 0 := by
  intro plain patch first second changes start w steps loads last
  have htidy : start.Tidy := ⟨(Disk.tidy_blank 0).foldl changes, nofun⟩
  have hsteps : ∀ step ∈ steps, step.onlyTakes = true := by decide
  obtain ⟨-, honce, -, -, -, -, -, -, -, hdrained⟩ :=
    w.consumed_once steps start rfl rfl htidy hsteps
  have hlist : last.disk.list ⟨"/d"⟩ = .ok [⟨"/d/b_1.so"⟩] := by
    decide +kernel
  obtain ⟨hanswer, -⟩ := w.loadExisting_outcome rfl (w.tidy_run htidy steps) hlist
  obtain ⟨hanswer', -⟩ := hdrained _ hanswer
  exact ⟨rfl, rfl, htidy, hsteps, by decide +kernel, by decide +kernel, by decide +kernel, honce, _,
    hanswer, hanswer'⟩

/-- One file, and two notices about it, as a file that is written gives them: it is created, and then
it is modified.  The first deletes it; nothing is added; and both succeed, so that its candidate is
handed over twice. -/
theorem loaded_twice :
    let plain : Entity.Shape := ⟨none, [], .unit⟩
    let patch := (Table.empty (.overlay ⟨"P", 8, 8⟩ 0 (.bare ⟨"S", 8, 8⟩))).override "a" plain
      0x7000
    let report : Report := ⟨"1", [⟨"S", "", some "1", patch⟩]⟩
    let changes : List Change :=
      [.put ⟨"/d"⟩ .directory 0, .deliver ⟨"/d/a_1.so"⟩ ⟨report, false⟩ 0]
    let start : Site Nat :=
      ⟨.fresh 0, changes.foldl (fun d change => change.perform d) (.blank 0), []⟩
    let w : Watcher Nat String := ⟨{ directory := ⟨"/d"⟩ },
      ⟨Machine.Arch.x64.trampoline, .counting none "", ⟨false, true⟩⟩⟩
    let steps : List Step := [.event [.created ⟨"/d/a_1.so"⟩, .modified ⟨"/d/a_1.so"⟩]]
    let loads := w.allLoads steps start
    w.rig.policy.abortOnFault = false ∧ w.settings.removeAfterLoad = true ∧ start.Tidy
      ∧ (∀ step ∈ steps, step.onlyTakes = true)
      ∧ start.disk.list ⟨"/d"⟩ = .ok [⟨"/d/a_1.so"⟩]
      ∧ (w.load ⟨"/d/a_1.so"⟩ start).state.disk.list ⟨"/d"⟩ = .ok []
      ∧ (w.successes loads).map Prod.snd = [⟨"/d/a_1.so"⟩, ⟨"/d/a_1.so"⟩]
      ∧ (w.successes loads).flatMap w.offers
        = [.submit ⟨"S", "1", some "1", patch⟩, .submit ⟨"S", "1", some "1", patch⟩]
      ∧ ¬ ((w.successes loads).map Prod.snd).Nodup := by
  intro plain patch report changes start w steps loads
  have htidy : start.Tidy := ⟨(Disk.tidy_blank 0).foldl changes, nofun⟩
  have hpaths : (w.successes loads).map Prod.snd = [⟨"/d/a_1.so"⟩, ⟨"/d/a_1.so"⟩] := by
    decide +kernel
  refine ⟨rfl, rfl, htidy, by decide, by decide +kernel, by decide +kernel, hpaths,
    by decide +kernel, ?_⟩
  rw [hpaths]
  decide

end Watcher
end Hotswap.Delivery
