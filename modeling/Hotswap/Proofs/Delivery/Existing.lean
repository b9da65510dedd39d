import Hotswap.Proofs.Delivery.Neighbours

/-!
# Loading what is in a directory

Loading a directory is a fold over its modules in path order, and the fold hands over what the
modules reported before it began (`Watcher.loadExisting_eq_fold`).

    a module of the directory    a listed regular file with the extension, which opens as a module
                                 and carries the version that this reports (`Watcher.Delivers`)
    its part of the fold         its stamped candidates are submitted in order
    any other entry              nothing

Each load may delete files and keep a module, but the names in a directory differ, so that no load
is anything to the later ones (`flatMap_offers`).  The order in which the directory lists its
entries is lost in sorting.  Entries that deliver nothing take no part, and without them the
others deliver the same (`delivers_iff`).
-/

namespace Hotswap.Delivery

open Entity (Table)

variable {σ ε : Type}

namespace Watcher

variable (w : Watcher σ ε) {site : Site σ} {path : Path} {paths : List Path} {report : Report}

/-! ## The paths of a directory -/

theorem mem_regularFiles {disk : Disk} :
    path ∈ regularFiles disk paths ↔ path ∈ paths ∧ disk.isFile path = .ok true := by
  rw [regularFiles, List.mem_mergeSort, List.mem_filter]
  refine and_congr_right fun _ => ?_
  split
  · rename_i h
    exact ⟨fun _ => h, fun _ => rfl⟩
  · rename_i h
    exact ⟨nofun, fun hfile => absurd hfile h⟩

theorem exists_perm_regularFiles (disk : Disk) (paths : List Path) :
    ∃ kept, kept.Sublist paths ∧ (regularFiles disk paths).Perm kept :=
  ⟨_, List.filter_sublist, List.mergeSort_perm ..⟩

theorem regularFiles_ordered (disk : Disk) (paths : List Path) :
    (regularFiles disk paths).Pairwise fun p q => p.text ≤ q.text := by
  have htrans (p q r : Path) (hpq : decide (p.text ≤ q.text) = true)
      (hqr : decide (q.text ≤ r.text) = true) : decide (p.text ≤ r.text) = true :=
    decide_eq_true (String.le_trans (of_decide_eq_true hpq) (of_decide_eq_true hqr))
  have htotal (p q : Path) : (decide (p.text ≤ q.text) || decide (q.text ≤ p.text)) = true := by
    rw [Bool.or_eq_true, decide_eq_true_eq, decide_eq_true_eq]
    exact String.le_total p.text q.text
  exact (List.pairwise_mergeSort htrans htotal _).imp fun h => of_decide_eq_true h

/-- The paths of a directory end in the names of its entries, which differ. -/
theorem nodup_listed {d : Disk} {dir : Path} {listed : List Path} (h : d.Tidy)
    (hlist : d.list dir = .ok listed) : (listed.map Path.fileName?).Nodup := by
  obtain ⟨place, -, -, rfl⟩ := Disk.list_eq_ok_iff.mp hlist
  rw [List.map_map, List.Nodup, List.pairwise_map, List.pairwise_filterMap]
  have hplaces : d.files.Pairwise fun f g => f.place ≠ g.place := List.pairwise_map.mp h.places
  refine hplaces.imp_of_mem fun hf hg hne name hname name' hname' hsame => hne ?_
  have hplace := Disk.nameIn?_eq_some_iff.mp hname
  have hplace' := Disk.nameIn?_eq_some_iff.mp hname'
  simp only [Function.comp, Path.fileName?_join (h.isName hf hplace),
    Path.fileName?_join (h.isName hg hplace'), Option.some.injEq] at hsame
  rw [hplace, hplace', hsame]

theorem mem_existing_iff :
    path ∈ w.existing site ↔ ∃ listed, site.disk.list w.settings.directory = .ok listed
      ∧ path ∈ listed ∧ path.isModule w.settings.extension = true
      ∧ site.disk.isFile path = .ok true := by
  unfold existing
  cases hlist : site.disk.list w.settings.directory with
  | error cause => simp
  | ok listed => simp [mem_regularFiles, modulePaths, and_assoc]

theorem nodup_existing (h : site.Tidy) : ((w.existing site).map Path.fileName?).Nodup := by
  unfold existing
  split
  · exact List.nodup_nil
  · rename_i listed hlist
    obtain ⟨kept, hkept, hperm⟩ := exists_perm_regularFiles site.disk (w.modulePaths listed)
    refine (hperm.map _).nodup_iff.mpr ((nodup_listed h.disk hlist).sublist ?_)
    exact (hkept.trans List.filter_sublist).map _

theorem ascending_existing (h : site.Tidy) :
    (w.existing site).Pairwise fun p q => p.text < q.text := by
  have hordered : (w.existing site).Pairwise fun p q => p.text ≤ q.text := by
    unfold existing
    split
    · exact .nil
    · exact regularFiles_ordered ..
  have hdiffer : (w.existing site).Pairwise fun p q => p.fileName? ≠ q.fileName? :=
    List.pairwise_map.mp (w.nodup_existing h)
  refine hordered.imp₂ (fun p q hle hne => ?_) hdiffer
  refine String.not_le.mp fun hge => hne ?_
  have htext := String.le_antisymm hle hge
  rw [Path.fileName?, Path.components, htext, Path.fileName?, Path.components]

/-! ## Loads in a row -/

section Fold
variable (hpolicy : w.rig.policy.abortOnFault = false)
include hpolicy

theorem load_goes (path : Path) (site : Site σ) : (w.load path site).answer.isAborted = false :=
  (w.feeds_load path site).goes hpolicy

theorem flatMap_offers (h : site.Tidy) (hnames : (paths.map Path.fileName?).Nodup) :
    (w.loads paths site).flatMap w.offers = paths.flatMap fun path => w.offers (site, path) := by
  induction paths generalizing site with
  | nil => rfl
  | cons path paths ih =>
      rw [List.map_cons, List.nodup_cons] at hnames
      obtain ⟨hpath, hnames⟩ := hnames
      rw [flatMap_loads, w.load_goes hpolicy, if_neg Bool.false_ne_true, List.flatMap_cons,
        ih (w.tidy_load h path) hnames]
      refine congrArg _ (List.flatMap_congr fun q hq => ?_)
      have hname : q.fileName? ≠ path.fileName? := by
        intro hsame
        exact hpath (hsame ▸ List.mem_map_of_mem hq)
      rw [offers, w.taken?_load h hname, offers]

theorem isOk_load (path : Path) (site : Site σ) :
    (w.load path site).answer.isOk = (w.taken? site path).isSome := by
  cases htaken : w.taken? site path with
  | none =>
      obtain ⟨cause, hload⟩ := load_of_not_taken htaken
      rw [hload]
      rfl
  | some report =>
      have hgoes := w.load_goes hpolicy path site
      cases hanswer : (w.load path site).answer with
      | ok accepted => rfl
      | error cause => exact absurd hanswer (w.load_ne_error_of_taken htaken)
      | aborted =>
          rw [hanswer] at hgoes
          cases hgoes

theorem answer_loadAll (h : site.Tidy) (hnames : (paths.map Path.fileName?).Nodup) :
    (w.loadAll paths site).answer
      = .ok (paths.countP fun path => (w.taken? site path).isSome) := by
  induction paths generalizing site with
  | nil => rfl
  | cons path paths ih =>
      rw [List.map_cons, List.nodup_cons] at hnames
      obtain ⟨hpath, hnames⟩ := hnames
      obtain ⟨hstate, -, hlogged⟩ := w.loadLogged_eq path site
      rw [w.load_goes hpolicy, if_neg Bool.false_ne_true, w.isOk_load hpolicy] at hlogged
      have hcount : (paths.countP fun q => (w.taken? (w.load path site).state q).isSome)
          = paths.countP fun q => (w.taken? site q).isSome := by
        refine List.countP_congr fun q hq => ?_
        have hname : q.fileName? ≠ path.fileName? := by
          intro hsame
          exact hpath (hsame ▸ List.mem_map_of_mem hq)
        rw [w.taken?_load h hname]
      have hrest := ih (w.tidy_load h path) hnames
      rw [hcount] at hrest
      rw [loadAll, Effect.next_ok hlogged, Effect.answer_after, hstate, Effect.next_ok hrest,
        Effect.answer_after, Effect.answer_pure, List.countP_cons]
      cases (w.taken? site path).isSome with
      | true => rfl
      | false => rfl

end Fold

/-! ## The modules of a directory -/

/-- The path is that of a regular file with the extension of modules in the directory.  It opens as
a module that reports this, and its name carries the version of the report. -/
structure Delivers (w : Watcher σ ε) (site : Site σ) (path : Path) (report : Report) : Prop where
  listed : ∃ listed, site.disk.list w.settings.directory = .ok listed ∧ path ∈ listed
  isModule : path.isModule w.settings.extension = true
  isFile : site.disk.isFile path = .ok true
  reported : site.report? path = some report
  carried : path.carries report.version w.settings.extension = true

/-- The modules of the directory with what they report, in path order. -/
def modules (w : Watcher σ ε) (site : Site σ) : List (Path × Report) :=
  (w.existing site).filterMap fun path => (w.taken? site path).map fun report => (path, report)

/-- What the modules offer, one after the other. -/
def foldCalls (modules : List (Path × Report)) : List Call :=
  modules.flatMap fun m => m.2.stamped.map .submit

theorem mem_modules_iff : (path, report) ∈ w.modules site ↔ w.Delivers site path report := by
  rw [modules, List.mem_filterMap]
  constructor
  · rintro ⟨q, hq, hmap⟩
    obtain ⟨r, htaken, hsame⟩ := Option.map_eq_some_iff.mp hmap
    cases hsame
    obtain ⟨listed, hlist, hmem, hmodule, hfile⟩ := w.mem_existing_iff.mp hq
    obtain ⟨hreported, hcarried⟩ := taken?_eq_some_iff.mp htaken
    exact ⟨⟨listed, hlist, hmem⟩, hmodule, hfile, hreported, hcarried⟩
  · rintro ⟨⟨listed, hlist, hmem⟩, hmodule, hfile, hreported, hcarried⟩
    refine ⟨path, w.mem_existing_iff.mpr ⟨listed, hlist, hmem, hmodule, hfile⟩, ?_⟩
    rw [taken?_eq_some_iff.mpr ⟨hreported, hcarried⟩, Option.map_some]

theorem ascending_modules (h : site.Tidy) :
    (w.modules site).Pairwise fun m m' => m.1.text < m'.1.text := by
  rw [modules, List.pairwise_filterMap]
  refine (w.ascending_existing h).imp fun hlt m hm m' hm' => ?_
  obtain ⟨report, -, rfl⟩ := Option.map_eq_some_iff.mp hm
  obtain ⟨report', -, rfl⟩ := Option.map_eq_some_iff.mp hm'
  exact hlt

theorem modules_congr {other : Site σ} (h : site.Tidy) (h' : other.Tidy)
    (hsame : ∀ path report, w.Delivers other path report ↔ w.Delivers site path report) :
    w.modules other = w.modules site := by
  have hnodup {modules : List (Path × Report)}
      (hascending : modules.Pairwise fun m m' => m.1.text < m'.1.text) : modules.Nodup := by
    refine hascending.imp fun {m m'} hlt heq => ?_
    rw [heq] at hlt
    exact String.lt_irrefl _ hlt
  have hperm : (w.modules other).Perm (w.modules site) := by
    refine (List.perm_ext_iff_of_nodup (hnodup (w.ascending_modules h'))
      (hnodup (w.ascending_modules h))).mpr fun m => ?_
    rw [w.mem_modules_iff, w.mem_modules_iff, hsame]
  refine hperm.eq_of_pairwise (fun m m' _ _ hlt hgt => ?_) (w.ascending_modules h')
    (w.ascending_modules h)
  exact absurd (String.lt_trans hlt hgt) (String.lt_irrefl _)

theorem length_modules (site : Site σ) :
    (w.modules site).length = (w.existing site).countP fun path => (w.taken? site path).isSome := by
  rw [modules, List.length_filterMap_eq_countP]
  refine List.countP_congr fun path _ => ?_
  rw [Option.isSome_map]

theorem flatMap_offers_existing (site : Site σ) :
    (w.existing site).flatMap (fun path => w.offers (site, path)) = foldCalls (w.modules site) := by
  unfold modules
  induction w.existing site with
  | nil => rfl
  | cons path paths ih =>
      rw [List.flatMap_cons, ih, offers]
      cases htaken : w.taken? site path with
      | none =>
          rw [List.filterMap_cons_none (by rw [htaken]; rfl), Option.elim_none, List.nil_append]
      | some report =>
          rw [List.filterMap_cons_some (by rw [htaken]; rfl)]
          rfl

/-- Loading a directory is the fold over its modules. -/
theorem loadExisting_outcome (hpolicy : w.rig.policy.abortOnFault = false) (h : site.Tidy)
    {listed : List Path} (hlist : site.disk.list w.settings.directory = .ok listed) :
    let calls := foldCalls (w.modules site)
    (w.loadExisting site).answer = .ok (w.modules site).length
    ∧ (w.loadExisting site).state.session = w.rig.sessionAfter site.session calls
    ∧ Event.tries (w.loadExisting site).trace
      = (w.rig.run site.session calls).flatMap fun e => Event.tries e.trace := by
  intro calls
  have hnames := w.nodup_existing h
  have hruns := w.feeds_loadExisting site
  rw [w.flatMap_offers hpolicy h hnames, flatMap_offers_existing] at hruns
  refine ⟨?_, ?_, hruns.tries_eq⟩
  · have hexisting : w.existing site = regularFiles site.disk (w.modulePaths listed) := by
      simp only [existing, hlist]
    rw [length_modules, ← w.answer_loadAll hpolicy h hnames, hexisting]
    simp only [loadExisting, hlist]
    rfl
  · have hgoes := hruns.goes hpolicy
    unfold Feeds at hruns
    rw [hgoes] at hruns
    exact hruns.session_eq

end Watcher

/-! ## Neighbours that deliver nothing -/

theorem Site.report?_of_not_module {site : Site σ} {path : Path} {f : File} (h : site.Tidy)
    (hknown : site.known? path = none) (hf : f ∈ site.disk.files) (hnode : f.node ≠ .module)
    (hfind : site.disk.find path = .ok f.place) : site.report? path = none := by
  have hseen : site.disk.seen? path = some (f.node, f.number) := by
    rw [Disk.seen?, hfind]
    exact congrArg (Option.map _) (h.disk.fileAt?_eq_some_iff.mpr ⟨hf, rfl⟩)
  unfold report?
  split
  · rename_i r hlibrary
    rcases of_library? hlibrary with ⟨r', hr', hpath, -⟩ | ⟨-, number, ⟨hmodule, -⟩ | ⟨-, heq⟩⟩
    · exact absurd (beq_iff_eq.mpr hpath) (List.find?_eq_none.mp hknown r' hr')
    · exact absurd (congrArg Prod.fst (Option.some.inj (hseen.symm.trans hmodule))) hnode
    · cases heq
  · rfl

/-- The same site with other files.  What a module does is still told by the path that opens it. -/
def Site.withFiles (site : Site σ) (files : List File) (next : Nat) : Site σ :=
  { site with disk := { site.disk with files := files, next := next } }

section Neighbours
variable {site : Site σ} {files extra : List File} {next : Nat}
variable (hother : (site.withFiles files next).Tidy)
variable (hperm : files.Perm (site.disk.files ++ extra))
include hother hperm

theorem Site.not_extra {f : File} (hf : f ∈ site.disk.files) :
    ¬ ∃ g ∈ extra, g.place = f.place := by
  rintro ⟨g, hg, hplace⟩
  have hfiles : f ∈ files := hperm.mem_iff.mpr (List.mem_append_left _ hf)
  have hgiven : g ∈ files := hperm.mem_iff.mpr (List.mem_append_right _ hg)
  cases List.inj_on_of_nodup_map hother.disk.places hgiven hfiles hplace
  have hnodup := hperm.nodup_iff.mp (List.Nodup.of_map _ hother.disk.places)
  exact List.disjoint_of_nodup_append hnodup hf hg

variable (hextra : ∀ f ∈ extra, f.node ≠ .directory)
include hextra

theorem Site.lacksOnly_extra :
    Disk.LacksOnly (fun place => ∃ g ∈ extra, g.place = place) site.disk
      (site.withFiles files next).disk := by
  refine ⟨rfl, fun place => ?_⟩
  cases hsmall : site.disk.fileAt? place with
  | some f =>
      obtain ⟨hf, hplace⟩ := Disk.place_of_fileAt? hsmall
      have hfiles : f ∈ files := hperm.mem_iff.mpr (List.mem_append_left _ hf)
      have hbig := hother.disk.fileAt?_eq_some_iff.mpr ⟨hfiles, hplace⟩
      exact .inl (by rw [Disk.sees, hsmall, Disk.sees, hbig])
  | none =>
      cases hbig : (site.withFiles files next).disk.fileAt? place with
      | none => exact .inl (by rw [Disk.sees, hsmall, Disk.sees, hbig])
      | some f =>
          obtain ⟨hf, hplace⟩ := Disk.place_of_fileAt? hbig
          have hg : f ∈ extra := by
            refine (List.mem_append.mp (hperm.mem_iff.mp hf)).resolve_left fun hold => ?_
            exact List.find?_eq_none.mp hsmall f hold (beq_iff_eq.mpr hplace)
          refine .inr ⟨⟨f, hg, hplace⟩, by rw [Disk.sees, hsmall]; rfl, ?_⟩
          rw [← hplace]
          exact hother.disk.isDirectory_place hf (hextra f hg)

theorem Site.same_at_entry {dir : Path} {parent : Place} {f : File} {name : String}
    (h : site.Tidy) (hdir : site.disk.find dir = .ok parent) (hf : f ∈ site.disk.files)
    (hplace : f.place = parent ++ [name]) :
    ((site.withFiles files next).disk.isFile (dir.join name) = .ok true
        ↔ site.disk.isFile (dir.join name) = .ok true)
      ∧ (site.withFiles files next).report? (dir.join name) = site.report? (dir.join name) := by
  have hlacks := Site.lacksOnly_extra hother hperm hextra
  have hname := h.disk.isName hf hplace
  have hnot (place : Place)
      (hfind : (site.withFiles files next).disk.find (dir.join name) = .ok place) :
      ¬ ∃ g ∈ extra, g.place = place := by
    rw [Disk.place_of_join hname (hlacks.find_big hdir) hfind, ← hplace]
    exact Site.not_extra hother hperm hf
  constructor
  · rw [Disk.isFile_eq_true_iff, Disk.isFile_eq_true_iff]
    constructor
    · rintro ⟨place, hfind, hfile⟩
      rcases hlacks.find_small hfind with hsmall | ⟨hgiven, -⟩
      · exact ⟨place, hsmall, (hlacks.isDirectory place).trans hfile⟩
      · exact absurd hgiven (hnot place hfind)
    · rintro ⟨place, hfind, hfile⟩
      exact ⟨place, hlacks.find_big hfind, (hlacks.isDirectory place).symm.trans hfile⟩
  · have hseen := hlacks.seen? fun place hfind _ => hnot place hfind
    have hlibrary : (site.withFiles files next).library? (dir.join name)
        = site.library? (dir.join name) := by
      rw [Site.library?_eq, Site.library?_eq, hseen]
      rfl
    rw [Site.report?, hlibrary, Site.report?]
    rfl

/-- Entries to which no path leads that delivers take no part in what is delivered. -/
theorem Watcher.delivers_iff (w : Watcher σ ε) (h : site.Tidy)
    (hidle : ∀ f ∈ extra, ∀ path report, w.Delivers (site.withFiles files next) path report →
      (site.withFiles files next).disk.find path ≠ .ok f.place)
    (path : Path) (report : Report) :
    w.Delivers (site.withFiles files next) path report ↔ w.Delivers site path report := by
  have hlacks := Site.lacksOnly_extra hother hperm hextra
  constructor
  · intro hdelivers
    obtain ⟨parent, hdir, hdirectory, f, hf, name, hplace, rfl⟩ :=
      Disk.mem_list_iff.mp hdelivers.listed
    obtain ⟨place, hfind, -⟩ := Disk.isFile_eq_true_iff.mp hdelivers.isFile
    have hold : f ∈ site.disk.files := by
      refine (List.mem_append.mp (hperm.mem_iff.mp hf)).resolve_right fun hgiven => ?_
      refine hidle f hgiven _ report hdelivers ?_
      rw [hfind, hplace, Disk.place_of_join (hother.disk.isName hf hplace) hdir hfind]
    have hdir' : site.disk.find w.settings.directory = .ok parent := by
      rcases hlacks.find_small hdir with hsmall | ⟨-, hfile⟩
      · exact hsmall
      · cases hfile.symm.trans hdirectory
    obtain ⟨hfile, hreport⟩ := Site.same_at_entry hother hperm hextra h hdir' hold hplace
    refine ⟨Disk.mem_list_iff.mpr ⟨parent, hdir', ?_, f, hold, name, hplace, rfl⟩,
      hdelivers.isModule, hfile.mp hdelivers.isFile, hreport ▸ hdelivers.reported,
      hdelivers.carried⟩
    exact (hlacks.isDirectory parent).trans hdirectory
  · intro hdelivers
    obtain ⟨parent, hdir, hdirectory, f, hf, name, hplace, rfl⟩ :=
      Disk.mem_list_iff.mp hdelivers.listed
    obtain ⟨hfile, hreport⟩ := Site.same_at_entry hother hperm hextra h hdir hf hplace
    have hfiles : f ∈ files := hperm.mem_iff.mpr (List.mem_append_left _ hf)
    refine ⟨Disk.mem_list_iff.mpr ⟨parent, hlacks.find_big hdir, ?_, f, hfiles, name, hplace, rfl⟩,
      hdelivers.isModule, hfile.mpr hdelivers.isFile, hreport ▸ hdelivers.reported,
      hdelivers.carried⟩
    exact (hlacks.isDirectory parent).symm.trans hdirectory

end Neighbours

/-- **Loading a directory is a fold over its modules**, under every policy that does not abort and
for every tidy site whose directory can be listed, whatever the session and the writer.  The modules
are the deliveries of the directory in path order; the answer is their number; and session and
tries are those of submitting what they reported, stamped, in order, where all the calls are made.

The same comes of a directory that lists its entries in another order, or that has more entries, all
of them files that deliver nothing. -/
theorem Watcher.loadExisting_eq_fold (w : Watcher σ ε) (site : Site σ) (listed : List Path)
    (hpolicy : w.rig.policy.abortOnFault = false) (htidy : site.Tidy)
    (hlisted : site.disk.list w.settings.directory = .ok listed) :
    (∃ modules : List (Path × Report),
      (modules.Pairwise fun m m' => m.1.text < m'.1.text)
      ∧ (∀ path report, (path, report) ∈ modules ↔ w.Delivers site path report)
      ∧ let calls := modules.flatMap fun m => m.2.stamped.map Call.submit
        (w.loadExisting site).answer = .ok modules.length
        ∧ (w.loadExisting site).state.session = w.rig.sessionAfter site.session calls
        ∧ Event.tries (w.loadExisting site).trace
          = (w.rig.run site.session calls).flatMap (fun e => Event.tries e.trace)
        ∧ (w.rig.run site.session calls).length = calls.length)
    ∧ ∀ (files extra : List File) (next : Nat),
      let other := site.withFiles files next
      other.Tidy → files.Perm (site.disk.files ++ extra) → (∀ f ∈ extra, f.node ≠ .directory) →
      (∀ f ∈ extra, ∀ path report, w.Delivers other path report →
        other.disk.find path ≠ .ok f.place) →
      (w.loadExisting other).answer = (w.loadExisting site).answer
      ∧ (w.loadExisting other).state.session = (w.loadExisting site).state.session
      ∧ Event.tries (w.loadExisting other).trace = Event.tries (w.loadExisting site).trace := by
  obtain ⟨hanswer, hsession, htries⟩ := w.loadExisting_outcome hpolicy htidy hlisted
  constructor
  · exact ⟨w.modules site, w.ascending_modules htidy, fun path report => w.mem_modules_iff, hanswer,
      hsession, htries, Rig.length_run hpolicy ..⟩
  · intro files extra next other hother hperm hextra hidle
    have hmodules : w.modules other = w.modules site :=
      w.modules_congr htidy hother (w.delivers_iff hother hperm hextra htidy hidle)
    -- the directory is still there, and so it can be listed
    obtain ⟨parent, hdir, hdirectory, -⟩ := Disk.list_eq_ok_iff.mp hlisted
    have hlacks := Site.lacksOnly_extra hother hperm hextra
    have hlisted' := Disk.list_eq_ok_iff.mpr
      ⟨parent, hlacks.find_big hdir, (hlacks.isDirectory parent).symm.trans hdirectory, rfl⟩
    obtain ⟨hanswer', hsession', htries'⟩ := w.loadExisting_outcome hpolicy hother hlisted'
    rw [hmodules] at hanswer' hsession' htries'
    exact ⟨hanswer'.trans hanswer.symm, hsession'.trans hsession.symm, htries'.trans htries.symm⟩

/-- Two modules that deliver and one whose name does not carry its version, with garbage added to
them. -/
theorem Watcher.loadExisting_eq_fold_beside_garbage :
    let plain : Entity.Shape := ⟨none, [], .unit⟩
    let patch := (Table.empty (.overlay ⟨"P", 8, 8⟩ 0 (.bare ⟨"S", 8, 8⟩))).override "a" plain
      0x7000
    let first : Report := ⟨"1", [⟨"S", "", some "1", patch⟩, ⟨"S", "", some "2", patch⟩]⟩
    let second : Report := ⟨"2", [⟨"S", "1", some "2", patch⟩]⟩
    let changes : List Change := [.put ⟨"/d"⟩ .directory 0, .deliver ⟨"/d/b_1.so"⟩ ⟨first, false⟩ 0,
      .deliver ⟨"/d/a_2.so"⟩ ⟨second, true⟩ 0, .deliver ⟨"/d/c_3.so"⟩ ⟨second, false⟩ 0]
    let disk := changes.foldl (fun d change => change.perform d) (.blank 0)
    let site : Site Nat := ⟨.fresh 0, disk, []⟩
    let w : Watcher Nat String := ⟨{ directory := ⟨"/d"⟩ },
      ⟨Machine.Arch.x64.trampoline, .counting none "", ⟨false, true⟩⟩⟩
    let garbage : File := ⟨["d", "a.so"], .garbage, 4, 0⟩
    let other := site.withFiles (disk.files ++ [garbage]) 5
    w.rig.policy.abortOnFault = false ∧ site.Tidy
      ∧ disk.list ⟨"/d"⟩ = .ok [⟨"/d/b_1.so"⟩, ⟨"/d/a_2.so"⟩, ⟨"/d/c_3.so"⟩]
      ∧ (∃ modules : List (Path × Report), (⟨"/d/a_2.so"⟩, second) ∈ modules
        ∧ (⟨"/d/b_1.so"⟩, first) ∈ modules ∧ (⟨"/d/c_3.so"⟩, second) ∉ modules
        ∧ (w.loadExisting site).answer = .ok modules.length)
      ∧ (w.loadExisting other).answer = (w.loadExisting site).answer := by
  intro plain patch first second changes disk site w garbage other
  have hlist : disk.list ⟨"/d"⟩ = .ok [⟨"/d/b_1.so"⟩, ⟨"/d/a_2.so"⟩, ⟨"/d/c_3.so"⟩] := by rfl
  have hdisk : disk.Tidy := (Disk.tidy_blank 0).foldl changes
  have htidy : site.Tidy := ⟨hdisk, nofun⟩
  have hgrown : other.disk.Tidy :=
    (hdisk.perform (.put ⟨"/d/a.so"⟩ .garbage 0)).congr (by rfl) (by rfl)
  have hother : other.Tidy := ⟨hgrown, nofun⟩
  obtain ⟨⟨modules, -, hmem, hanswer, -⟩, hsame⟩ :=
    w.loadExisting_eq_fold site _ rfl htidy hlist
  refine ⟨rfl, htidy, hlist, ⟨modules, ?_, ?_, ?_, hanswer⟩, ?_⟩
  · exact (hmem _ _).mpr ⟨⟨_, hlist, by simp⟩, by decide, by rfl, by rfl, by decide⟩
  · exact (hmem _ _).mpr ⟨⟨_, hlist, by simp⟩, by decide, by rfl, by rfl, by decide⟩
  · intro hdelivers
    exact absurd ((hmem _ _).mp hdelivers).carried (by decide)
  · refine (hsame _ [garbage] 5 hother (.refl _) (by simp [garbage]) ?_).1
    intro f hf path report hdelivers hfind
    cases List.mem_singleton.mp hf
    have hfiles : garbage ∈ other.disk.files := List.mem_append_right _ (List.mem_singleton_self _)
    have hnone := Site.report?_of_not_module hother rfl hfiles nofun hfind
    exact absurd (hdelivers.reported.symm.trans hnone) nofun

end Hotswap.Delivery
