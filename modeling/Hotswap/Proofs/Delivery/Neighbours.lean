import Hotswap.Proofs.Delivery.Process
import Hotswap.Proofs.Delivery.Tidy

/-!
# What loading a module does to its neighbours

Loading deletes at most files that have the name in which the path ends, and keeps at most one
module in memory.  On a tidy site that is nothing to any path with another file name: the library
opened by it stays the same (`Watcher.library?_load`).

A site is tidy if its disk is and if the modules in memory agree with it: two that came from one
file came by one path, a module is known by the file name of its source, and if its file is still
there, it has that name.  Loads and changes keep a site tidy.
-/

namespace Hotswap.Delivery

variable {σ ε : Type}

/-! ## Deleting files of one name -/

namespace Disk

/-- Some files were deleted, all by paths that end in this name. -/
inductive Sheds (name : Option String) (d : Disk) : Disk → Prop
  | refl : Sheds name d d
  | unlink {d' d'' : Disk} {p : Path} :
      Sheds name d d' → p.fileName? = name → d'.unlink p = .ok d'' → Sheds name d d''

theorem next_unlink {d d' : Disk} {p : Path} (h : d.unlink p = .ok d') : d'.next = d.next := by
  unfold Disk.unlink at h
  split at h
  · cases h
  · split at h
    · cases h
    · cases h
    · cases h
      unfold drop
      split
      · rfl
      · rfl

variable {name : Option String} {d d' : Disk}

theorem Sheds.trans {d'' : Disk} (h : Sheds name d d') (h' : Sheds name d' d'') :
    Sheds name d d'' := by
  induction h' with
  | refl => exact h
  | unlink _ hname hunlink ih => exact .unlink ih hname hunlink

theorem Sheds.next (h : Sheds name d d') : d'.next = d.next := by
  induction h with
  | refl => rfl
  | unlink _ _ hunlink ih => exact (next_unlink hunlink).trans ih

theorem Sheds.tidy (htidy : d.Tidy) (h : Sheds name d d') : d'.Tidy := by
  induction h with
  | refl => exact htidy
  | unlink _ _ hunlink ih => exact ih.unlink hunlink

theorem Sheds.lacksOnly (htidy : d.Tidy) (h : Sheds name d d') :
    LacksOnly (fun place => place.getLast? = name) d' d := by
  induction h with
  | refl => exact .refl d
  | unlink hsheds hname hunlink ih =>
      cases hname
      exact (lacksOnly_unlink (hsheds.tidy htidy) hunlink).trans ih

theorem Sheds.exists_file (htidy : d.Tidy) (h : Sheds name d d') {f : File} (hf : f ∈ d'.files) :
    ∃ old ∈ d.files, old.place = f.place ∧ old.number = f.number := by
  have hsees : d'.sees f.place = some (f.node, f.number) := by
    rw [sees, (h.tidy htidy).fileAt?_eq_some_iff.mpr ⟨hf, rfl⟩]
    rfl
  rcases (h.lacksOnly htidy).sees f.place with hsame | ⟨-, hnone, -⟩
  · obtain ⟨old, hold, hkey⟩ := Option.map_eq_some_iff.mp (hsame.symm.trans hsees)
    obtain ⟨hmem, hplace⟩ := place_of_fileAt? hold
    exact ⟨old, hmem, hplace, congrArg Prod.snd hkey⟩
  · cases hsees.symm.trans hnone

theorem Sheds.seen? {q : Path} (htidy : d.Tidy) (h : Sheds name d d') (hname : q.fileName? ≠ name) :
    d'.seen? q = d.seen? q := by
  refine (h.lacksOnly htidy).seen? fun place hfind hfile hplace => hname ?_
  rw [fileName?_of_find htidy hfind hfile, hplace]

end Disk

/-! ## Tidy sites -/

namespace Site

/-- A module in memory agrees with the others and with the files. -/
structure Fits (site : Site σ) (r : Resident) : Prop where
  given : r.file < site.disk.next
  source {r' : Resident} : r' ∈ site.residents → r'.file = r.file → r'.source = r.source
  name : r.source.fileName? = r.path.fileName?
  entry {f : File} : f ∈ site.disk.files → f.number = r.file →
    f.place.getLast? = r.source.fileName?

/-- The files form a tree, and the modules in memory agree with them. -/
structure Tidy (site : Site σ) : Prop where
  disk : site.disk.Tidy
  residents {r : Resident} : r ∈ site.residents → site.Fits r

variable {site : Site σ} {path q : Path} {r : Resident}

theorem tidy_blank (session : Session σ) (now : Nat) : Tidy ⟨session, .blank now, []⟩ :=
  ⟨Disk.tidy_blank now, nofun⟩

theorem library?_eq (site : Site σ) (path : Path) :
    site.library? path = match site.known? path with
      | some r => some (.module r)
      | none =>
        if !path.isPlain then none
        else (site.disk.seen? path).bind fun key =>
          match key.1 with
          | .module => some (.module (site.opened path key.2))
          | .stranger => some .stranger
          | _ => none := by
  rw [library?, Disk.seen?_eq_map, Option.bind_map]
  rfl

theorem known?_eq_some (h : site.known? path = some r) : r ∈ site.residents ∧ r.path = path :=
  ⟨List.mem_of_find?_eq_some h, by simpa using List.find?_some h⟩

/-- What a path opens is in memory, or it is seen on the disk. -/
theorem of_library? {library : Library} (h : site.library? path = some library) :
    (∃ r ∈ site.residents, r.path = path ∧ library = .module r)
      ∨ (site.known? path = none ∧ ∃ number,
        (site.disk.seen? path = some (.module, number)
            ∧ library = .module (site.opened path number))
          ∨ (site.disk.seen? path = some (.stranger, number) ∧ library = .stranger)) := by
  rw [library?_eq] at h
  cases hknown : site.known? path with
  | some r =>
      rw [hknown] at h
      obtain ⟨hr, hpath⟩ := known?_eq_some hknown
      cases h
      exact .inl ⟨r, hr, hpath, rfl⟩
  | none =>
      simp only [hknown, Option.ite_none_left_eq_some] at h
      obtain ⟨⟨node, number⟩, hseen, hnode⟩ := Option.bind_eq_some_iff.mp h.2
      cases node with
      | module =>
          cases hnode
          exact .inr ⟨rfl, number, .inl ⟨hseen, rfl⟩⟩
      | stranger =>
          cases hnode
          exact .inr ⟨rfl, number, .inr ⟨hseen, rfl⟩⟩
      | garbage => cases hnode
      | directory => cases hnode
      | dangling => cases hnode

theorem Tidy.fits (h : site.Tidy) (hlibrary : site.library? path = some (.module r)) :
    site.Fits r ∧ r.path = path := by
  rcases of_library? hlibrary with ⟨r', hr', hpath, heq⟩ | ⟨-, number, ⟨hseen, heq⟩ | ⟨-, heq⟩⟩
  · cases heq
    exact ⟨h.residents hr', hpath⟩
  · obtain ⟨f, hf, hnumber, -, hname⟩ := h.disk.file_of_seen? hseen nofun
    cases heq
    unfold opened
    split
    · -- the file is that of a module in memory
      rename_i first hfirst
      have hmem := List.mem_of_find?_eq_some hfirst
      have hfile : first.file = number := by simpa using List.find?_some hfirst
      have hfits := h.residents hmem
      refine ⟨⟨hfits.given, hfits.source, ?_, hfits.entry⟩, rfl⟩
      rw [hname]
      exact (hfits.entry hf (hnumber.trans hfile.symm)).symm
    · rename_i hnone
      refine ⟨⟨hnumber ▸ h.disk.given hf, fun hr' hfile => ?_, rfl, fun hg hsame => ?_⟩, rfl⟩
      · have hother := List.find?_eq_none.mp hnone _ hr'
        exact absurd (beq_iff_eq.mpr hfile) hother
      · cases List.inj_on_of_nodup_map h.disk.numbers hg hf (hsame.trans hnumber.symm)
        exact hname.symm
  · cases heq

theorem Tidy.keep (h : site.Tidy) (hfits : site.Fits r) : (site.keep r).Tidy := by
  refine ⟨h.disk, fun hr => ?_⟩
  rcases List.mem_cons.mp hr with rfl | hr
  · refine ⟨hfits.given, fun hr' hfile => ?_, hfits.name, hfits.entry⟩
    rcases List.mem_cons.mp hr' with rfl | hr'
    · rfl
    · exact hfits.source hr' hfile
  · have hother := h.residents hr
    refine ⟨hother.given, fun hr' hfile => ?_, hother.name, hother.entry⟩
    rcases List.mem_cons.mp hr' with rfl | hr'
    · exact (hfits.source ‹_› hfile.symm).symm
    · exact hother.source hr' hfile

/-- Files of one name may have been deleted, and something may have happened to the session. -/
structure Trims (name : Option String) (site after : Site σ) : Prop where
  disk : site.disk.Sheds name after.disk
  residents : after.residents = site.residents

variable {name : Option String} {after last : Site σ}

theorem Trims.refl (site : Site σ) : Trims name site site :=
  ⟨.refl, rfl⟩

theorem Trims.trans (h : Trims name site after) (h' : Trims name after last) :
    Trims name site last :=
  ⟨h.disk.trans h'.disk, h'.residents.trans h.residents⟩

theorem trims_unlink (h : site.unlink path = .ok after) : Trims path.fileName? site after := by
  obtain ⟨disk, hdisk, rfl⟩ := unlink_eq h
  exact ⟨.unlink .refl rfl hdisk, rfl⟩

theorem Fits.trims (hfits : site.Fits r) (h : site.Tidy) (htrims : Trims name site after) :
    after.Fits r := by
  refine ⟨htrims.disk.next ▸ hfits.given, fun hr' => ?_, hfits.name, fun hf hfile => ?_⟩
  · rw [htrims.residents] at hr'
    exact hfits.source hr'
  · obtain ⟨old, hold, hplace, hnumber⟩ := htrims.disk.exists_file h.disk hf
    rw [← hplace]
    exact hfits.entry hold (hnumber.trans hfile)

theorem Tidy.trims (h : site.Tidy) (htrims : Trims name site after) : after.Tidy := by
  refine ⟨htrims.disk.tidy h.disk, fun hr => ?_⟩
  rw [htrims.residents] at hr
  exact (h.residents hr).trims h htrims

theorem Tidy.session (h : site.Tidy) (session : Session σ) :
    Tidy ⟨session, site.disk, site.residents⟩ := by
  have htrims : Trims none site ⟨session, site.disk, site.residents⟩ := ⟨.refl, rfl⟩
  exact h.trims htrims

theorem library?_trims (h : site.Tidy) (htrims : Trims name site after)
    (hname : q.fileName? ≠ name) : after.library? q = site.library? q := by
  have hseen := htrims.disk.seen? h.disk hname
  have hknown : after.known? q = site.known? q := by rw [known?, htrims.residents, known?]
  have hopened (number : Nat) : after.opened q number = site.opened q number := by
    rw [opened, htrims.residents, opened]
  simp only [library?_eq, hknown, hseen, hopened]

theorem library?_keep (h : site.Tidy) (hfits : site.Fits r)
    (hname : q.fileName? ≠ r.path.fileName?) :
    (site.keep r).library? q = site.library? q := by
  have hpath : ¬ (r.path == q) = true := by
    rw [beq_iff_eq]
    exact fun h => hname (congrArg Path.fileName? h).symm
  have hknown : (site.keep r).known? q = site.known? q := List.find?_cons_of_neg hpath
  have hseen : (site.keep r).disk.seen? q = site.disk.seen? q := rfl
  rw [library?_eq, library?_eq, hknown, hseen]
  cases hkey : site.disk.seen? q with
  | none => rfl
  | some key =>
      obtain ⟨node, number⟩ := key
      cases node with
      | module =>
          -- the file behind `q` has another name, so it is not that of the module
          obtain ⟨f, hf, hnumber, -, hfile⟩ := h.disk.file_of_seen? hkey nofun
          have hother : ¬ (r.file == number) = true := by
            rw [beq_iff_eq]
            intro hsame
            have hentry := hfits.entry hf (hnumber.trans hsame.symm)
            exact hname (hfile.trans (hentry.trans hfits.name))
          have hopened : (site.keep r).opened q number = site.opened q number := by
            have hfind : (site.keep r).residents.find? (fun r => r.file == number)
                = site.residents.find? fun r => r.file == number :=
              List.find?_cons_of_neg hother
            rw [opened, hfind, opened]
          simp only [Option.bind_some, hopened]
      | _ => rfl

end Site

/-! ## Loads -/

namespace Watcher

variable {site : Site σ} {path q : Path}

theorem trims_entered (h : site.Tidy) (path : Path) :
    Site.Trims path.fileName? site (site.entered path) := by
  unfold Site.entered
  split
  · rename_i r hlibrary
    obtain ⟨hfits, rfl⟩ := h.fits hlibrary
    split
    · cases hunlink : site.unlink r.source with
      | error cause => exact .refl site
      | ok after => exact hfits.name ▸ Site.trims_unlink hunlink
    · exact .refl site
  · exact .refl site

variable (w : Watcher σ ε)

theorem trims_discard (path : Path) (site : Site σ) :
    Site.Trims path.fileName? site (w.discard path site).state := by
  unfold discard
  split
  · split
    · rename_i after hunlink
      exact Site.trims_unlink hunlink
    · exact .refl site
  · exact .refl site

theorem trims_accept (path : Path) (report : Report) (site : Site σ) :
    Site.Trims path.fileName? site (w.accept path report site).state := by
  unfold accept
  split
  · refine Effect.state_next_of (Q := Site.Trims path.fileName? site) ⟨.refl, rfl⟩
      fun accepted => ?_
    obtain ⟨hdisk, hresidents⟩ := w.trims_discard path { site with
      session := (w.submitAll report.stamped site.session).state }
    exact ⟨hdisk, hresidents⟩
  · exact .refl site

/-- A load deletes files of the name in which the path ends, and if it succeeds, it keeps the module
that the path opens. -/
theorem load_outcome (h : site.Tidy) (path : Path) :
    ∃ after, Site.Trims path.fileName? site after
      ∧ (((w.load path site).answer.isOk = false ∧ (w.load path site).state = after)
        ∨ ∃ r, site.library? path = some (.module r) ∧ (w.load path site).answer.isOk = true
          ∧ (w.load path site).state = after.keep r) := by
  have hentered := trims_entered h path
  cases htaken : w.taken? site path with
  | none =>
      obtain ⟨cause, hload⟩ := load_of_not_taken htaken
      exact ⟨site.entered path, hentered, .inl (by rw [hload]; exact ⟨rfl, rfl⟩)⟩
  | some report =>
      obtain ⟨r, hlibrary, hload⟩ := load_of_taken htaken
      have haccept := hentered.trans (w.trims_accept path report (site.entered path))
      refine ⟨_, haccept, ?_⟩
      cases hanswer : (w.accept path report (site.entered path)).answer with
      | ok accepted =>
          rw [hload, Effect.next_ok hanswer]
          exact .inr ⟨r, hlibrary, rfl, rfl⟩
      | error cause =>
          rw [hload, Effect.next_error hanswer]
          exact .inl ⟨rfl, rfl⟩
      | aborted =>
          rw [hload, Effect.next_aborted hanswer]
          exact .inl ⟨rfl, rfl⟩

theorem tidy_load (h : site.Tidy) (path : Path) : (w.load path site).state.Tidy := by
  obtain ⟨after, htrims, ⟨-, hstate⟩ | ⟨r, hlibrary, -, hstate⟩⟩ := w.load_outcome h path
  · rw [hstate]
    exact h.trims htrims
  · rw [hstate]
    exact (h.trims htrims).keep ((h.fits hlibrary).1.trims h htrims)

/-- **A load is no matter to paths with another file name.** -/
theorem library?_load (h : site.Tidy) (hname : q.fileName? ≠ path.fileName?) :
    (w.load path site).state.library? q = site.library? q := by
  obtain ⟨after, htrims, ⟨-, hstate⟩ | ⟨r, hlibrary, -, hstate⟩⟩ := w.load_outcome h path
  · rw [hstate]
    exact Site.library?_trims h htrims hname
  · obtain ⟨hfits, rfl⟩ := h.fits hlibrary
    rw [hstate, Site.library?_keep (h.trims htrims) (hfits.trims h htrims) hname]
    exact Site.library?_trims h htrims hname

theorem taken?_load (h : site.Tidy) (hname : q.fileName? ≠ path.fileName?) :
    w.taken? (w.load path site).state q = w.taken? site q := by
  have hlibrary := w.library?_load h hname
  have hpayloads : (w.load path site).state.disk.payloads = site.disk.payloads := by
    obtain ⟨after, htrims, ⟨-, hstate⟩ | ⟨r, -, -, hstate⟩⟩ := w.load_outcome h path
    · rw [hstate]
      exact (htrims.disk.lacksOnly h.disk).payloads
    · rw [hstate]
      exact (htrims.disk.lacksOnly h.disk).payloads
  rw [taken?, Site.report?, hlibrary, hpayloads, taken?, Site.report?]

/-! ## Runs -/

theorem tidy_perform (h : site.Tidy) (step : Step) : (w.perform site step).state.Tidy := by
  have hload (path : Path) (site : Site σ) (h : site.Tidy) : (w.load path site).state.Tidy :=
    w.tidy_load h path
  cases step with
  | load path => exact w.tidy_load h path
  | loadExisting => exact loadExisting_keeps hload h
  | event notices => exact heedAll_keeps hload notices h
  | register table => exact h.session _
  | applyPending key => exact h.session _
  | change change =>
      have hextends := Disk.extends_perform change site.disk
      refine ⟨h.disk.perform change, fun hr => ?_⟩
      have hfits := h.residents hr
      refine ⟨Nat.lt_of_lt_of_le hfits.given hextends.next, hfits.source, hfits.name,
        fun hf hfile => ?_⟩
      rcases hextends.old hf with hnew | ⟨old, hold, hplace, hnumber⟩
      · exact absurd hfits.given (Nat.not_lt_of_le (hfile ▸ hnew))
      · rw [← hplace]
        exact hfits.entry hold (hnumber.trans hfile)

/-- **Every site that a process comes to is tidy**, if it starts from a tidy one. -/
theorem tidy_run (h : site.Tidy) (steps : List Step) : (w.run steps site).state.Tidy :=
  w.run_keeps (Q := Site.Tidy) (fun step _ h => w.tidy_perform h step) steps h

end Watcher
end Hotswap.Delivery
