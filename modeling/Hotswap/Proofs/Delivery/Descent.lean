import Hotswap.Proofs.Delivery.Neighbours

/-!
# What a load takes away

A load brings no file, and it takes away two at most (`Watcher.TakesAway`): the one that its path
names, if the watcher removes what it loads, and the one that the module deletes itself.

    unlink    the place that the path names is empty (`Disk.lacksOnly_unlink_place`)
    load      the same, once or twice (`Watcher.disk_load`)

Directories stay, so that a path names the same place before and after (`LacksOnly.entryPlace`).
That is why no file is deleted twice (`not_removable_cleared`), and why what cannot be deleted once
cannot be deleted when there are fewer files (`Lacks.removable`).
-/

namespace Hotswap.Delivery

variable {σ ε : Type}

/-! ## Deleting for good -/

namespace Disk

variable {d d' small big : Disk} {place : Place} {p q : Path} {P : Place → Prop}

theorem entryPlace_eq_ok_iff :
    d.entryPlace p = .ok place
      ↔ ∃ parent name, p.components.getLast? = some (.name name)
        ∧ d.Leads [] p.components.dropLast parent ∧ d.isDirectory parent = true
        ∧ place = parent ++ [name] := by
  constructor
  · intro h
    unfold entryPlace at h
    split at h
    · rename_i name hlast
      split at h
      · cases h
      · rename_i parent hwalk
        split at h
        · rename_i hdirectory
          cases h
          exact ⟨parent, name, hlast, walk_eq_ok_iff.mp hwalk, hdirectory, rfl⟩
        · cases h
    · cases h
  · rintro ⟨parent, name, hlast, hleads, hdirectory, rfl⟩
    simp only [entryPlace, hlast, walk_eq_ok_iff.mpr hleads, hdirectory, if_true]

theorem Lacks.entryPlace (h : Lacks P small big) (hsmall : small.entryPlace p = .ok place) :
    big.entryPlace p = .ok place := by
  obtain ⟨parent, name, hlast, hleads, hdirectory, rfl⟩ := entryPlace_eq_ok_iff.mp hsmall
  exact entryPlace_eq_ok_iff.mpr
    ⟨parent, name, hlast, h.leads hleads, h.isDirectory hdirectory, rfl⟩

theorem LacksOnly.entryPlace (h : LacksOnly P small big) :
    small.entryPlace p = .ok place ↔ big.entryPlace p = .ok place := by
  refine ⟨h.lacks.entryPlace, fun hbig => ?_⟩
  obtain ⟨parent, name, hlast, hleads, hdirectory, rfl⟩ := entryPlace_eq_ok_iff.mp hbig
  rcases h.leads_small hleads with hleads' | ⟨-, hfile⟩
  · exact entryPlace_eq_ok_iff.mpr
      ⟨parent, name, hlast, hleads', (h.isDirectory parent).trans hdirectory, rfl⟩
  · cases hfile.symm.trans hdirectory

/-- The file that the path names can be deleted. -/
def Removable (d : Disk) (p : Path) : Prop :=
  ∃ d', d.unlink p = .ok d'

theorem removable_iff :
    d.Removable p ↔ ∃ place node, d.entryPlace p = .ok place ∧ d.nodeAt? place = some node
      ∧ node ≠ .directory := by
  unfold Removable unlink
  cases hplace : d.entryPlace p with
  | error cause => simp
  | ok place =>
      cases hnode : d.nodeAt? place with
      | none => simp [hnode]
      | some node => cases node <;> simp [hnode]

instance (d : Disk) (p : Path) : Decidable (d.Removable p) :=
  decidable_of_iff ((d.unlink p).toOption.isSome = true) (by
    unfold Removable
    cases d.unlink p with
    | error cause => simp [Except.toOption]
    | ok d' => simp [Except.toOption])

theorem Lacks.removable (h : Lacks P small big) (hsmall : small.Removable p) :
    big.Removable p := by
  obtain ⟨place, node, hplace, hnode, hfile⟩ := removable_iff.mp hsmall
  exact removable_iff.mpr ⟨place, node, h.entryPlace hplace, h.nodeAt? hnode, hfile⟩

theorem Tidy.removable_of_isFile (h : d.Tidy) (hfile : d.isFile p = .ok true) :
    d.Removable p := by
  obtain ⟨place, hfind, hnot⟩ := isFile_eq_true_iff.mp hfile
  obtain ⟨-, hleads, -⟩ := find_eq_ok_iff.mp hfind
  obtain ⟨name, hlast, -⟩ := hleads.getLast?_eq h rfl hnot
  obtain ⟨first, hcomponents⟩ := List.getLast?_eq_some_iff.mp hlast
  rw [hcomponents] at hleads
  obtain ⟨parent, hparent, hstep⟩ := hleads.split
  cases hstep with
  | @name _ _ _ _ node hdirectory _ hnode _ hdone =>
      cases hdone with
      | done =>
          refine removable_iff.mpr ⟨parent ++ [name], node, ?_, hnode, ?_⟩
          · refine entryPlace_eq_ok_iff.mpr ⟨parent, name, hlast, ?_, hdirectory, rfl⟩
            rwa [hcomponents, List.dropLast_concat]
          · rintro rfl
            cases hnot.symm.trans (isDirectory_iff.mpr hnode)

/-- The disk without the file that the path names, if that can be deleted. -/
def cleared (d : Disk) (p : Path) : Disk :=
  (d.unlink p).toOption.getD d

theorem cleared_eq (d : Disk) (p : Path) :
    d.unlink p = .ok (d.cleared p) ∨ (¬ d.Removable p ∧ d.cleared p = d) := by
  unfold cleared Removable
  cases d.unlink p with
  | error cause => exact .inr ⟨nofun, rfl⟩
  | ok d' => exact .inl rfl

theorem Tidy.cleared (h : d.Tidy) (p : Path) : (d.cleared p).Tidy := by
  rcases d.cleared_eq p with hunlink | ⟨-, hsame⟩
  · exact h.unlink hunlink
  · exact hsame.symm ▸ h

theorem Tidy.lacksOnly_cleared (h : d.Tidy) (p : Path) :
    LacksOnly (fun place => d.entryPlace p = .ok place) (d.cleared p) d := by
  rcases d.cleared_eq p with hunlink | ⟨-, hsame⟩
  · obtain ⟨place, hplace, -, hlacks⟩ := lacksOnly_unlink_place h hunlink
    exact hlacks.mono fun other hother => hother ▸ hplace
  · rw [hsame]
    exact .refl d

/-- No file is deleted twice, whatever the two paths that name it. -/
theorem Tidy.not_removable_cleared (h : d.Tidy)
    (hsame : ∀ place, d.entryPlace q = .ok place → d.entryPlace p = .ok place) :
    ¬ (d.cleared p).Removable q := by
  intro hremovable
  obtain ⟨place, node, hplace, hnode, hfile⟩ := removable_iff.mp hremovable
  have hp := hsame place ((h.lacksOnly_cleared p).entryPlace.mp hplace)
  rcases d.cleared_eq p with hunlink | ⟨hstuck, hcleared⟩
  · obtain ⟨gone, hgone, hnone, -⟩ := lacksOnly_unlink_place h hunlink
    obtain rfl : place = gone := Except.ok.inj (hp.symm.trans hgone)
    obtain ⟨parent, name, rfl, -⟩ := entryPlace_eq_ok hp
    have htop : parent ++ [name] ≠ [] := List.append_ne_nil_of_right_ne_nil _ nofun
    rw [nodeAt?_of_ne htop, hnone] at hnode
    cases hnode
  · rw [hcleared] at hnode
    exact hstuck (removable_iff.mpr ⟨place, node, hp, hnode, hfile⟩)

end Disk

/-! ## What a load takes away -/

namespace Site

variable {site : Site σ} {path : Path}

theorem disk_unlink (site : Site σ) (path : Path) :
    ((site.unlink path).toOption.getD site).disk = site.disk.cleared path := by
  unfold unlink Disk.cleared
  cases site.disk.unlink path with
  | error cause => rfl
  | ok disk => rfl

theorem disk_entered_of_vanishes {r : Resident} (hlibrary : site.library? path = some (.module r))
    (hvanishes : (site.disk.payloads r.source).vanishes = true) :
    (site.entered path).disk = site.disk.cleared r.source := by
  simp only [entered, hlibrary, hvanishes, if_true]
  exact disk_unlink ..

theorem disk_entered (site : Site σ) (path : Path) :
    (site.entered path).disk = site.disk
      ∨ ∃ r, site.library? path = some (.module r)
        ∧ (site.disk.payloads r.source).vanishes = true
        ∧ (site.entered path).disk = site.disk.cleared r.source := by
  by_cases hstays : site.Stays path
  · exact .inl (by rw [hstays.entered_eq])
  · simp only [Stays, not_forall, Bool.not_eq_false] at hstays
    obtain ⟨r, hlibrary, hvanishes⟩ := hstays
    exact .inr ⟨r, hlibrary, hvanishes, disk_entered_of_vanishes hlibrary hvanishes⟩

end Site

namespace Watcher

/-- The load may have taken away the file at this place. -/
inductive TakesAway (w : Watcher σ ε) : Site σ × Path → Place → Prop
  /-- The path names it, and was loaded. -/
  | loaded {site : Site σ} {path : Path} {place : Place} :
      (w.load path site).answer.isOk = true → site.disk.entryPlace path = .ok place →
      TakesAway w (site, path) place
  /-- It is the file of a module that deletes its own file. -/
  | vanished {site : Site σ} {path : Path} {r : Resident} {place : Place} :
      site.library? path = some (.module r) → (site.disk.payloads r.source).vanishes = true →
      site.disk.entryPlace r.source = .ok place → TakesAway w (site, path) place

variable (w : Watcher σ ε) {site last : Site σ} {path : Path}

theorem disk_discard (path : Path) (site : Site σ) :
    (w.discard path site).state.disk
      = if w.settings.removeAfterLoad then site.disk.cleared path else site.disk := by
  rw [← Site.disk_unlink]
  unfold discard
  split
  · split
    · rename_i after hunlink
      rw [hunlink]
      rfl
    · rename_i cause hunlink
      rw [hunlink]
      rfl
  · rfl

theorem disk_accept {report : Report}
    (hcarries : path.carries report.version w.settings.extension = true) (site : Site σ) :
    (w.accept path report site).state.disk
      = if (w.accept path report site).answer.isOk && w.settings.removeAfterLoad
        then site.disk.cleared path else site.disk := by
  simp only [accept, if_pos hcarries]
  generalize hsubmitted : Effect.mapState (fun s => { site with session := s }) _ = submitted
  have hdisk : submitted.state.disk = site.disk := hsubmitted ▸ rfl
  cases hanswer : submitted.answer with
  | ok accepted =>
      rw [Effect.next_ok hanswer, ← hdisk]
      exact w.disk_discard path submitted.state
  | error cause =>
      rw [Effect.next_error hanswer]
      exact hdisk
  | aborted =>
      rw [Effect.next_aborted hanswer]
      exact hdisk

/-- A watcher deletes the file of a module that it has loaded, and no other. -/
theorem disk_load (path : Path) (site : Site σ) :
    (w.load path site).state.disk
      = if (w.load path site).answer.isOk && w.settings.removeAfterLoad
        then (site.entered path).disk.cleared path else (site.entered path).disk := by
  cases htaken : w.taken? site path with
  | none =>
      obtain ⟨cause, hload⟩ := load_of_not_taken htaken
      rw [hload]
      rfl
  | some report =>
      obtain ⟨r, -, hload⟩ := load_of_taken htaken
      obtain ⟨-, hcarries⟩ := taken?_eq_some_iff.mp htaken
      have haccept := w.disk_accept hcarries (site.entered path)
      rw [hload]
      cases hanswer : (w.accept path report (site.entered path)).answer with
      | ok accepted =>
          rw [hanswer] at haccept
          rw [Effect.next_ok hanswer]
          exact haccept
      | error cause =>
          rw [hanswer] at haccept
          rw [Effect.next_error hanswer]
          exact haccept
      | aborted =>
          rw [hanswer] at haccept
          rw [Effect.next_aborted hanswer]
          exact haccept

theorem lacksOnly_entered (h : site.Tidy) (path : Path) :
    Disk.LacksOnly (w.TakesAway (site, path)) (site.entered path).disk site.disk := by
  rcases site.disk_entered path with hsame | ⟨r, hlibrary, hvanishes, hdisk⟩
  · rw [hsame]
    exact .refl site.disk
  · rw [hdisk]
    exact (h.disk.lacksOnly_cleared r.source).mono fun place hplace =>
      .vanished hlibrary hvanishes hplace

theorem lacksOnly_load (h : site.Tidy) (path : Path) :
    Disk.LacksOnly (w.TakesAway (site, path)) (w.load path site).state.disk site.disk := by
  have hentered := w.lacksOnly_entered h path
  rw [disk_load]
  split
  · rename_i hloaded
    obtain ⟨hok, -⟩ := Bool.and_eq_true_iff.mp hloaded
    have hdisk := (h.trims (trims_entered h path)).disk
    refine ((hdisk.lacksOnly_cleared path).mono fun place hplace => ?_).trans hentered
    exact .loaded hok (hentered.entryPlace.mp hplace)
  · exact hentered

theorem not_removable_load (hremove : w.settings.removeAfterLoad = true) (h : site.Tidy)
    (hok : (w.load path site).answer.isOk = true) {q : Path}
    (hsame : ∀ place, site.disk.entryPlace q = .ok place → site.disk.entryPlace path = .ok place) :
    ¬ (w.load path site).state.disk.Removable q := by
  have hentered := w.lacksOnly_entered h path
  rw [disk_load, hok, hremove, Bool.and_true, if_pos rfl]
  exact (h.trims (trims_entered h path)).disk.not_removable_cleared fun place hplace =>
    hentered.entryPlace.mpr (hsame place (hentered.entryPlace.mp hplace))

end Watcher
end Hotswap.Delivery
