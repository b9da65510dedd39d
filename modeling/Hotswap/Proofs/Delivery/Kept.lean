import Hotswap.Proofs.Delivery.Course
import Hotswap.Proofs.Delivery.Existing

/-!
# Modules stay in memory

A load that succeeds keeps its module, since the base jumps into it from then on.  Opening the same
path again finds it there, whether its file is still on the disk or not.

    what was loaded      is known by its path (`known?_load_of_isOk`), and so is all that was known
    what is known        stays known as the same module (`Course.known?_of_eq_some`)
    what is not known    is loaded from a file or not at all (`isFile_of_known?_eq_none`)

So a path that was loaded once can be loaded again and again, with the same candidates each time
(`Course.loaded_again`).  What happens once only is that it is loaded from a file.
-/

namespace Hotswap.Delivery

variable {σ ε : Type}

/-! ## Modules that are known -/

namespace Site

variable {site : Site σ} {path q : Path} {r : Resident}

theorem library?_of_known? (h : site.known? path = some r) :
    site.library? path = some (.module r) := by
  rw [library?_eq, h]

theorem path_of_library? (h : site.library? path = some (.module r)) : r.path = path := by
  rcases of_library? h with ⟨r', -, hpath, heq⟩ | ⟨-, number, ⟨-, heq⟩ | ⟨-, heq⟩⟩
  · cases heq
    exact hpath
  · cases heq
    unfold opened
    split
    · rfl
    · rfl
  · cases heq

theorem known?_keep_self (site : Site σ) (r : Resident) : (site.keep r).known? r.path = some r :=
  List.find?_cons_of_pos (beq_self_eq_true r.path)

theorem known?_keep_of_ne (hne : r.path ≠ q) : (site.keep r).known? q = site.known? q :=
  List.find?_cons_of_neg (by rwa [beq_iff_eq])

/-- A module that is opened by a path under which none is known comes from a regular file. -/
theorem isFile_of_known?_eq_none (h : site.Tidy) (hknown : site.known? path = none)
    (hlibrary : site.library? path = some (.module r)) : site.disk.isFile path = .ok true := by
  rcases of_library? hlibrary with ⟨r', hr', hpath, -⟩ | ⟨-, number, ⟨hseen, -⟩ | ⟨-, heq⟩⟩
  · have hnone := List.find?_eq_none.mp hknown r' hr'
    rw [hpath, beq_self_eq_true] at hnone
    exact absurd rfl hnone
  · obtain ⟨-, -, -, hfile, -⟩ := h.disk.file_of_seen? hseen nofun
    exact hfile
  · cases heq

end Site

namespace Watcher

variable (w : Watcher σ ε) {site last : Site σ} {path q : Path} {r : Resident}

/-! ## Loads that succeed -/

/-- The loads that succeed. -/
def successes (w : Watcher σ ε) (loads : List (Site σ × Path)) : List (Site σ × Path) :=
  loads.filter fun load => (w.load load.2 load.1).answer.isOk

/-- The loads that succeed with a file: no module in memory is known by the path. -/
def consumptions (w : Watcher σ ε) (loads : List (Site σ × Path)) : List (Site σ × Path) :=
  (w.successes loads).filter fun load => (load.1.known? load.2).isNone

variable {loads : List (Site σ × Path)} {load : Site σ × Path}

theorem mem_successes :
    load ∈ w.successes loads ↔ load ∈ loads ∧ (w.load load.2 load.1).answer.isOk = true :=
  List.mem_filter

theorem mem_consumptions :
    load ∈ w.consumptions loads ↔ load ∈ w.successes loads ∧ load.1.known? load.2 = none := by
  rw [consumptions, List.mem_filter, Option.isNone_iff_eq_none]

theorem exists_module_of_isOk (hok : (w.load path site).answer.isOk = true) :
    ∃ r, site.library? path = some (.module r) := by
  cases htaken : w.taken? site path with
  | none =>
      obtain ⟨cause, hload⟩ := load_of_not_taken htaken
      rw [hload] at hok
      cases hok
  | some report =>
      obtain ⟨r, hlibrary, -⟩ := load_of_taken htaken
      exact ⟨r, hlibrary⟩

theorem isFile_of_mem_consumptions (h : load.1.Tidy) (hload : load ∈ w.consumptions loads) :
    load.1.disk.isFile load.2 = .ok true := by
  obtain ⟨hsuccess, hknown⟩ := w.mem_consumptions.mp hload
  obtain ⟨r, hlibrary⟩ := w.exists_module_of_isOk (w.mem_successes.mp hsuccess).2
  exact Site.isFile_of_known?_eq_none h hknown hlibrary

/-! ## What a load adds to what is known -/

theorem known?_load_of_isOk (h : site.Tidy) (hok : (w.load path site).answer.isOk = true) :
    ∃ r, site.library? path = some (.module r)
      ∧ (w.load path site).state.known? path = some r := by
  obtain ⟨after, -, ⟨hfails, -⟩ | ⟨r, hlibrary, -, hstate⟩⟩ := w.load_outcome h path
  · cases hfails.symm.trans hok
  · obtain rfl := Site.path_of_library? hlibrary
    exact ⟨r, hlibrary, by rw [hstate, Site.known?_keep_self]⟩

theorem known?_load_of_not (h : site.Tidy)
    (hnot : (w.load path site).answer.isOk = true → path ≠ q) :
    (w.load path site).state.known? q = site.known? q := by
  obtain ⟨after, htrims, ⟨-, hstate⟩ | ⟨r, hlibrary, hok, hstate⟩⟩ := w.load_outcome h path
  · rw [hstate, Site.known?, htrims.residents, Site.known?]
  · obtain rfl := Site.path_of_library? hlibrary
    rw [hstate, Site.known?_keep_of_ne (hnot hok), Site.known?, htrims.residents, Site.known?]

theorem known?_load_of_eq_some (h : site.Tidy) (hknown : site.known? q = some r) :
    (w.load path site).state.known? q = some r := by
  by_cases hnot : (w.load path site).answer.isOk = true → path ≠ q
  · rw [w.known?_load_of_not h hnot, hknown]
  · obtain ⟨hok, rfl⟩ : (w.load path site).answer.isOk = true ∧ path = q := by
      simpa only [ne_eq, Classical.not_imp, not_not] using hnot
    obtain ⟨r', hlibrary, hknown'⟩ := w.known?_load_of_isOk h hok
    rw [Site.library?_of_known? hknown] at hlibrary
    cases hlibrary
    exact hknown'

/-! ## What a course adds to what is known -/

namespace Course
variable {w} {changes : List Change}

theorem known?_of_eq_some (h : w.Course site loads changes last) (htidy : site.Tidy)
    (hknown : site.known? q = some r) : last.known? q = some r := by
  induction h with
  | done => exact hknown
  | load _ ih => exact ih (w.tidy_load htidy _) (w.known?_load_of_eq_some htidy hknown)
  | change _ _ ih => exact ih (w.tidy_perform htidy (.change _)) hknown

/-- Nothing becomes known but by a load that succeeds. -/
theorem known?_eq_none_iff (h : w.Course site loads changes last) (htidy : site.Tidy) :
    last.known? q = none
      ↔ site.known? q = none ∧ ∀ load ∈ w.successes loads, load.2 ≠ q := by
  induction h with
  | done => exact (and_iff_left nofun).symm
  | change _ _ ih => exact ih (w.tidy_perform htidy (.change _))
  | @load site last path loads changes _ ih =>
      rw [ih (w.tidy_load htidy path), successes, successes, List.filter_cons]
      split
      · rename_i hok
        rw [List.forall_mem_cons, ← and_assoc]
        refine and_congr_left fun _ => ?_
        by_cases hpath : path = q
        · subst hpath
          obtain ⟨r, -, hknown⟩ := w.known?_load_of_isOk htidy hok
          rw [hknown]
          exact iff_of_false nofun fun h => h.2 rfl
        · rw [w.known?_load_of_not htidy fun _ => hpath, and_iff_left hpath]
      · rename_i hfails
        rw [w.known?_load_of_not htidy fun hok => absurd hok hfails]

/-- **A path that was loaded can be loaded again**: once a load has succeeded, every later load of
the same path does, and offers the same. -/
theorem loaded_again (hpolicy : w.rig.policy.abortOnFault = false)
    (h : w.Course (w.load path site).state loads changes last) (htidy : site.Tidy)
    (hok : (w.load path site).answer.isOk = true) :
    (w.load path last).answer.isOk = true ∧ w.offers (last, path) = w.offers (site, path) := by
  have htidy' := w.tidy_load htidy path
  obtain ⟨r, hlibrary, hknown⟩ := w.known?_load_of_isOk htidy hok
  have hlibrary' := Site.library?_of_known? (h.known?_of_eq_some htidy' hknown)
  have hpayloads : last.disk.payloads = site.disk.payloads :=
    (h.lacks htidy').payloads.trans (w.lacksOnly_load htidy path).payloads
  have htaken : w.taken? last path = w.taken? site path := by
    rw [taken?, Site.report?, hlibrary', hpayloads, taken?, Site.report?, hlibrary]
  rw [w.isOk_load hpolicy, offers, offers, htaken]
  exact ⟨(w.isOk_load hpolicy path site).symm.trans hok, rfl⟩

end Course
end Watcher
end Hotswap.Delivery
