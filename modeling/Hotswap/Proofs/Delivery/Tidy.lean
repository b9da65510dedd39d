import Mathlib.Data.List.Induction
import Mathlib.Data.List.Nodup
import Hotswap.Delivery.Watch
import Hotswap.Proofs.Delivery.Lookup
import Hotswap.Proofs.Delivery.Names

/-!
# Tidy disks

A disk is tidy if its entries form a tree: no place and no number is used twice, every number was
given out, and every entry hangs from a directory under a proper name.  The disk without files is
tidy, and every change keeps a disk tidy (`Tidy.perform`).

On a tidy disk nothing lies below what is no directory.  So deleting a file takes away one entry and
no more, one that has the name in which the path ends (`lacksOnly_unlink`).
-/

namespace Hotswap.Delivery.Disk

variable {d d' : Disk} {place : Place} {p : Path}

/-! ## Trees of entries -/

/-- The entries form a tree. -/
structure Tidy (d : Disk) : Prop where
  places : (d.files.map File.place).Nodup
  numbers : (d.files.map File.number).Nodup
  given {f : File} : f ∈ d.files → f.number < d.next
  hangs {f : File} : f ∈ d.files →
    ∃ parent name, f.place = parent ++ [name] ∧ IsName name ∧ d.isDirectory parent = true

theorem tidy_blank (now : Nat) : (blank now).Tidy :=
  ⟨List.nodup_nil, List.nodup_nil, nofun, nofun⟩

namespace Tidy

theorem fileAt?_eq_some_iff (h : d.Tidy) {f : File} :
    d.fileAt? place = some f ↔ f ∈ d.files ∧ f.place = place := by
  refine ⟨place_of_fileAt?, fun ⟨hf, hplace⟩ => ?_⟩
  cases hfound : d.fileAt? place with
  | none =>
      have hnone := List.find?_eq_none.mp hfound f hf
      simp [hplace] at hnone
  | some f' =>
      obtain ⟨hf', hplace'⟩ := place_of_fileAt? hfound
      rw [List.inj_on_of_nodup_map h.places hf' hf (hplace'.trans hplace.symm)]

theorem isName (h : d.Tidy) {f : File} {parent : Place} {name : String} (hf : f ∈ d.files)
    (hplace : f.place = parent ++ [name]) : IsName name := by
  obtain ⟨parent', name', hplace', hname, -⟩ := h.hangs hf
  obtain ⟨-, hsame⟩ := List.append_inj' (hplace.symm.trans hplace') rfl
  cases hsame
  exact hname

theorem isDirectory_place (h : d.Tidy) {f : File} (hf : f ∈ d.files) (hnode : f.node ≠ .directory) :
    d.isDirectory f.place = false := by
  obtain ⟨parent, name, hplace, -, -⟩ := h.hangs hf
  have htop : f.place ≠ [] := by
    rw [hplace]
    exact List.append_ne_nil_of_right_ne_nil _ nofun
  rw [← Bool.not_eq_true, isDirectory_iff, nodeAt?_of_ne htop, sees,
    h.fileAt?_eq_some_iff.mpr ⟨hf, rfl⟩]
  exact fun hdirectory => hnode (Option.some.inj hdirectory)

theorem isDirectory_dropLast (h : d.Tidy) (hnode : d.nodeAt? place ≠ none) :
    d.isDirectory place.dropLast = true := by
  by_cases htop : place = []
  · rw [htop]
    rfl
  · rw [nodeAt?_of_ne htop, sees, Option.map_map] at hnode
    cases hfile : d.fileAt? place with
    | none =>
        rw [hfile] at hnode
        exact absurd rfl hnode
    | some f =>
        obtain ⟨hf, rfl⟩ := place_of_fileAt? hfile
        obtain ⟨parent, name, hplace, -, hdirectory⟩ := h.hangs hf
        rw [hplace, List.dropLast_concat]
        exact hdirectory

theorem isDirectory_of_below (h : d.Tidy) {above : Place} (hnode : d.nodeAt? place ≠ none)
    (hbelow : above <+: place) (hne : above ≠ place) : d.isDirectory above = true := by
  induction place using List.reverseRecOn with
  | nil => exact absurd (List.prefix_nil.mp hbelow) hne
  | append_singleton parent name ih =>
      have hparent : d.isDirectory parent = true := by
        have hdrop := h.isDirectory_dropLast hnode
        rwa [List.dropLast_concat] at hdrop
      rcases List.prefix_concat_iff.mp hbelow with heq | hbelow
      · exact absurd heq hne
      · by_cases heq : above = parent
        · rwa [heq]
        · exact ih (by rw [isDirectory_iff.mp hparent]; nofun) hbelow heq

end Tidy

/-- A path that leads to something else than a directory ends in its name. -/
theorem Leads.getLast?_eq (h : d.Tidy) {steps : List Component} {last : Place}
    (hleads : d.Leads place steps last) (hdirectory : d.isDirectory place = true)
    (hfile : d.isDirectory last = false) :
    ∃ name, steps.getLast? = some (.name name) ∧ last.getLast? = some name := by
  -- a step before the last one does not matter
  have hcons {step : Component} {steps : List Component}
      (hsteps : ∃ name, steps.getLast? = some (.name name) ∧ last.getLast? = some name) :
      ∃ name, (step :: steps).getLast? = some (.name name) ∧ last.getLast? = some name := by
    obtain ⟨name, hstep, hlast⟩ := hsteps
    exact ⟨name, by rw [List.getLast?_cons, hstep, Option.getD_some], hlast⟩
  induction hleads with
  | done => cases hfile.symm.trans hdirectory
  | root _ _ ih => exact hcons (ih rfl hfile hcons)
  | here _ _ ih => exact hcons (ih hdirectory hfile hcons)
  | parent _ _ ih =>
      refine hcons (ih (h.isDirectory_dropLast ?_) hfile hcons)
      rw [isDirectory_iff.mp hdirectory]
      nofun
  | @name place last steps name node _ _ hnode _ hrest ih =>
      cases hnext : d.isDirectory (place ++ [name]) with
      | true => exact hcons (ih hnext hfile hcons)
      | false =>
          obtain ⟨rfl, rfl⟩ := hrest.eq_of_not_directory hnext
          exact ⟨name, rfl, List.getLast?_concat⟩

theorem fileName?_of_find (h : d.Tidy) (hfind : d.find p = .ok place)
    (hfile : d.isDirectory place = false) : p.fileName? = place.getLast? := by
  obtain ⟨-, hleads, -⟩ := find_eq_ok_iff.mp hfind
  obtain ⟨name, hstep, hlast⟩ := hleads.getLast?_eq h rfl hfile
  rw [Path.fileName?, hstep, hlast]

/-- What is seen by a path is an entry.  If it is no directory, it is a regular file, and the path
ends in its name. -/
theorem Tidy.file_of_seen? (h : d.Tidy) {node : Node} {number : Nat}
    (hseen : d.seen? p = some (node, number)) (hnode : node ≠ .directory) :
    ∃ f ∈ d.files, f.number = number ∧ d.isFile p = .ok true
      ∧ p.fileName? = f.place.getLast? := by
  obtain ⟨place, hfind, hsees⟩ := Option.bind_eq_some_iff.mp hseen
  obtain ⟨f, hfile, hkey⟩ := Option.map_eq_some_iff.mp hsees
  obtain ⟨hf, rfl⟩ := place_of_fileAt? hfile
  have hfind' : d.find p = .ok f.place := by
    cases hresult : d.find p with
    | error cause =>
        rw [hresult] at hfind
        cases hfind
    | ok place =>
        rw [hresult] at hfind
        exact congrArg Except.ok (Option.some.inj hfind)
  have hnot : f.node ≠ .directory := fun hdirectory =>
    hnode ((congrArg Prod.fst hkey).symm.trans hdirectory)
  have hfile' := h.isDirectory_place hf hnot
  exact ⟨f, hf, congrArg Prod.snd hkey, isFile_eq_true_iff.mpr ⟨f.place, hfind', hfile'⟩,
    fileName?_of_find h hfind' hfile'⟩

/-! ## Changes keep a disk tidy -/

theorem stamp_keys (d : Disk) (above : Place) (time : Nat) :
    (d.stamp above time).files.map (fun f => (f.place, f.node, f.number))
      = d.files.map fun f => (f.place, f.node, f.number) := by
  rw [stamp, List.map_map]
  refine List.map_congr_left fun f _ => ?_
  simp only [Function.comp]
  split <;> rfl

theorem sees_stamp (d : Disk) (above : Place) (time : Nat) (place : Place) :
    (d.stamp above time).sees place = d.sees place := by
  have hkeys := congrArg (fun keys => (keys.find? fun key => key.1 == place).map Prod.snd)
    (d.stamp_keys above time)
  simp only [List.find?_map, Option.map_map] at hkeys
  exact hkeys

theorem fileAt?_without (d : Disk) (above place : Place) :
    (d.without above).fileAt? place = if above <+: place then none else d.fileAt? place := by
  simp only [fileAt?, without, List.find?_filter]
  split
  · rename_i hbelow
    refine List.find?_eq_none.mpr fun f _ hf => ?_
    simp only [Bool.decide_and, Bool.and_eq_true, decide_eq_true_eq, beq_iff_eq,
      Bool.not_eq_true'] at hf
    obtain ⟨hf, rfl⟩ := hf
    cases hf.symm.trans (List.isPrefixOf_iff_prefix.mpr hbelow)
  · rename_i hbelow
    congr 1
    funext f
    by_cases hplace : f.place = place
    · have hf : List.isPrefixOf above place = false := by
        rw [← Bool.not_eq_true, List.isPrefixOf_iff_prefix]
        exact hbelow
      simp [hplace, hf]
    · simp [hplace]

theorem sees_without {above : Place} (h : ¬ above <+: place) :
    (d.without above).sees place = d.sees place := by
  rw [sees, fileAt?_without, if_neg h, sees]

namespace Tidy

theorem stamp (h : d.Tidy) (above : Place) (time : Nat) : (d.stamp above time).Tidy := by
  have hkeys := d.stamp_keys above time
  have hplaces := congrArg (List.map Prod.fst) hkeys
  have hnumbers := congrArg (List.map fun key => key.2.2) hkeys
  simp only [List.map_map] at hplaces hnumbers
  constructor
  · exact hplaces ▸ h.places
  · exact hnumbers ▸ h.numbers
  · intro f hf
    have hnumber : f.number ∈ d.files.map File.number := by
      rw [show d.files.map File.number = _ from hnumbers.symm]
      exact List.mem_map_of_mem hf
    obtain ⟨old, hold, hsame⟩ := List.mem_map.mp hnumber
    rw [← hsame]
    exact h.given hold
  · intro f hf
    have hplace : f.place ∈ d.files.map File.place := by
      rw [show d.files.map File.place = _ from hplaces.symm]
      exact List.mem_map_of_mem hf
    obtain ⟨old, hold, hsame⟩ := List.mem_map.mp hplace
    obtain ⟨parent, name, hparent, hname, hdirectory⟩ := h.hangs hold
    refine ⟨parent, name, hsame ▸ hparent, hname, ?_⟩
    rw [isDirectory_congr (sees_stamp ..)]
    exact hdirectory

theorem without (h : d.Tidy) (above : Place) : (d.without above).Tidy := by
  have hsublist : (d.without above).files.Sublist d.files := List.filter_sublist
  constructor
  · exact h.places.sublist (hsublist.map _)
  · exact h.numbers.sublist (hsublist.map _)
  · exact fun hf => h.given (hsublist.subset hf)
  · intro f hf
    obtain ⟨hfiles, hleft⟩ := List.mem_filter.mp hf
    obtain ⟨parent, name, hplace, hname, hdirectory⟩ := h.hangs hfiles
    refine ⟨parent, name, hplace, hname, ?_⟩
    have hparent : ¬ above <+: parent := by
      intro hbelow
      have hbelow' : above <+: f.place := hplace ▸ hbelow.trans (List.prefix_append ..)
      rw [List.isPrefixOf_iff_prefix.mpr hbelow'] at hleft
      cases hleft
    rw [isDirectory_congr (sees_without hparent)]
    exact hdirectory

theorem drop (h : d.Tidy) (place : Place) : (d.drop place).Tidy := by
  unfold Disk.drop
  split
  · exact (h.without place).stamp ..
  · exact h

theorem erase (h : d.Tidy) (p : Path) : (d.erase p).Tidy := by
  unfold Disk.erase
  split
  · exact h.drop _
  · exact h

theorem touch (h : d.Tidy) (p : Path) (time : Nat) : (d.touch p time).Tidy := by
  unfold Disk.touch
  split
  · exact h.stamp ..
  · exact h

theorem unlink (h : d.Tidy) (hunlink : d.unlink p = .ok d') : d'.Tidy := by
  unfold Disk.unlink at hunlink
  split at hunlink
  · cases hunlink
  · split at hunlink
    · cases hunlink
    · cases hunlink
    · cases hunlink
      exact h.drop _

end Tidy

theorem entryPlace_eq_ok (h : d.entryPlace p = .ok place) :
    ∃ parent name, place = parent ++ [name] ∧ p.fileName? = some name ∧ IsName name
      ∧ d.isDirectory parent = true := by
  unfold entryPlace at h
  split at h
  · rename_i name hlast
    split at h
    · cases h
    · rename_i parent _
      split at h
      · rename_i hdirectory
        cases h
        have hmem : .name name ∈ p.components := List.mem_of_getLast? hlast
        exact ⟨parent, name, rfl, by rw [Path.fileName?, hlast], Path.isName_of_mem_components hmem,
          hdirectory⟩
      · cases h
  · cases h

theorem mem_without {above : Place} {f : File} :
    f ∈ (d.without above).files ↔ f ∈ d.files ∧ ¬ above <+: f.place := by
  rw [without, List.mem_filter, Bool.not_eq_true', ← Bool.not_eq_true, List.isPrefixOf_iff_prefix]

theorem isDirectory_concat {f : File} {next : Nat} (h : d.isDirectory place = true) :
    isDirectory { d with files := d.files ++ [f], next := next } place = true := by
  rw [isDirectory_iff] at h ⊢
  by_cases htop : place = []
  · rw [htop, nodeAt?_top]
  · rw [nodeAt?_of_ne htop, sees, Option.map_map, Option.map_eq_some_iff] at h ⊢
    obtain ⟨old, hold, hnode⟩ := h
    refine ⟨old, ?_, hnode⟩
    unfold fileAt? at hold ⊢
    rw [List.find?_append, hold, Option.some_or]

namespace Tidy

theorem concat (h : d.Tidy) {parent : Place} {name : String} (hname : IsName name)
    (hdirectory : d.isDirectory parent = true) (node : Node) (modified : Nat) :
    Tidy { d with
      files := (d.without (parent ++ [name])).files
        ++ [⟨parent ++ [name], node, d.next, modified⟩]
      next := d.next + 1 } := by
  have hleft := h.without (parent ++ [name])
  have hparent : (d.without (parent ++ [name])).isDirectory parent = true := by
    have habove : ¬ parent ++ [name] <+: parent := by
      intro hbelow
      have hlength := hbelow.length_le
      rw [List.length_append, List.length_singleton] at hlength
      omega
    rw [isDirectory_congr (sees_without habove)]
    exact hdirectory
  constructor
  · rw [List.map_append, List.map_singleton, ← List.concat_eq_append]
    refine hleft.places.concat fun hmem => ?_
    obtain ⟨f, hf, hplace⟩ := List.mem_map.mp hmem
    exact (mem_without.mp hf).2 (hplace ▸ List.prefix_rfl)
  · rw [List.map_append, List.map_singleton, ← List.concat_eq_append]
    refine hleft.numbers.concat fun hmem => ?_
    obtain ⟨f, hf, hnumber⟩ := List.mem_map.mp hmem
    exact absurd (hleft.given hf) (hnumber ▸ Nat.lt_irrefl _)
  · intro f hf
    rcases List.mem_append.mp hf with hf | hf
    · exact Nat.lt_succ_of_lt (hleft.given hf)
    · cases List.mem_singleton.mp hf
      exact Nat.lt_succ_self _
  · intro f hf
    rcases List.mem_append.mp hf with hf | hf
    · obtain ⟨parent', name', hplace, hname', hdirectory'⟩ := hleft.hangs hf
      exact ⟨parent', name', hplace, hname', isDirectory_concat hdirectory'⟩
    · cases List.mem_singleton.mp hf
      exact ⟨parent, name, rfl, hname, isDirectory_concat hparent⟩

theorem put (h : d.Tidy) (p : Path) (node : Node) (modified : Nat) :
    (d.put p node modified).Tidy := by
  unfold Disk.put
  split
  · exact h
  · rename_i place hplace
    obtain ⟨parent, name, rfl, -, hname, hdirectory⟩ := entryPlace_eq_ok hplace
    split
    · exact h
    · split
      · exact h.concat hname hdirectory node modified
      · refine (h.stamp _ _).concat hname ?_ node modified
        rw [isDirectory_congr (sees_stamp ..)]
        exact hdirectory

theorem congr (h : d.Tidy) (hfiles : d'.files = d.files) (hnext : d'.next = d.next) : d'.Tidy := by
  have hsees (place : Place) : d'.sees place = d.sees place := by rw [sees, fileAt?, hfiles]; rfl
  constructor
  · exact hfiles ▸ h.places
  · exact hfiles ▸ h.numbers
  · rw [hfiles, hnext]
    exact h.given
  · rw [hfiles]
    intro f hf
    obtain ⟨parent, name, hplace, hname, hdirectory⟩ := h.hangs hf
    exact ⟨parent, name, hplace, hname, isDirectory_congr (hsees parent) ▸ hdirectory⟩

/-- **Every change keeps a disk tidy.** -/
theorem perform (h : d.Tidy) (change : Change) : (change.perform d).Tidy := by
  cases change with
  | put path node modified => exact h.put path node modified
  | deliver path payload modified => exact (h.put path .module modified).congr rfl rfl
  | touch path modified => exact h.touch path modified
  | remove path => exact h.erase path

end Tidy

theorem Tidy.foldl (h : d.Tidy) (changes : List Change) :
    (changes.foldl (fun d change => change.perform d) d).Tidy := by
  induction changes generalizing d with
  | nil => exact h
  | cons change changes ih => exact ih (h.perform change)

/-- Numbers are never taken back, and an entry that is not new is where it was. -/
structure Extends (d d' : Disk) : Prop where
  next : d.next ≤ d'.next
  old {f : File} : f ∈ d'.files → d.next ≤ f.number
    ∨ ∃ old ∈ d.files, old.place = f.place ∧ old.number = f.number

theorem Extends.refl (d : Disk) : d.Extends d :=
  ⟨Nat.le_refl _, fun hf => .inr ⟨_, hf, rfl, rfl⟩⟩

theorem extends_stamp (d : Disk) (above : Place) (time : Nat) : d.Extends (d.stamp above time) := by
  refine ⟨Nat.le_refl _, fun hf => .inr ?_⟩
  obtain ⟨old, hold, rfl⟩ := List.mem_map.mp hf
  refine ⟨old, hold, ?_⟩
  split
  · exact ⟨rfl, rfl⟩
  · exact ⟨rfl, rfl⟩

theorem Extends.trans {d'' : Disk} (h : d.Extends d') (h' : d'.Extends d'') : d.Extends d'' := by
  refine ⟨Nat.le_trans h.next h'.next, fun hf => ?_⟩
  rcases h'.old hf with hnew | ⟨f', hf', hplace', hnumber'⟩
  · exact .inl (Nat.le_trans h.next hnew)
  · rw [← hplace', ← hnumber']
    exact h.old hf'

theorem extends_without (d : Disk) (above : Place) : d.Extends (d.without above) :=
  ⟨Nat.le_refl _, fun hf => .inr ⟨_, (mem_without.mp hf).1, rfl, rfl⟩⟩

theorem extends_put (d : Disk) (p : Path) (node : Node) (modified : Nat) :
    d.Extends (d.put p node modified) := by
  have hconcat (d : Disk) (place : Place) : d.Extends { d with
      files := (d.without place).files ++ [⟨place, node, d.next, modified⟩]
      next := d.next + 1 } := by
    refine ⟨Nat.le_succ _, fun hf => ?_⟩
    rcases List.mem_append.mp hf with hf | hf
    · exact (d.extends_without place).old hf
    · cases List.mem_singleton.mp hf
      exact .inl (Nat.le_refl _)
  unfold put
  split
  · exact .refl d
  · split
    · exact .refl d
    · split
      · exact hconcat d _
      · exact (d.extends_stamp ..).trans (hconcat _ _)

theorem extends_perform (change : Change) (d : Disk) : d.Extends (change.perform d) := by
  cases change with
  | put path node modified => exact d.extends_put path node modified
  | deliver path payload modified =>
      obtain ⟨hnext, hold⟩ := d.extends_put path .module modified
      exact ⟨hnext, hold⟩
  | touch path modified =>
      rw [Change.perform, touch]
      split
      · exact d.extends_stamp ..
      · exact .refl d
  | remove path =>
      rw [Change.perform, erase]
      split
      · unfold drop
        split
        · exact (d.extends_without _).trans (extends_stamp ..)
        · exact .refl d
      · exact .refl d

theorem sees_drop (h : (d.nodeAt? place).isSome = true) (other : Place) :
    (d.drop place).sees other = if place <+: other then none else d.sees other := by
  rw [drop, if_pos h, sees_stamp, sees, fileAt?_without]
  split
  · rfl
  · rfl

/-- Deleting a file leaves all other entries and all directories. -/
theorem lacksOnly_unlink_place (h : d.Tidy) (hunlink : d.unlink p = .ok d') :
    ∃ place, d.entryPlace p = .ok place ∧ d'.sees place = none ∧ LacksOnly (· = place) d' d := by
  unfold unlink at hunlink
  split at hunlink
  · cases hunlink
  · rename_i place hplace
    split at hunlink
    · cases hunlink
    · cases hunlink
    · rename_i node hnotDirectory hnode
      cases hunlink
      have hfile : d.isDirectory place = false := by
        rw [← Bool.not_eq_true, isDirectory_iff, hnode]
        exact fun hdirectory => hnotDirectory (Option.some.inj hdirectory)
      have hthere : (d.nodeAt? place).isSome = true := by
        rw [hnode]
        rfl
      refine ⟨place, hplace, by rw [sees_drop hthere, if_pos List.prefix_rfl], ?_⟩
      refine ⟨by rw [drop, if_pos hthere]; rfl, fun other => ?_⟩
      rw [sees_drop hthere]
      by_cases hbelow : place <+: other
      · rw [if_pos hbelow]
        by_cases hsame : place = other
        · exact .inr ⟨hsame.symm, rfl, hsame ▸ hfile⟩
        · -- nothing lies below an entry that is no directory
          refine .inl ?_
          by_cases hnone : d.nodeAt? other = none
          · have hother : other ≠ [] := by
              rintro rfl
              cases hnone
            rw [nodeAt?_of_ne hother, Option.map_eq_none_iff] at hnone
            exact hnone.symm
          · have hdirectory := h.isDirectory_of_below hnone hbelow hsame
            cases hfile.symm.trans hdirectory
      · rw [if_neg hbelow]
        exact .inl rfl

theorem lacksOnly_unlink (h : d.Tidy) (hunlink : d.unlink p = .ok d') :
    LacksOnly (fun place => place.getLast? = p.fileName?) d' d := by
  obtain ⟨place, hplace, -, hlacks⟩ := lacksOnly_unlink_place h hunlink
  obtain ⟨parent, name, rfl, hname, -, -⟩ := entryPlace_eq_ok hplace
  refine hlacks.mono fun other hother => ?_
  rw [hother, List.getLast?_concat, hname]

end Hotswap.Delivery.Disk
