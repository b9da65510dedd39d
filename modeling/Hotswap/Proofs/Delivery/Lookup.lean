import Hotswap.Delivery.Disk
import Hotswap.Proofs.Delivery.Names

/-!
# Looking up paths

`Leads` is a walk that succeeds, step by step, and a path leads to a place if its text is accepted
and its steps lead there (`find_eq_ok_iff`).

Deleting files takes entries away and leaves the directories.  `LacksOnly P small big` says that of
two disks: they show the same everywhere, but for places with `P` where `big` has an entry that is
no directory and `small` has none.  A path then leads to the same place in both, or to such an
entry:

    small finds it    big finds it at the same place                    (`LacksOnly.find_big`)
    big finds it      small finds it at the same place, or it has `P`   (`LacksOnly.find_small`)

Where directories may go as well (`Lacks`), the first line is all that is left.
-/

namespace Hotswap.Delivery.Disk

variable {d d' small big : Disk} {place : Place} {p : Path} {P : Place → Prop}

/-! ## What is at a place -/

/-- What is at a place, as far as opening a library goes. -/
def sees (d : Disk) (place : Place) : Option (Node × Nat) :=
  (d.fileAt? place).map fun f => (f.node, f.number)

/-- What a path leads to, as far as opening a library goes. -/
def seen? (d : Disk) (p : Path) : Option (Node × Nat) :=
  (d.find p).toOption.bind d.sees

theorem seen?_eq_map (d : Disk) (p : Path) :
    d.seen? p = (d.file? p).map fun f => (f.node, f.number) := by
  rw [seen?, file?, Option.map_bind]
  rfl

theorem nodeAt?_top (d : Disk) : d.nodeAt? [] = some .directory := if_pos rfl

theorem nodeAt?_of_ne (h : place ≠ []) : d.nodeAt? place = (d.sees place).map Prod.fst := by
  rw [nodeAt?, if_neg h, sees, Option.map_map]
  rfl

theorem isDirectory_iff : d.isDirectory place = true ↔ d.nodeAt? place = some .directory := by
  unfold isDirectory
  split
  · rename_i h
    exact ⟨fun _ => h, fun _ => rfl⟩
  · rename_i h
    exact ⟨nofun, fun hdirectory => absurd hdirectory h⟩

theorem nodeAt?_congr (h : d.sees place = d'.sees place) : d.nodeAt? place = d'.nodeAt? place := by
  by_cases htop : place = []
  · rw [htop, nodeAt?_top, nodeAt?_top]
  · rw [nodeAt?_of_ne htop, nodeAt?_of_ne htop, h]

theorem isDirectory_congr (h : d.sees place = d'.sees place) :
    d.isDirectory place = d'.isDirectory place := by
  rw [isDirectory, isDirectory, nodeAt?_congr h]

theorem place_of_fileAt? {f : File} (h : d.fileAt? place = some f) :
    f ∈ d.files ∧ f.place = place :=
  ⟨List.mem_of_find?_eq_some h, by simpa using List.find?_some h⟩

/-! ## Walking -/

/-- The steps lead from a place to another, through directories that are there. -/
inductive Leads (d : Disk) : Place → List Component → Place → Prop
  | done {place : Place} : Leads d place [] place
  | root {place last : Place} {steps : List Component} :
      d.isDirectory place = true → Leads d [] steps last → Leads d place (.root :: steps) last
  | here {place last : Place} {steps : List Component} :
      d.isDirectory place = true → Leads d place steps last → Leads d place (.here :: steps) last
  | parent {place last : Place} {steps : List Component} :
      d.isDirectory place = true → Leads d place.dropLast steps last →
      Leads d place (.parent :: steps) last
  | name {place last : Place} {steps : List Component} {name : String} {node : Node} :
      d.isDirectory place = true → name.utf8ByteSize ≤ nameLimit →
      d.nodeAt? (place ++ [name]) = some node → node ≠ .dangling →
      Leads d (place ++ [name]) steps last → Leads d place (.name name :: steps) last

theorem walk_eq_ok_iff {steps : List Component} {last : Place} :
    d.walk place steps = .ok last ↔ d.Leads place steps last := by
  constructor
  · intro h
    induction steps generalizing place with
    | nil =>
        cases h
        exact .done
    | cons step steps ih =>
        simp only [walk] at h
        split at h
        · rename_i hdirectory
          cases step with
          | root => exact .root hdirectory (ih h)
          | here => exact .here hdirectory (ih h)
          | parent => exact .parent hdirectory (ih h)
          | name name =>
              simp only at h
              split at h
              · cases h
              · rename_i hlimit
                split at h
                · cases h
                · cases h
                · rename_i node hdangling hnode
                  exact .name hdirectory (Nat.le_of_not_lt hlimit) hnode hdangling (ih h)
        · cases h
  · intro h
    induction h with
    | done => rfl
    | root hdirectory _ ih => simpa only [walk, hdirectory, if_true] using ih
    | here hdirectory _ ih => simpa only [walk, hdirectory, if_true] using ih
    | parent hdirectory _ ih => simpa only [walk, hdirectory, if_true] using ih
    | name hdirectory hlimit hnode hdangling _ ih =>
        simp only [walk, hdirectory, if_true, if_neg (Nat.not_lt_of_le hlimit), hnode]
        exact ih

theorem Leads.eq_of_not_directory {steps : List Component} {last : Place}
    (h : d.Leads place steps last) (hfile : d.isDirectory place = false) :
    steps = [] ∧ last = place := by
  cases h with
  | done => exact ⟨rfl, rfl⟩
  | root hdirectory _ => cases hfile.symm.trans hdirectory
  | here hdirectory _ => cases hfile.symm.trans hdirectory
  | parent hdirectory _ => cases hfile.symm.trans hdirectory
  | name hdirectory _ _ _ _ => cases hfile.symm.trans hdirectory

theorem Leads.split {first rest : List Component} {last : Place}
    (h : d.Leads place (first ++ rest) last) :
    ∃ middle, d.Leads place first middle ∧ d.Leads middle rest last := by
  induction first generalizing place with
  | nil => exact ⟨place, .done, h⟩
  | cons step first ih =>
      cases h with
      | root hdirectory h =>
          obtain ⟨middle, hfirst, hrest⟩ := ih h
          exact ⟨middle, .root hdirectory hfirst, hrest⟩
      | here hdirectory h =>
          obtain ⟨middle, hfirst, hrest⟩ := ih h
          exact ⟨middle, .here hdirectory hfirst, hrest⟩
      | parent hdirectory h =>
          obtain ⟨middle, hfirst, hrest⟩ := ih h
          exact ⟨middle, .parent hdirectory hfirst, hrest⟩
      | name hdirectory hlimit hnode hdangling h =>
          obtain ⟨middle, hfirst, hrest⟩ := ih h
          exact ⟨middle, .name hdirectory hlimit hnode hdangling hfirst, hrest⟩

/-- The part of a look-up that is about the text of the path alone. -/
def Accepts (p : Path) : Prop :=
  '\x00' ∉ p.text.toList ∧ p.text.isEmpty = false ∧ p.text.utf8ByteSize < pathLimit

theorem find_eq_ok_iff :
    d.find p = .ok place
      ↔ Accepts p ∧ d.Leads [] p.components place
        ∧ (p.endsInDirectory = true → d.isDirectory place = true) := by
  rw [← walk_eq_ok_iff]
  by_cases haccepts : Accepts p
  · obtain ⟨hzero, hempty, hlimit⟩ := haccepts
    rw [find, if_neg (by simpa using hzero), if_neg (by rw [hempty]; nofun),
      if_neg (Nat.not_le_of_lt hlimit)]
    cases hwalk : d.walk [] p.components with
    | error cause => simp
    | ok last =>
        cases hends : p.endsInDirectory with
        | false => simp [Accepts, hzero, hempty, hlimit]
        | true =>
            by_cases hlast : last = place
            · cases hdirectory : d.isDirectory last <;>
                simp [Accepts, hzero, hempty, hlimit, hdirectory, ← hlast]
            · cases hdirectory : d.isDirectory last <;> simp [hdirectory, hlast]
  · refine ⟨fun h => absurd ?_ haccepts, fun h => absurd h.1 haccepts⟩
    unfold find at h
    split at h
    · cases h
    · rename_i hzero
      split at h
      · cases h
      · rename_i hempty
        split at h
        · cases h
        · rename_i hlimit
          exact ⟨by simpa using hzero, by simpa using hempty, Nat.lt_of_not_le hlimit⟩

/-- The path to an entry of a directory leads to that entry, if anywhere. -/
theorem place_of_join {dir : Path} {name : String} {parent : Place} (hname : IsName name)
    (hdir : d.find dir = .ok parent) (hfind : d.find (dir.join name) = .ok place) :
    place = parent ++ [name] := by
  obtain ⟨-, hparent, -⟩ := find_eq_ok_iff.mp hdir
  obtain ⟨-, hleads, -⟩ := find_eq_ok_iff.mp hfind
  rw [Path.components_join hname] at hleads
  obtain ⟨middle, hmiddle, hstep⟩ := hleads.split
  have hsame : middle = parent :=
    Except.ok.inj ((walk_eq_ok_iff.mpr hmiddle).symm.trans (walk_eq_ok_iff.mpr hparent))
  cases hstep with
  | name _ _ _ _ hdone =>
      cases hdone with
      | done => rw [hsame]

/-! ## Listing -/

theorem nameIn?_eq_some_iff {f : File} {name : String} :
    nameIn? place f = some name ↔ f.place = place ++ [name] := by
  unfold nameIn?
  constructor
  · intro h
    split at h
    · rename_i last hlast
      obtain ⟨hparent, hname⟩ := Option.ite_none_right_eq_some.mp h
      cases hname
      obtain ⟨parent, hplace⟩ := List.getLast?_eq_some_iff.mp hlast
      rw [hplace, List.dropLast_concat] at hparent
      rw [hplace, hparent]
    · cases h
  · intro h
    rw [h, List.getLast?_concat, List.dropLast_concat]
    exact if_pos rfl

theorem list_eq_ok_iff {dir : Path} {listed : List Path} :
    d.list dir = .ok listed ↔ ∃ place, d.find dir = .ok place ∧ d.isDirectory place = true
      ∧ listed = (d.files.filterMap (nameIn? place)).map dir.join := by
  unfold list
  cases hfind : d.find dir with
  | error cause => simp
  | ok place =>
      cases hdirectory : d.isDirectory place with
      | false => simp [hdirectory]
      | true =>
          simp only [hdirectory, if_true, Except.ok.injEq]
          constructor
          · rintro rfl
            exact ⟨place, rfl, hdirectory, rfl⟩
          · rintro ⟨_, rfl, -, rfl⟩
            rfl

theorem mem_list_iff {dir : Path} :
    (∃ listed, d.list dir = .ok listed ∧ p ∈ listed)
      ↔ ∃ parent, d.find dir = .ok parent ∧ d.isDirectory parent = true
        ∧ ∃ f ∈ d.files, ∃ name, f.place = parent ++ [name] ∧ dir.join name = p := by
  constructor
  · rintro ⟨listed, hlist, hp⟩
    obtain ⟨parent, hfind, hdirectory, rfl⟩ := list_eq_ok_iff.mp hlist
    obtain ⟨name, hname, rfl⟩ := List.mem_map.mp hp
    obtain ⟨f, hf, hname⟩ := List.mem_filterMap.mp hname
    exact ⟨parent, hfind, hdirectory, f, hf, name, nameIn?_eq_some_iff.mp hname, rfl⟩
  · rintro ⟨parent, hfind, hdirectory, f, hf, name, hplace, rfl⟩
    refine ⟨_, list_eq_ok_iff.mpr ⟨parent, hfind, hdirectory, rfl⟩, List.mem_map_of_mem ?_⟩
    exact List.mem_filterMap.mpr ⟨f, hf, nameIn?_eq_some_iff.mpr hplace⟩

theorem isFile_eq_true_iff :
    d.isFile p = .ok true ↔ ∃ place, d.find p = .ok place ∧ d.isDirectory place = false := by
  unfold isFile
  cases hfind : d.find p with
  | error cause => simp [Except.map]
  | ok place => simp [Except.map]

/-! ## Entries that lack -/

/-- The disks show the same at every place, but for places with `P` where `small` has nothing. -/
structure Lacks (P : Place → Prop) (small big : Disk) : Prop where
  payloads : small.payloads = big.payloads
  sees (place : Place) : small.sees place = big.sees place ∨ (P place ∧ small.sees place = none)

namespace Lacks

theorem refl (d : Disk) : Lacks P d d :=
  ⟨rfl, fun _ => .inl rfl⟩

theorem mono {Q : Place → Prop} (h : Lacks P small big) (hsub : ∀ place, P place → Q place) :
    Lacks Q small big :=
  ⟨h.payloads, fun place => (h.sees place).imp_right (And.imp_left (hsub place))⟩

theorem trans {middle : Disk} (h : Lacks P small middle) (h' : Lacks P middle big) :
    Lacks P small big := by
  refine ⟨h.payloads.trans h'.payloads, fun place => ?_⟩
  rcases h.sees place with hsame | hlacks
  · rw [hsame]
    exact h'.sees place
  · exact .inr hlacks

theorem nodeAt? (h : Lacks P small big) {node : Node} (hnode : small.nodeAt? place = some node) :
    big.nodeAt? place = some node := by
  by_cases htop : place = []
  · rwa [htop, nodeAt?_top] at hnode ⊢
  · rw [nodeAt?_of_ne htop] at hnode ⊢
    rcases h.sees place with hsame | ⟨-, hnone⟩
    · rwa [hsame] at hnode
    · rw [hnone] at hnode
      cases hnode

theorem isDirectory (h : Lacks P small big) (hsmall : small.isDirectory place = true) :
    big.isDirectory place = true :=
  isDirectory_iff.mpr (h.nodeAt? (isDirectory_iff.mp hsmall))

theorem leads (h : Lacks P small big) {steps : List Component} {last : Place}
    (hleads : small.Leads place steps last) : big.Leads place steps last := by
  induction hleads with
  | done => exact .done
  | root hdirectory _ ih => exact .root (h.isDirectory hdirectory) ih
  | here hdirectory _ ih => exact .here (h.isDirectory hdirectory) ih
  | parent hdirectory _ ih => exact .parent (h.isDirectory hdirectory) ih
  | name hdirectory hlimit hnode hdangling _ ih =>
      exact .name (h.isDirectory hdirectory) hlimit (h.nodeAt? hnode) hdangling ih

theorem find (h : Lacks P small big) (hfind : small.find p = .ok place) :
    big.find p = .ok place := by
  obtain ⟨haccepts, hleads, hends⟩ := find_eq_ok_iff.mp hfind
  exact find_eq_ok_iff.mpr ⟨haccepts, h.leads hleads, fun h' => h.isDirectory (hends h')⟩

end Lacks

/-- The disks show the same at every place, but for places with `P` where `big` has an entry that is
no directory and `small` has none. -/
structure LacksOnly (P : Place → Prop) (small big : Disk) : Prop where
  payloads : small.payloads = big.payloads
  sees (place : Place) : small.sees place = big.sees place
    ∨ (P place ∧ small.sees place = none ∧ big.isDirectory place = false)

namespace LacksOnly

theorem lacks (h : LacksOnly P small big) : Lacks P small big :=
  ⟨h.payloads, fun place => (h.sees place).imp_right (And.imp_right And.left)⟩

theorem refl (d : Disk) : LacksOnly P d d :=
  ⟨rfl, fun _ => .inl rfl⟩

theorem mono {Q : Place → Prop} (h : LacksOnly P small big) (hsub : ∀ place, P place → Q place) :
    LacksOnly Q small big :=
  ⟨h.payloads, fun place => (h.sees place).imp_right (And.imp_left (hsub place))⟩

theorem trans {middle : Disk} (h : LacksOnly P small middle) (h' : LacksOnly P middle big) :
    LacksOnly P small big := by
  refine ⟨h.payloads.trans h'.payloads, fun place => ?_⟩
  rcases h'.sees place with hsame' | ⟨hP, hnone, hfile⟩
  · rcases h.sees place with hsame | ⟨hP, hnone, hfile⟩
    · exact .inl (hsame.trans hsame')
    · exact .inr ⟨hP, hnone, (isDirectory_congr hsame').symm.trans hfile⟩
  · rcases h.sees place with hsame | ⟨-, hnone', -⟩
    · exact .inr ⟨hP, hsame.trans hnone, hfile⟩
    · exact .inr ⟨hP, hnone', hfile⟩

theorem nodeAt? (h : LacksOnly P small big) (place : Place) :
    small.nodeAt? place = big.nodeAt? place
      ∨ (P place ∧ small.nodeAt? place = none ∧ big.isDirectory place = false) := by
  rcases h.sees place with hsame | ⟨hP, hnone, hfile⟩
  · exact .inl (nodeAt?_congr hsame)
  · by_cases htop : place = []
    · cases htop
      exact absurd hfile nofun
    · rw [nodeAt?_of_ne htop, hnone]
      exact .inr ⟨hP, rfl, hfile⟩

theorem isDirectory (h : LacksOnly P small big) (place : Place) :
    small.isDirectory place = big.isDirectory place := by
  rcases h.nodeAt? place with hsame | ⟨-, hnone, hfile⟩
  · rw [Disk.isDirectory, Disk.isDirectory, hsame]
  · rw [hfile, Disk.isDirectory, hnone]

theorem leads_small (h : LacksOnly P small big) {steps : List Component} {last : Place}
    (hleads : big.Leads place steps last) :
    small.Leads place steps last ∨ (P last ∧ big.isDirectory last = false) := by
  induction hleads with
  | done => exact .inl .done
  | root hdirectory _ ih => exact ih.imp_left (.root (h.isDirectory _ ▸ hdirectory))
  | here hdirectory _ ih => exact ih.imp_left (.here (h.isDirectory _ ▸ hdirectory))
  | parent hdirectory _ ih => exact ih.imp_left (.parent (h.isDirectory _ ▸ hdirectory))
  | name hdirectory hlimit hnode hdangling hrest ih =>
      rcases h.nodeAt? (_ ++ [_]) with hsame | ⟨hP, -, hfile⟩
      · exact ih.imp_left
          (.name (h.isDirectory _ ▸ hdirectory) hlimit (hsame ▸ hnode) hdangling)
      · obtain ⟨-, rfl⟩ := hrest.eq_of_not_directory hfile
        exact .inr ⟨hP, hfile⟩

theorem find_big (h : LacksOnly P small big) (hfind : small.find p = .ok place) :
    big.find p = .ok place :=
  h.lacks.find hfind

theorem find_small (h : LacksOnly P small big) (hfind : big.find p = .ok place) :
    small.find p = .ok place ∨ (P place ∧ big.isDirectory place = false) := by
  obtain ⟨haccepts, hleads, hends⟩ := find_eq_ok_iff.mp hfind
  refine (h.leads_small hleads).imp_left fun hleads' => ?_
  exact find_eq_ok_iff.mpr ⟨haccepts, hleads', h.isDirectory _ ▸ hends⟩

theorem seen? (h : LacksOnly P small big)
    (hother : ∀ place, big.find p = .ok place → big.isDirectory place = false → ¬ P place) :
    small.seen? p = big.seen? p := by
  unfold Disk.seen?
  cases hbig : big.find p with
  | error cause =>
      cases hsmall : small.find p with
      | error cause' => rfl
      | ok place => cases hbig.symm.trans (h.find_big hsmall)
  | ok place =>
      rcases h.find_small hbig with hsmall | ⟨hP, hfile⟩
      · rw [hsmall]
        rcases h.sees place with hsame | ⟨hP, -, hfile⟩
        · exact hsame
        · exact absurd hP (hother place hbig hfile)
      · exact absurd hP (hother place hbig hfile)

end LacksOnly

end Hotswap.Delivery.Disk
