import Hotswap.Proofs.Delivery.Vouched
import Mathlib.Data.List.TakeWhile

/-!
# Two rules for the names of modules

The scan of a directory and the notices go by the extension of a file, a load by the version in
front of it.  Neither rule mentions the other:

    isModule     stem.extension        the last dot of the name, and something before it
    carries      …version.extension    a suffix, wherever the last dot may be

If there is no dot in the extension, then the dot in front of it is the last one of the name, and
the version stands before it.  So a load accepts nothing that the other two would pass over.
-/

namespace Hotswap.Delivery

variable {σ ε : Type}

/-! ## Extensions -/

/-- Read from its end, a name is its extension up to the last dot. -/
theorem extensionOf?_append {extension : List Char} (hdot : '.' ∉ extension) {stem : List Char}
    (hstem : stem ≠ []) : extensionOf? (stem ++ '.' :: extension) = some extension := by
  have hskip : ∀ c ∈ extension.reverse, (c != '.') = true := by
    intro c hc
    rw [bne_iff_ne]
    exact fun h => hdot (h ▸ List.mem_reverse.mp hc)
  have hreverse : (stem ++ '.' :: extension).reverse
      = extension.reverse ++ '.' :: stem.reverse := by
    simp
  obtain ⟨last, rest, hlast⟩ := List.exists_cons_of_ne_nil (List.reverse_ne_nil_iff.mpr hstem)
  have hbehind : (stem ++ '.' :: extension).reverse.dropWhile (· != '.') = '.' :: last :: rest := by
    rw [hreverse, List.dropWhile_append_of_pos hskip, hlast]
    rfl
  have hfront : (stem ++ '.' :: extension).reverse.takeWhile (· != '.') = extension.reverse := by
    rw [hreverse, List.takeWhile_append_of_pos hskip, hlast]
    simp
  unfold extensionOf?
  rw [hbehind, hfront, List.reverse_reverse]

theorem not_mem_of_extensionOf? {name extension : List Char}
    (h : extensionOf? name = some extension) : '.' ∉ extension := by
  unfold extensionOf? at h
  split at h
  · cases h
    intro hmem
    have hskipped := List.mem_takeWhile_imp (List.mem_reverse.mp hmem)
    exact absurd rfl (bne_iff_ne.mp hskipped)
  · cases h

theorem extensionOf?_append_iff {stem extension : List Char} (hstem : stem ≠ []) :
    extensionOf? (stem ++ '.' :: extension) = some extension ↔ '.' ∉ extension :=
  ⟨not_mem_of_extensionOf?, fun hdot => extensionOf?_append hdot hstem⟩

namespace Path

variable {path : Path} {version extension : String}

theorem isModule_iff :
    path.isModule extension = true
      ↔ ∃ name, path.fileName? = some name
        ∧ extensionOf? name.toList = some extension.toList := by
  rw [isModule, beq_iff_eq, extension?, Option.bind_eq_some_iff]
  refine exists_congr fun name => and_congr_right fun _ => ?_
  rw [Option.map_eq_some_iff]
  constructor
  · rintro ⟨cs, hcs, rfl⟩
    rw [String.toList_ofList, hcs]
  · intro h
    exact ⟨extension.toList, h, String.ofList_toList⟩

theorem isModule_iff_of_carries (h : path.carries version extension = true) :
    path.isModule extension = true ↔ '.' ∉ extension.toList := by
  obtain ⟨hversion, name, hname, before, hsuffix⟩ := carries_iff.mp h
  have hsplit : name.toList = (before ++ version.toList) ++ '.' :: extension.toList := by
    rw [← hsuffix, String.toList_append, String.toList_append]
    simp
  have hstem : before ++ version.toList ≠ [] := by
    intro hnil
    exact hversion (String.toList_eq_nil_iff.mp (List.append_eq_nil_iff.mp hnil).2)
  rw [← extensionOf?_append_iff hstem, ← hsplit, isModule_iff]
  constructor
  · rintro ⟨found, hfound, hextension⟩
    rw [hname] at hfound
    cases hfound
    exact hextension
  · intro hextension
    exact ⟨name, hname, hextension⟩

end Path

/-! ## What a load accepts -/

namespace Watcher

variable {w : Watcher σ ε} {path : Path} {site : Site σ}

theorem exists_carries_of_load (h : ∀ cause, (w.load path site).answer ≠ .error cause) :
    ∃ version, path.carries version w.settings.extension = true := by
  cases htaken : w.taken? site path with
  | none =>
      obtain ⟨cause, hload⟩ := load_of_not_taken htaken
      exact absurd (by rw [hload]; rfl) (h cause)
  | some report => exact ⟨report.version, (taken?_eq_some_iff.mp htaken).2⟩

/-- **A load accepts nothing that is no module by its name.**  For every path, version and
extension, a name that carries the version has the extension exactly if there is no dot in the
extension.  So under an extension without a dot, whatever a load accepts is kept by the scan of any
directory that lists it, and every notice that it is new or has changed leads to a load. -/
theorem accepts_only_modules (w : Watcher σ ε) (path : Path) :
    (∀ version extension, path.carries version extension = true →
      (path.isModule extension = true ↔ '.' ∉ extension.toList))
    ∧ ∀ site, '.' ∉ w.settings.extension.toList →
      (∀ cause, (w.load path site).answer ≠ .error cause) →
      (∀ listed, path ∈ listed → path ∈ w.modulePaths listed)
      ∧ ∀ notice later, notice.fresh? = some path →
        w.heed notice later
          = (w.loadLogged path later).next fun _ after => .pure (.ok ()) after := by
  refine ⟨fun version extension h => Path.isModule_iff_of_carries h, fun site hdot hload => ?_⟩
  obtain ⟨version, hcarries⟩ := exists_carries_of_load hload
  have hmodule := (Path.isModule_iff_of_carries hcarries).mpr hdot
  constructor
  · intro listed hlisted
    exact List.mem_filter.mpr ⟨hlisted, hmodule⟩
  · intro notice later hfresh
    simp only [heed, hfresh, if_pos hmodule]

/-- A version that ends in a dot, an empty extension, and a name that starts with a dot. -/
theorem accepts_only_modules_between_dots :
    let path : Path := ⟨"/d/.x1.."⟩
    let changes : List Change := [.put ⟨"/d"⟩ .directory 0, .deliver path ⟨⟨"1.", []⟩, false⟩ 0]
    let site : Site Nat :=
      ⟨.fresh 0, changes.foldl (fun d change => change.perform d) (.blank 0), []⟩
    let w : Watcher Nat String := ⟨{ directory := ⟨"/d"⟩, extension := "" },
      ⟨Machine.Arch.x64.trampoline, .counting none "", ⟨false, true⟩⟩⟩
    path.carries "1." "" = true ∧ path.isModule "" = true
      ∧ '.' ∉ w.settings.extension.toList
      ∧ (w.load path site).answer = .ok 0
      ∧ path ∈ w.modulePaths [⟨"/d/a.so"⟩, path]
      ∧ w.heed (.created path) site
        = (w.loadLogged path site).next fun _ after => .pure (.ok ()) after := by
  intro path changes site w
  have hcarries : path.carries "1." "" = true := by decide
  have hdot : '.' ∉ w.settings.extension.toList := by decide
  have hload : (w.load path site).answer = .ok 0 := by decide +kernel
  obtain ⟨hmodule, haccepted⟩ := w.accepts_only_modules path
  obtain ⟨hlisted, hnoticed⟩ := haccepted site hdot fun cause h => by
    rw [hload] at h
    cases h
  exact ⟨hcarries, (hmodule "1." "" hcarries).mpr (by decide), hdot, hload,
    hlisted _ (List.mem_cons_of_mem _ (List.mem_singleton_self path)),
    hnoticed (.created path) site rfl⟩

end Watcher
end Hotswap.Delivery
