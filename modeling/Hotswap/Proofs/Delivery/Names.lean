import Hotswap.Delivery.Path

/-!
# Names in paths

The name of an entry is one piece of a path that makes a step of its own: it holds no separator,
and it is neither empty nor made of one or two dots (`IsName`).  Every step of a path that goes by a
name goes by such a one, and the path to an entry of a directory ends in the name of the entry.
-/

namespace Hotswap.Delivery

/-! ## Pieces -/

theorem pieces_ne_nil (cs : List Char) : pieces cs ≠ [] := by
  cases cs with
  | nil => nofun
  | cons c cs =>
      rw [pieces]
      split
      · nofun
      · split
        · nofun
        · nofun

theorem pieces_append (cs ds : List Char) :
    pieces (cs ++ '/' :: ds) = pieces cs ++ pieces ds := by
  induction cs with
  | nil => rfl
  | cons c cs ih =>
      rw [List.cons_append, pieces, pieces, ih]
      split
      · rfl
      · cases h : pieces cs with
        | nil => exact absurd h (pieces_ne_nil cs)
        | cons piece rest => rfl

theorem pieces_eq_blank {cs : List Char} (h : pieces cs = [[]]) : cs = [] := by
  cases cs with
  | nil => rfl
  | cons c cs =>
      rw [pieces] at h
      split at h
      · exact absurd (List.cons.inj h).2 (pieces_ne_nil cs)
      · split at h
        · cases h
        · cases h

theorem pieces_of_not_mem {cs : List Char} (h : '/' ∉ cs) : pieces cs = [cs] := by
  induction cs with
  | nil => rfl
  | cons c cs ih =>
      obtain ⟨hc, hcs⟩ := List.ne_and_not_mem_of_not_mem_cons h
      rw [pieces, if_neg (Ne.symm hc), ih hcs]

theorem not_mem_of_mem_pieces {cs piece : List Char} (h : piece ∈ pieces cs) : '/' ∉ piece := by
  induction cs generalizing piece with
  | nil =>
      cases List.mem_singleton.mp h
      exact List.not_mem_nil
  | cons c cs ih =>
      rw [pieces] at h
      split at h
      · rcases List.mem_cons.mp h with rfl | h
        · exact List.not_mem_nil
        · exact ih h
      · rename_i hc
        split at h
        · cases List.mem_singleton.mp h
          exact fun h => hc (List.mem_singleton.mp h).symm
        · rename_i first rest hpieces
          rw [hpieces] at ih
          rcases List.mem_cons.mp h with rfl | h
          · exact List.not_mem_cons_of_ne_of_not_mem (Ne.symm hc) (ih List.mem_cons_self)
          · exact ih (List.mem_cons_of_mem _ h)

/-! ## Names -/

/-- The text can be the name of an entry. -/
structure IsName (name : String) : Prop where
  whole : '/' ∉ name.toList
  step : Component.ofPiece? name.toList = some (.name name)

theorem Component.eq_of_ofPiece? {piece : List Char} {name : String}
    (h : ofPiece? piece = some (.name name)) : name.toList = piece := by
  unfold ofPiece? at h
  split at h
  · cases h
  · cases h
  · cases h
  · cases h
    exact String.toList_ofList

namespace Path

variable {p dir : Path} {name : String}

theorem isName_of_mem_components (h : .name name ∈ p.components) : IsName name := by
  have hstep : .name name ∈ (pieces p.text.toList).filterMap Component.ofPiece? := by
    simp only [components] at h
    split at h
    · simpa using h
    · simpa using h
    · exact h
  obtain ⟨piece, hpiece, hname⟩ := List.mem_filterMap.mp hstep
  have heq := Component.eq_of_ofPiece? hname
  constructor
  · rw [heq]
    exact not_mem_of_mem_pieces hpiece
  · rw [heq]
    exact hname

/-- The step that the first pieces make besides those of all pieces. -/
def lead (all : List (List Char)) : List Component :=
  if all.head? = some [] ∧ 1 < all.length then [.root]
  else if all.head? = some ['.'] then [.here] else []

theorem components_eq (p : Path) :
    p.components = lead (pieces p.text.toList)
      ++ (pieces p.text.toList).filterMap Component.ofPiece? := by
  simp only [components]
  split
  · rename_i h
    simp [lead, h]
  · rename_i h
    simp [lead, h]
  · rename_i hroot hhere
    have hlead : lead (pieces p.text.toList) = [] := by
      cases h : pieces p.text.toList with
      | nil => rfl
      | cons first rest =>
          cases rest with
          | nil =>
              have hdot : first ≠ ['.'] := fun hfirst => hhere [] (by rw [h, hfirst])
              simp [lead, hdot]
          | cons second rest =>
              have hempty : first ≠ [] := fun hfirst => hroot second rest (by rw [h, hfirst])
              have hdot : first ≠ ['.'] := fun hfirst => hhere (second :: rest) (by rw [h, hfirst])
              simp [lead, hempty, hdot]
    rw [hlead, List.nil_append]

/-- Of several pieces the first one decides. -/
theorem lead_eq {all : List (List Char)} (h : all ≠ [[]]) :
    lead all = if all.head? = some [] then [.root]
      else if all.head? = some ['.'] then [.here] else [] := by
  match all with
  | [] => rfl
  | first :: second :: rest => simp [lead]
  | [first] =>
      have hfirst : first ≠ [] := fun hfirst => h (by rw [hfirst])
      simp [lead, hfirst]

theorem lead_concat {before : List (List Char)} (h : before ≠ []) (last : List Char) :
    lead (before ++ [last]) = if before.head? = some [] then [.root]
      else if before.head? = some ['.'] then [.here] else [] := by
  match before with
  | [] => exact absurd rfl h
  | first :: rest =>
      rw [lead_eq (by simp)]
      rfl

/-- The path to an entry of a directory makes the steps to the directory and one more. -/
theorem components_join (hname : IsName name) :
    (dir.join name).components = dir.components ++ [.name name] := by
  have hpieces := pieces_of_not_mem hname.whole
  have hhead : ¬ (name.toList.head? == some '/') = true := by
    rw [beq_iff_eq]
    exact fun h => hname.whole (List.mem_of_head? h)
  have hstep : [name.toList].filterMap Component.ofPiece? = [.name name] := by
    rw [List.filterMap_cons_some hname.step, List.filterMap_nil]
  rw [components_eq, components_eq]
  unfold join
  rw [if_neg hhead]
  split
  · rename_i hplain
    rw [Bool.or_eq_true, beq_iff_eq] at hplain
    rcases hplain with hempty | hslash
    · -- as seen from nowhere, the path is the name
      have hdot : name.toList ≠ ['.'] := by
        intro hdot
        have hnone := hname.step
        rw [hdot] at hnone
        cases hnone
      rw [String.isEmpty_iff.mp hempty, String.empty_append, hpieces, hstep]
      simp [lead, hdot, pieces, Component.ofPiece?]
    · -- the separator is there already
      obtain ⟨cs, hcs⟩ := List.getLast?_eq_some_iff.mp hslash
      have hdir : pieces (cs ++ ['/']) = pieces cs ++ [[]] := pieces_append cs []
      have hjoin : pieces (cs ++ ['/'] ++ name.toList) = pieces cs ++ [name.toList] := by
        rw [List.append_assoc, List.singleton_append, pieces_append, hpieces]
      have hblank : [[]].filterMap Component.ofPiece? = [] := rfl
      rw [String.toList_append, hcs, hdir, hjoin, lead_concat (pieces_ne_nil cs),
        lead_concat (pieces_ne_nil cs), List.filterMap_append, List.filterMap_append, hstep, hblank,
        List.append_nil, List.append_assoc]
  · rename_i hplain
    have htext : pieces dir.text.toList ≠ [[]] := by
      intro hblank
      rw [Bool.or_eq_true, not_or, String.isEmpty_iff] at hplain
      exact hplain.1 (String.toList_eq_nil_iff.mp (pieces_eq_blank hblank))
    have hslash : "/".toList = ['/'] := rfl
    have hjoin : pieces (dir.text ++ "/" ++ name).toList
        = pieces dir.text.toList ++ [name.toList] := by
      rw [String.toList_append, String.toList_append, hslash, List.append_assoc,
        List.singleton_append, pieces_append, hpieces]
    rw [hjoin, lead_concat (pieces_ne_nil _), lead_eq htext, List.filterMap_append, hstep,
      List.append_assoc]

theorem fileName?_join (hname : IsName name) : (dir.join name).fileName? = some name := by
  rw [fileName?, components_join hname, List.getLast?_concat]

end Path
end Hotswap.Delivery
