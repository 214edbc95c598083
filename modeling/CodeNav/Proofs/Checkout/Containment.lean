import CodeNav.Checkout.Scan
import CodeNav.Proofs.Files.Components

/-! # Local paths stay in the checkout

The local path for a path of the index is made step by step: slashes at the start are dropped, the
parts are put together, and a component that is neither a name nor `.` refuses the whole. Whatever
comes out is the root followed by the parts.
-/

namespace CodeNav.Checkout

open CodeNav.Path

variable {root path found : String}

/-- The local path for a path of the index, made from the components of the parts put together. -/
def localPathByComponents? (root path : String) : Option String :=
  let relative := collect (named (split (path.toList.dropWhile (· = '/'))))
  let escapes := (components relative).any fun component =>
    component = .root || component = .parent
  if escapes || relative.isEmpty then none else some (join root relative)

def separator (directory : String) : List Char :=
  if directory.isEmpty || directory.toList.getLast? == some '/' then [] else ['/']

/-- The local path is the root followed by the parts of the path. -/
structure IsContained (root path found : String) : Prop where
  text : found.toList =
    root.toList ++ separator root ++ joinParts ((parts path).map String.toList)
  parts : parts found = parts root ++ parts path
  isAbsolute : isAbsolute found = isAbsolute root
  components : ∃ below, components found = components root ++ below ∧
    ∀ component ∈ below,
      component = .current ∨ ∃ name ∈ Path.parts path, name ≠ ".." ∧ component = .normal name

/-- What the local path for a path of the index is, and when there is none. -/
structure StaysInside (root path : String) : Prop where
  byComponents : localPathByComponents? root path = localPath? root path
  refused : localPath? root path = none ↔ parts path = [] ∨ ".." ∈ parts path
  contained : ∀ found, localPath? root path = some found ↔
    parts path ≠ [] ∧ ".." ∉ parts path ∧ IsContained root path found
  slashes : ∀ longer, Relation.ReflTransGen InsertsSlash path.toList longer →
    localPath? root (String.ofList longer) = localPath? root path

theorem localPath?_of_parts (h : parts path ≠ [] ∧ ".." ∉ parts path) :
    localPath? root path = some (join root (collect (parts path))) := by
  rw [localPath?, collect_parts, if_neg]
  simpa using h

theorem localPath?_eq_none_iff :
    localPath? root path = none ↔ parts path = [] ∨ ".." ∈ parts path := by
  simp [localPath?, ← or_iff_not_imp_left]

theorem escapes_collect_parts_iff :
    ((components (collect (parts path))).any fun component =>
        component = .root || component = .parent) = true ↔ ".." ∈ parts path := by
  have hroot : .root ∉ components (collect (parts path)) := by
    rw [root_mem_components_iff, isAbsolute_collect_parts]
    decide
  have hparent : .parent ∈ components (collect (parts path)) ↔ ".." ∈ parts path := by
    rw [parent_mem_components_iff, parts_collect]
  rw [← hparent, List.any_eq_true]
  constructor
  · rintro ⟨component, hmem, hcomponent⟩
    rcases Bool.or_eq_true_iff.mp hcomponent with h | h
    · exact absurd (of_decide_eq_true h ▸ hmem) hroot
    · exact of_decide_eq_true h ▸ hmem
  · intro hmem
    exact ⟨.parent, hmem, rfl⟩

theorem localPathByComponents?_eq (root path : String) :
    localPathByComponents? root path = localPath? root path := by
  rw [localPathByComponents?, named_split_dropWhile, ← parts_eq]
  by_cases h : parts path = [] ∨ ".." ∈ parts path
  · rw [localPath?_eq_none_iff.mpr h, if_pos]
    rcases h with hempty | hup
    · simp [collect_parts_eq_empty_iff.mpr hempty]
    · rw [escapes_collect_parts_iff.mpr hup, Bool.true_or]
  · rw [not_or] at h
    rw [localPath?_of_parts h, if_neg]
    rw [Bool.or_eq_true, escapes_collect_parts_iff, String.isEmpty_iff, collect_parts_eq_empty_iff]
    exact not_or.mpr h.symm

theorem toList_join_collect_parts (root path : String) :
    (join root (collect (parts path))).toList =
      root.toList ++ separator root ++ joinParts ((parts path).map String.toList) := by
  have hrelative := isAbsolute_collect_parts path
  have htext : (collect (parts path)).toList = joinParts ((parts path).map String.toList) := by
    rw [collect_parts, String.toList_ofList]
  rw [← htext, join, separator, hrelative, Bool.false_or]
  by_cases hempty : root.isEmpty
  · simp [String.isEmpty_iff.mp hempty]
  · by_cases hlast : root.toList.getLast? = some '/'
    · simp [hempty, hlast]
    · simp [hempty, hlast]

theorem parts_join_collect_parts (root path : String) :
    parts (join root (collect (parts path))) = parts root ++ parts path := by
  by_cases hempty : root = ""
  · rw [hempty, empty_join, parts_collect]
    rfl
  · rw [parts_join hempty (isAbsolute_collect_parts path), parts_collect]

theorem isAbsolute_join_collect_parts (root path : String) :
    isAbsolute (join root (collect (parts path))) = isAbsolute root := by
  by_cases hempty : root = ""
  · rw [hempty, empty_join, isAbsolute_collect_parts]
    rfl
  · exact isAbsolute_join hempty (isAbsolute_collect_parts path)

theorem normal_of_component? {part : List Char} {component : Component} (hup : ".." ∉ parts path)
    (hpart : part ∈ split (collect (parts path)).toList)
    (h : component? part = some component) :
    ∃ name ∈ parts path, name ≠ ".." ∧ component = .normal name := by
  have hmem (hne : part ≠ []) : String.ofList part ∈ parts path := by
    rw [← parts_collect path, mem_parts_iff, String.toList_ofList]
    exact ⟨by simpa using hne, hpart⟩
  rcases component?_cases h with hparent | ⟨hne, hnormal⟩
  · have hdots : part = ['.', '.'] := component?_eq_parent_iff.mp (hparent ▸ h)
    subst hdots
    exact absurd (hmem (by decide)) hup
  · refine ⟨_, hmem hne, ?_, hnormal⟩
    intro hdots
    exact hup (hdots ▸ hmem hne)

theorem exists_components_join_collect_parts (root : String) (hup : ".." ∉ parts path) :
    ∃ below, components (join root (collect (parts path))) = components root ++ below ∧
      ∀ component ∈ below,
        component = .current ∨ ∃ name ∈ parts path, name ≠ ".." ∧ component = .normal name := by
  have hrelative := isAbsolute_collect_parts path
  by_cases hempty : root = ""
  · refine ⟨components (collect (parts path)), ?_, ?_⟩
    · rw [hempty, empty_join]
      rfl
    · intro component hcomponent
      rcases components_cases hcomponent with ⟨-, habsolute⟩ | hcurrent | ⟨part, hpart, h⟩
      · exact absurd (hrelative.symm.trans habsolute) (by decide)
      · exact .inl hcurrent
      · exact .inr (normal_of_component? hup hpart h)
  · refine ⟨_, components_join hempty hrelative, ?_⟩
    intro component hcomponent
    obtain ⟨part, hpart, h⟩ := List.mem_filterMap.mp hcomponent
    exact .inr (normal_of_component? hup hpart h)

theorem isContained_join_collect_parts (root : String) (hup : ".." ∉ parts path) :
    IsContained root path (join root (collect (parts path))) where
  text := toList_join_collect_parts root path
  parts := parts_join_collect_parts root path
  isAbsolute := isAbsolute_join_collect_parts root path
  components := exists_components_join_collect_parts root hup

/-- A local path is the root followed by the parts of the path; there is none exactly if there are
no parts or one leads upwards. Further slashes do not count. -/
theorem localPath?_staysInside (root path : String) : StaysInside root path where
  byComponents := localPathByComponents?_eq root path
  refused := localPath?_eq_none_iff
  contained found := by
    constructor
    · intro hfound
      have hparts : parts path ≠ [] ∧ ".." ∉ parts path := by
        rw [← not_or]
        intro hrefused
        simp [localPath?_eq_none_iff.mpr hrefused] at hfound
      rw [localPath?_of_parts hparts] at hfound
      rw [← Option.some_inj.mp hfound]
      exact ⟨hparts.1, hparts.2, isContained_join_collect_parts root hparts.2⟩
    · rintro ⟨hne, hup, hcontained⟩
      rw [localPath?_of_parts ⟨hne, hup⟩, Option.some_inj]
      apply String.toList_injective
      rw [toList_join_collect_parts, hcontained.text]
  slashes longer hlonger := by
    simp only [localPath?, parts_eq_of_insertsSlashes hlonger]

example : localPath? "/repo/" "//src//./Widget.cs/" = some "/repo/src/./Widget.cs" := by
  decide +kernel

end CodeNav.Checkout
