import Mathlib.Data.List.DropRight
import CodeNav.Files.Path

/-! # Relative paths by their text

The text of a relative path says how far it climbs and what it goes down to from there. Joining
paths puts their parts together.
-/

namespace CodeNav.Path

variable {directory path : String}

theorem split_ne_nil (text : List Char) : split text ≠ [] := by
  cases text with
  | nil => simp [split]
  | cons c text =>
    rw [split]
    split
    · simp
    · split <;> simp

theorem split_append_slash (a b : List Char) : split (a ++ '/' :: b) = split a ++ split b := by
  induction a with
  | nil => simp [split]
  | cons c a ih =>
    rw [List.cons_append, split, split, ih]
    by_cases hc : c = '/'
    · simp [hc]
    · obtain ⟨part, parts, hsplit⟩ := List.exists_cons_of_ne_nil (split_ne_nil a)
      simp [hc, hsplit]

theorem exists_toList_join (hdirectory : directory ≠ "") (hpath : isAbsolute path = false) :
    ∃ text, (join directory path).toList = text ++ '/' :: path.toList ∧
      (directory.toList = text ∨ directory.toList = text ++ ['/']) := by
  have hempty : directory.isEmpty = false := by simpa using hdirectory
  by_cases hlast : directory.toList.getLast? = some '/'
  · obtain ⟨text, htext⟩ := List.getLast?_eq_some_iff.mp hlast
    refine ⟨text, ?_, .inr htext⟩
    simp [join, hpath, hempty, htext]
  · refine ⟨directory.toList, ?_, .inl rfl⟩
    simp [join, hpath, hempty, hlast]

theorem join_ne_empty (hdirectory : directory ≠ "") : join directory path ≠ "" := by
  cases hpath : isAbsolute path with
  | true =>
    have hne : path ≠ "" := by
      rintro rfl
      simp [isAbsolute] at hpath
    simpa [join, hpath] using hne
  | false =>
    obtain ⟨text, htext, -⟩ := exists_toList_join hdirectory hpath
    intro h
    simp [h] at htext

theorem parts_join (hdirectory : directory ≠ "") (hpath : isAbsolute path = false) :
    parts (join directory path) = parts directory ++ parts path := by
  obtain ⟨text, htext, hends⟩ := exists_toList_join hdirectory hpath
  have hparts : (split directory.toList).filter (· ≠ []) = (split text).filter (· ≠ []) := by
    rcases hends with h | h
    · rw [h]
    · rw [h, split_append_slash]
      simp [split]
  simp only [parts, htext, split_append_slash, List.filter_append, List.map_append, hparts]

theorem isAbsolute_join (hdirectory : directory ≠ "") (hpath : isAbsolute path = false) :
    isAbsolute (join directory path) = isAbsolute directory := by
  obtain ⟨text, htext, h⟩ := exists_toList_join hdirectory hpath
  have hne : directory.toList ≠ [] := by simpa using hdirectory
  rw [isAbsolute, isAbsolute, htext]
  rcases h with h | h
  · obtain ⟨c, rest, hcons⟩ := List.exists_cons_of_ne_nil hne
    simp [← h, hcons]
  · cases text <;> simp [h]

/-- What a part adds to a number of directories to climb and the names to go down afterwards, the
last one first. -/
def resolveStep (state : Nat × List String) (part : String) : Nat × List String :=
  if part = "." then state
  else if part = ".." then
    match state with
    | (ups, []) => (ups + 1, [])
    | (ups, _ :: downs) => (ups, downs)
  else (state.1, part :: state.2)

section

variable (state : Nat × List String) (ups : Nat) (down : String) (downs : List String)

@[simp] theorem resolveStep_dot : resolveStep state "." = state := rfl

@[simp] theorem resolveStep_up_nil : resolveStep (ups, []) ".." = (ups + 1, []) := rfl

@[simp] theorem resolveStep_up_cons : resolveStep (ups, down :: downs) ".." = (ups, downs) := rfl

theorem resolveStep_down {part : String} (hdot : part ≠ ".") (hup : part ≠ "..") :
    resolveStep state part = (state.1, part :: state.2) := by
  simp [resolveStep, hdot, hup]

end

def resolve (path : String) : Nat × List String := (parts path).foldl resolveStep (0, [])

def climb (path : String) : Nat := (resolve path).1

def descent (path : String) : List String := (resolve path).2.reverse

end CodeNav.Path
