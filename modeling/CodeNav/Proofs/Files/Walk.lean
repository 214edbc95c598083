import CodeNav.Files.Tree
import CodeNav.Proofs.Files.Path

/-! # Paths from two directories

An absolute path leads to the same place from everywhere. A relative path leads to one place from
two directories if it climbs out of all in which these differ, and whatever is joined to it then
does too.
-/

namespace CodeNav.FileTree

variable {tree : FileTree} {path directory : String} {names place : List String}

/-- The tree as it is seen from a directory. -/
def seenFrom (tree : FileTree) (names : List String) : FileTree :=
  { tree with workingDirectory := names }

def start (tree : FileTree) (path : String) : List String :=
  if Path.isAbsolute path then [] else tree.workingDirectory.reverse

def follow (tree : FileTree) (path : String) : Except FileError (List String) :=
  tree.walk (tree.start path) (Path.parts path)

def lastSlash (path : String) : List String :=
  if path.toList.getLast? == some '/' then ["."] else []

theorem walk_append (tree : FileTree) (start first second : List String) :
    tree.walk start (first ++ second) =
      (tree.walk start first).bind fun names => tree.walk names second := by
  induction first generalizing start with
  | nil => rfl
  | cons part first ih =>
    simp only [List.cons_append, walk]
    split
    · split
      · exact ih _
      · split
        · exact ih _
        · exact ih _
    · rfl
    · rfl

theorem locate_eq (tree : FileTree) (hpath : path ≠ "") :
    tree.locate path =
      ((tree.follow path).bind fun names => tree.walk names (lastSlash path)).map List.reverse := by
  have hempty : path.isEmpty = false := by simpa using hpath
  rw [follow, ← walk_append]
  simp only [locate, hempty, start, lastSlash]
  cases tree.walk _ _ <;> rfl

theorem walk_lastSlash (h : tree.walk names (lastSlash path) = .ok place) : place = names := by
  unfold lastSlash at h
  split at h
  · simp only [walk] at h
    split at h
    · simpa using h.symm
    · simp at h
    · simp at h
  · simpa [walk] using h.symm

theorem ne_empty_of_locate (h : tree.locate path = .ok place) : path ≠ "" := by
  rintro rfl
  simp [locate, bind, Except.bind, throw, throwThe, MonadExceptOf.throw] at h

theorem locate_of_find {entry : Entry} (h : tree.find path = .ok (place, entry)) :
    tree.locate path = .ok place := by
  unfold find at h
  cases hlocate : tree.locate path with
  | error cause => simp [hlocate, bind, Except.bind] at h
  | ok found =>
    simp only [hlocate, bind, Except.bind] at h
    split at h
    · simp only [pure, Except.pure, Except.ok.injEq, Prod.mk.injEq] at h
      rw [h.1]
    · simp [throw, throwThe, MonadExceptOf.throw] at h

theorem follow_of_locate (h : tree.locate path = .ok place) :
    tree.follow path = .ok place.reverse := by
  rw [locate_eq tree (ne_empty_of_locate h)] at h
  cases hfollow : tree.follow path with
  | error cause => simp [hfollow, Except.bind, Except.map] at h
  | ok names =>
    rw [hfollow, Except.bind] at h
    cases hslash : tree.walk names (lastSlash path) with
    | error cause => simp [hslash, Except.map] at h
    | ok last =>
      rw [hslash, Except.map, Except.ok.injEq] at h
      rw [← h, List.reverse_reverse, walk_lastSlash hslash]

/-- A walk goes down the names of its parts from above its start. -/
theorem walk_eq_resolve {parts : List String} {ups : Nat} {start downs : List String}
    (h : tree.walk (downs ++ start.drop ups) parts = .ok names) :
    names = (parts.foldl Path.resolveStep (ups, downs)).2 ++
      start.drop (parts.foldl Path.resolveStep (ups, downs)).1 := by
  -- Along the walk, the names are those gone down, and below them what is left of the start.
  induction parts generalizing ups downs with
  | nil => simpa [walk] using h.symm
  | cons part parts ih =>
    rw [List.foldl_cons]
    rw [walk] at h
    split at h
    · by_cases hdot : part = "."
      · rw [if_pos hdot] at h
        rw [hdot, Path.resolveStep_dot]
        exact ih h
      · rw [if_neg hdot] at h
        by_cases hup : part = ".."
        · rw [if_pos hup] at h
          rw [hup]
          cases downs with
          | nil =>
            rw [List.nil_append, List.tail_drop] at h
            rw [Path.resolveStep_up_nil]
            exact ih h
          | cons down downs =>
            rw [Path.resolveStep_up_cons]
            exact ih h
        · rw [if_neg hup] at h
          rw [Path.resolveStep_down _ hdot hup]
          exact ih h
    · simp at h
    · simp at h

theorem eq_of_locate (hpath : Path.isAbsolute path = false) (h : tree.locate path = .ok place) :
    place = tree.workingDirectory.rdrop (Path.climb path) ++ Path.descent path := by
  have hfollow := follow_of_locate h
  simp only [follow, start, hpath, Bool.false_eq_true, if_false] at hfollow
  have hplace : place.reverse =
      (Path.resolve path).2 ++ tree.workingDirectory.reverse.drop (Path.climb path) :=
    walk_eq_resolve hfollow
  rw [← List.reverse_reverse place, hplace, List.reverse_append, List.rdrop_eq_reverse_drop_reverse]
  rfl

theorem walk_seenFrom (tree : FileTree) (names start parts : List String) :
    (tree.seenFrom names).walk start parts = tree.walk start parts := by
  induction parts generalizing start with
  | nil => rfl
  | cons part parts ih => simp only [walk, ih]; rfl

/-- From the given directory, the walk along a path comes to the same end. -/
structure Agrees (tree : FileTree) (names : List String) (path : String) : Prop where
  follow_eq : (tree.seenFrom names).follow path = tree.follow path

theorem agrees_of_isAbsolute (tree : FileTree) (names : List String)
    (hpath : Path.isAbsolute path = true) : tree.Agrees names path where
  follow_eq := by simp only [follow, start, hpath, if_true, walk_seenFrom]

theorem agrees_of_locate (h : tree.locate path = .ok place)
    (hseen : (tree.seenFrom names).locate path = .ok place) : tree.Agrees names path where
  follow_eq := (follow_of_locate hseen).trans (follow_of_locate h).symm

theorem follow_join (tree : FileTree) (hdirectory : directory ≠ "")
    (hpath : Path.isAbsolute path = false) :
    tree.follow (Path.join directory path) =
      (tree.follow directory).bind fun names => tree.walk names (Path.parts path) := by
  rw [follow, start, Path.isAbsolute_join hdirectory hpath, Path.parts_join hdirectory hpath,
    walk_append]
  rfl

theorem Agrees.join (h : tree.Agrees names directory) (hdirectory : directory ≠ "")
    (path : String) : tree.Agrees names (Path.join directory path) := by
  cases hpath : Path.isAbsolute path with
  | true =>
    have hjoin : Path.join directory path = path := by simp [Path.join, hpath]
    rw [hjoin]
    exact tree.agrees_of_isAbsolute names hpath
  | false =>
    constructor
    rw [follow_join _ hdirectory hpath, follow_join _ hdirectory hpath, h.follow_eq]
    simp only [walk_seenFrom]

theorem Agrees.locate_eq (h : tree.Agrees names path) :
    (tree.seenFrom names).locate path = tree.locate path := by
  by_cases hpath : path = ""
  · rw [hpath]
    rfl
  · rw [FileTree.locate_eq _ hpath, FileTree.locate_eq _ hpath, h.follow_eq]
    simp only [walk_seenFrom]

theorem Agrees.find_eq (h : tree.Agrees names path) :
    (tree.seenFrom names).find path = tree.find path := by
  rw [find, find, h.locate_eq]
  rfl

theorem Agrees.exists?_eq (h : tree.Agrees names path) :
    (tree.seenFrom names).exists? path = tree.exists? path := by
  rw [exists?, exists?, h.find_eq]

theorem Agrees.isFile_eq (h : tree.Agrees names path) :
    (tree.seenFrom names).isFile path = tree.isFile path := by
  rw [isFile, isFile, h.find_eq]

theorem Agrees.read_eq (h : tree.Agrees names path) :
    (tree.seenFrom names).read path = tree.read path := by
  rw [read, read, h.find_eq]

/-- A path leads alike from the given directory if it is absolute, or if it leads anywhere and
climbs out of all in which the two directories differ. -/
def LeadsAlike (tree : FileTree) (names : List String) (path : String) : Prop :=
  Path.isAbsolute path = true ∨
    (∃ found, (tree.seenFrom names).locate path = .ok found) ∧
      names.rdrop (Path.climb path) = tree.workingDirectory.rdrop (Path.climb path)

theorem locate_seenFrom_iff (h : tree.locate path = .ok place) :
    (tree.seenFrom names).locate path = .ok place ↔ tree.LeadsAlike names path := by
  unfold LeadsAlike
  cases hpath : Path.isAbsolute path with
  | true => simp [(tree.agrees_of_isAbsolute names hpath).locate_eq, h]
  | false =>
    have hplace := eq_of_locate hpath h
    simp only [Bool.false_eq_true, false_or]
    constructor
    · intro hseen
      have hseenPlace := eq_of_locate hpath hseen
      rw [hplace] at hseenPlace
      exact ⟨⟨place, hseen⟩, (List.append_cancel_right hseenPlace).symm⟩
    · rintro ⟨⟨found, hfound⟩, hrdrop⟩
      have hseenPlace := eq_of_locate hpath hfound
      rw [hfound, hseenPlace, hplace]
      exact congrArg (fun names => Except.ok (names ++ Path.descent path)) hrdrop

/-- A path that only goes down does not lead alike from where it leads to. -/
theorem not_leadsAlike_of_climb_eq_zero (h : tree.locate path = .ok place)
    (hpath : Path.isAbsolute path = false) (hclimb : Path.climb path = 0)
    (hdescent : Path.descent path ≠ []) : ¬ tree.LeadsAlike place path := by
  have hplace := eq_of_locate hpath h
  rw [hclimb, List.rdrop_zero] at hplace
  rintro (habsolute | ⟨-, hsame⟩)
  · simp [hpath] at habsolute
  · rw [hclimb, List.rdrop_zero, List.rdrop_zero, hplace] at hsame
    exact hdescent (List.append_right_eq_self.mp hsame)

end CodeNav.FileTree
