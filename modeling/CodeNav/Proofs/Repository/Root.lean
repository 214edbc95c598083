import Mathlib.Data.List.Find
import CodeNav.Proofs.Files.Ancestors
import CodeNav.Proofs.Files.Walk
import CodeNav.Repository.Detect

/-! # The root of a checkout

The root is searched for along the text of a path, while the checkouts around a directory are those
of the directories that enclose it. The two agree as long as the last checkout that the text comes
past encloses the directory.
-/

namespace CodeNav.FileTree

variable {tree : FileTree} {directory candidate root : String} {place names others : List String}
  {first second : List String}

theorem eq_foldl_advance_of_walk {parts : List String} (h : tree.walk names parts = .ok others) :
    others = parts.foldl Path.advance names := by
  induction parts generalizing names with
  | nil => simpa [walk] using h.symm
  | cons part parts ih =>
    rw [walk] at h
    rw [List.foldl_cons, Path.advance]
    split at h
    · split
      · next hdot => exact ih (by simpa [hdot] using h)
      · next hdot =>
        split
        · next hup => exact ih (by simpa [hdot, hup] using h)
        · next hup => exact ih (by simpa [hdot, hup] using h)
    · simp at h
    · simp at h

theorem walk_prefix_of_walk (h : tree.walk names (first ++ second) = .ok others)
    (hdirectory : tree.entry? others.reverse = some .directory) :
    tree.walk names first = .ok (first.foldl Path.advance names) ∧
      tree.entry? (first.foldl Path.advance names).reverse = some .directory := by
  rw [walk_append] at h
  cases hfirst : tree.walk names first with
  | error cause => simp [hfirst, Except.bind] at h
  | ok between =>
    rw [hfirst, Except.bind] at h
    rw [← eq_foldl_advance_of_walk hfirst]
    refine ⟨rfl, ?_⟩
    cases second with
    | nil =>
      have hsame : others = between := by simpa [walk] using h.symm
      rwa [← hsame]
    | cons part second =>
      rw [walk] at h
      split at h
      · assumption
      · simp at h
      · simp at h

theorem entry?_of_find {entry : Entry} (h : tree.find directory = .ok (place, entry)) :
    tree.entry? place = some entry := by
  have hlocate := locate_of_find h
  unfold find at h
  simp only [hlocate, bind, Except.bind] at h
  split at h
  · next found hfound =>
    simp only [pure, Except.pure, Except.ok.injEq, Prod.mk.injEq, true_and] at h
    rw [hfound, h]
  · simp [throw, throwThe, MonadExceptOf.throw] at h

theorem find_of_walk (hne : candidate ≠ "")
    (h : tree.walk (tree.start candidate) (Path.parts candidate) = .ok names)
    (hdirectory : tree.entry? names.reverse = some .directory) :
    tree.find candidate = .ok (names.reverse, .directory) := by
  have hslash : tree.walk names (lastSlash candidate) = .ok names := by
    unfold lastSlash
    split
    · simp [walk, hdirectory]
    · rfl
  have hlocate : tree.locate candidate = .ok names.reverse := by
    rw [locate_eq tree hne, follow, h, Except.bind, hslash]
    rfl
  simp [find, hlocate, hdirectory, bind, Except.bind, pure, Except.pure]

/-- The empty path, as it stands among the ancestors of a relative one, denotes the working
directory. -/
def Denotes (tree : FileTree) (path : String) (names : List String) : Prop :=
  tree.find (if path = "" then "." else path) = .ok (names, .directory)

theorem Denotes.unique (h : tree.Denotes candidate names) (hother : tree.Denotes candidate others) :
    names = others := by
  have hsame := h.symm.trans hother
  simpa using hsame

theorem denotes_of_walk (h : tree.walk (tree.start candidate) (Path.parts candidate) = .ok names)
    (hdirectory : tree.entry? names.reverse = some .directory) :
    tree.Denotes candidate names.reverse := by
  unfold Denotes
  split
  · next hempty =>
    refine find_of_walk (by decide) ?_ hdirectory
    have hnames : names = tree.workingDirectory.reverse := by
      simpa [hempty, start, Path.isAbsolute, Path.parts, Path.split, walk] using h.symm
    have hstart : tree.start "." = names := hnames.symm
    have hparts : Path.parts "." = ["."] := by decide
    rw [hstart, hparts, walk, hdirectory]
    rfl
  · next hne => exact find_of_walk hne h hdirectory

/-- The ancestors of a path to a directory denote the places along its parts. -/
theorem walk_of_mem_ancestors (h : tree.find directory = .ok (place, .directory))
    (hmem : candidate ∈ Path.ancestors directory) :
    tree.walk (tree.start candidate) (Path.parts candidate) =
        .ok ((Path.parts candidate).foldl Path.advance (tree.start directory)) ∧
      tree.entry? ((Path.parts candidate).foldl Path.advance (tree.start directory)).reverse =
        some .directory := by
  have hfollow := follow_of_locate (locate_of_find h)
  have hplace : tree.entry? place.reverse.reverse = some .directory := by
    rw [List.reverse_reverse]
    exact entry?_of_find h
  obtain ⟨habsolute, rest, hparts⟩ :=
    Path.parts_prefix_of_mem_ancestors (ne_empty_of_locate (locate_of_find h)) hmem
  have hstart : tree.start candidate = tree.start directory := by rw [start, start, habsolute]
  rw [follow, ← hparts] at hfollow
  rw [hstart]
  exact walk_prefix_of_walk hfollow hplace

end CodeNav.FileTree

namespace CodeNav.Repository

open FileTree

variable {tree : FileTree} {directory candidate root : String} {place names other : List String}

def holdsGit (tree : FileTree) (names : List String) : Bool :=
  (tree.entry? (names ++ [".git"])).isSome

/-- The checkout is the innermost of those whose roots enclose the place, itself included. -/
structure IsNearest (tree : FileTree) (place names : List String) : Prop where
  encloses : names <+: place
  git : holdsGit tree names = true
  nearest : ∀ other, other <+: place → holdsGit tree other = true → other <+: names

/-- A root is found if there is a checkout around the place, and then the nearest. -/
def FindsNearest (tree : FileTree) (directory : String) (place : List String) : Prop :=
  match findRoot? tree directory with
  | some root => ∃ names, tree.Denotes root names ∧ IsNearest tree place names
  | none => ∀ names, names <+: place → holdsGit tree names = false

/-- The places that a path comes past, the last one first. -/
def way (tree : FileTree) (path : String) : List (List String) :=
  (Path.visits (tree.start path) (Path.parts path)).map List.reverse

theorem exists?_join_git
    (h : tree.walk (tree.start candidate) (Path.parts candidate) = .ok names)
    (hdirectory : tree.entry? names.reverse = some .directory) :
    tree.exists? (Path.join candidate ".git") = holdsGit tree names.reverse := by
  have hgit : tree.walk names [".git"] = .ok (".git" :: names) := by
    simp [walk, hdirectory]
  have hparts : Path.parts ".git" = [".git"] := by decide
  have hfollow : tree.follow (Path.join candidate ".git") = .ok (".git" :: names) := by
    by_cases hempty : candidate = ""
    · have hnames : tree.start ".git" = names := by
        simpa [hempty, start, Path.isAbsolute, Path.parts, Path.split, walk] using h
      rw [hempty, Path.join, if_pos (by decide), follow, hnames, hparts, hgit]
    · rw [follow_join tree hempty (by decide), follow, h, hparts]
      exact hgit
  have hlast : (Path.join candidate ".git").toList.getLast? = some 't' := by
    unfold Path.join
    split
    · decide
    · split <;> simp
  have hne : Path.join candidate ".git" ≠ "" := by
    intro hempty
    simp [hempty] at hlast
  have hlocate : tree.locate (Path.join candidate ".git") = .ok (names.reverse ++ [".git"]) := by
    rw [locate_eq tree hne, hfollow, lastSlash, hlast]
    simp [Except.bind, Except.map, walk]
  rw [exists?, find, hlocate, holdsGit]
  cases hentry : tree.entry? (names.reverse ++ [".git"]) <;>
    simp [hentry, bind, Except.bind, pure, Except.pure, throw, throwThe, MonadExceptOf.throw]

def placeOf (tree : FileTree) (directory candidate : String) : List String :=
  ((Path.parts candidate).foldl Path.advance (tree.start directory)).reverse

theorem denotes_placeOf (h : tree.find directory = .ok (place, .directory))
    (hmem : candidate ∈ Path.ancestors directory) :
    tree.Denotes candidate (placeOf tree directory candidate) := by
  obtain ⟨hwalk, hdirectory⟩ := walk_of_mem_ancestors h hmem
  exact denotes_of_walk hwalk hdirectory

/-- The root that is found is the last checkout on the way. -/
theorem map_findRoot? (h : tree.find directory = .ok (place, .directory)) :
    (findRoot? tree directory).map (placeOf tree directory) =
      (way tree directory).find? (holdsGit tree) := by
  have hne := ne_empty_of_locate (locate_of_find h)
  have hdirectory : tree.isDirectory directory = true := by rw [isDirectory, h]
  have hgit (candidate : String) (hmem : candidate ∈ Path.ancestors directory) :
      tree.exists? (Path.join candidate ".git") =
        holdsGit tree (placeOf tree directory candidate) := by
    obtain ⟨hwalk, hplace⟩ := walk_of_mem_ancestors h hmem
    exact exists?_join_git hwalk hplace
  rw [findRoot?, if_pos hdirectory, List.find?_congr hgit, way, List.find?_map,
    ← Path.find?_map_ancestors hne, List.find?_map, Option.map_map]
  rfl

theorem reverse_place (h : tree.find directory = .ok (place, .directory)) :
    place.reverse = (Path.parts directory).foldl Path.advance (tree.start directory) :=
  eq_foldl_advance_of_walk (follow_of_locate (locate_of_find h))

theorem mem_way (h : tree.find directory = .ok (place, .directory))
    (hstart : (tree.start directory).reverse <+: names) (hplace : names <+: place) :
    names ∈ way tree directory := by
  refine List.mem_map.mpr ⟨names.reverse, Path.mem_visits ?_ ?_, List.reverse_reverse names⟩
  · rw [← List.reverse_reverse (tree.start directory)]
    exact List.reverse_suffix.mpr hstart
  · rw [← reverse_place h]
    exact List.reverse_suffix.mpr hplace

theorem prefix_of_mem_way (h : tree.find directory = .ok (place, .directory))
    (hup : ".." ∉ Path.parts directory) (hmem : names ∈ way tree directory) :
    (tree.start directory).reverse <+: names ∧ names <+: place := by
  obtain ⟨visited, hvisited, rfl⟩ := List.mem_map.mp hmem
  obtain ⟨hfrom, hto⟩ := Path.suffix_of_mem_visits hup hvisited
  rw [← reverse_place h] at hto
  exact ⟨List.reverse_prefix.mpr hfrom, by simpa using List.reverse_prefix.mpr hto⟩

/-- If the last checkout on the way encloses the place, no other one is nearer. -/
theorem isNearest_of_find?_way (h : tree.find directory = .ok (place, .directory))
    (hfind : (way tree directory).find? (holdsGit tree) = some names) (hplace : names <+: place) :
    IsNearest tree place names where
  encloses := hplace
  git := List.find?_some hfind
  nearest other hother hgit := by
    rw [way, List.find?_map] at hfind
    obtain ⟨last, hlast, rfl⟩ := Option.map_eq_some_iff.mp hfind
    have hto : last <:+ (Path.parts directory).foldl Path.advance (tree.start directory) := by
      rw [← reverse_place h, ← List.reverse_reverse last]
      exact List.reverse_suffix.mpr hplace
    have hfrom : other.reverse <:+
        (Path.parts directory).foldl Path.advance (tree.start directory) := by
      rw [← reverse_place h]
      exact List.reverse_suffix.mpr hother
    have hsuffix := Path.suffix_of_find?_visits hlast hto hfrom (by simpa using hgit)
    rw [← List.reverse_reverse last] at hsuffix
    exact List.reverse_suffix.mp hsuffix

/-- The last checkout on the way to the directory encloses it; if there is none on the way, none
encloses it. -/
def PassesNearest (tree : FileTree) (directory : String) (place : List String) : Prop :=
  match (way tree directory).find? (holdsGit tree) with
  | some names => names <+: place
  | none => ∀ names, names <+: place → holdsGit tree names = false

theorem findsNearest_iff_passesNearest (h : tree.find directory = .ok (place, .directory)) :
    FindsNearest tree directory place ↔ PassesNearest tree directory place := by
  have hway := map_findRoot? h
  unfold FindsNearest PassesNearest
  cases hroot : findRoot? tree directory with
  | none =>
    rw [hroot, Option.map_none] at hway
    rw [← hway]
  | some root =>
    rw [hroot, Option.map_some] at hway
    rw [← hway]
    have hmem : root ∈ Path.ancestors directory := by
      unfold findRoot? at hroot
      split at hroot
      · exact List.mem_of_find?_eq_some hroot
      · simp at hroot
    have hdenotes := denotes_placeOf h hmem
    constructor
    · rintro ⟨names, hnames, hnearest⟩
      rw [hdenotes.unique hnames]
      exact hnearest.encloses
    · intro hplace
      exact ⟨_, hdenotes, isNearest_of_find?_way h hway.symm hplace⟩

theorem passesNearest_of_isAbsolute (h : tree.find directory = .ok (place, .directory))
    (habsolute : Path.isAbsolute directory = true) (hup : ".." ∉ Path.parts directory) :
    PassesNearest tree directory place := by
  have hstart : (tree.start directory).reverse = [] := by rw [start, if_pos habsolute]; rfl
  unfold PassesNearest
  split
  · next names hfind => exact (prefix_of_mem_way h hup (List.mem_of_find?_eq_some hfind)).2
  · next hfind =>
    intro names hplace
    have hmem := mem_way h (hstart ▸ List.nil_prefix) hplace
    simpa using List.find?_eq_none.mp hfind names hmem

def IsBelowWorkingDirectory (tree : FileTree) (place : List String) : Prop :=
  ∀ names, names <+: place → holdsGit tree names = true →
    ∃ below, tree.workingDirectory <+: below ∧ below <+: place ∧ holdsGit tree below = true

/-- A relative path that only goes down comes past what encloses its end up to the working
directory, and no further. -/
theorem findsNearest_iff_isBelow (h : tree.find directory = .ok (place, .directory))
    (habsolute : Path.isAbsolute directory = false) (hup : ".." ∉ Path.parts directory) :
    FindsNearest tree directory place ↔ IsBelowWorkingDirectory tree place := by
  have hstart : (tree.start directory).reverse = tree.workingDirectory := by
    simp [start, habsolute]
  rw [findsNearest_iff_passesNearest h]
  constructor
  · intro hpasses names hplace hgit
    unfold PassesNearest at hpasses
    split at hpasses
    · next last hfind =>
      obtain ⟨hfrom, hto⟩ := prefix_of_mem_way h hup (List.mem_of_find?_eq_some hfind)
      exact ⟨last, hstart ▸ hfrom, hto, List.find?_some hfind⟩
    · simp [hpasses names hplace] at hgit
  · intro hbelow
    unfold PassesNearest
    split
    · next last hfind => exact (prefix_of_mem_way h hup (List.mem_of_find?_eq_some hfind)).2
    · next hfind =>
      intro names hplace
      refine Bool.eq_false_iff.mpr fun hgit => ?_
      obtain ⟨below, hfrom, hto, hheld⟩ := hbelow names hplace hgit
      exact List.find?_eq_none.mp hfind below (mem_way h (hstart ▸ hfrom) hto) hheld

/-- The nearest checkout is found exactly if the last one that the text of the path comes past
encloses the directory. From the root, without a step upwards, it always does; from the working
directory, unless the checkout reaches above that. -/
theorem findsNearest_iff (h : tree.find directory = .ok (place, .directory)) :
    (FindsNearest tree directory place ↔ PassesNearest tree directory place) ∧
      (".." ∉ Path.parts directory →
        if Path.isAbsolute directory then FindsNearest tree directory place
        else (FindsNearest tree directory place ↔ IsBelowWorkingDirectory tree place)) := by
  refine ⟨findsNearest_iff_passesNearest h, fun hup => ?_⟩
  split
  · next habsolute =>
    exact (findsNearest_iff_passesNearest h).mpr (passesNearest_of_isAbsolute h habsolute hup)
  · next habsolute =>
    exact findsNearest_iff_isBelow h (Bool.eq_false_iff.mpr habsolute) hup

/-- A checkout with the directories `a` and `b/c`, of which `b` is a checkout as well. -/
def nested : FileTree where
  entries := [(["r"], .directory), (["r", ".git"], .directory), (["r", "a"], .directory),
    (["r", "b"], .directory), (["r", "b", ".git"], .file []), (["r", "b", "c"], .directory)]
  workingDirectory := ["r"]

theorem findsNearest_iff_nested :
    nested.find "a/.././b/c" = .ok (["r", "b", "c"], .directory) ∧
      FindsNearest nested "a/.././b/c" ["r", "b", "c"] := by
  have hfind : nested.find "a/.././b/c" = .ok (["r", "b", "c"], .directory) := rfl
  have hway : (way nested "a/.././b/c").find? (holdsGit nested) = some ["r", "b"] := rfl
  refine ⟨hfind, (findsNearest_iff hfind).1.mpr ?_⟩
  rw [PassesNearest, hway]
  decide

def nestedBelow : FileTree := nested.seenFrom ["r", "a"]

/-- Below the root of a checkout, a dot finds none; and a path that leaves a checkout again finds
that one. -/
theorem not_findsNearest :
    (nestedBelow.find "." = .ok (["r", "a"], .directory) ∧
        ¬ FindsNearest nestedBelow "." ["r", "a"]) ∧
      nestedBelow.find "/r/.." = .ok ([], .directory) ∧
        ¬ FindsNearest nestedBelow "/r/.." [] := by
  refine ⟨⟨rfl, fun hfinds => ?_⟩, rfl, fun hfinds => ?_⟩
  · have hroot : findRoot? nestedBelow "." = none := rfl
    rw [FindsNearest, hroot] at hfinds
    exact absurd (hfinds ["r"] (by decide)) (by decide)
  · have hroot : findRoot? nestedBelow "/r/.." = some "/r" := rfl
    rw [FindsNearest, hroot] at hfinds
    obtain ⟨names, hdenotes, hnearest⟩ := hfinds
    have hnames : nestedBelow.Denotes "/r" ["r"] := rfl
    rw [← hnames.unique hdenotes] at hnearest
    exact absurd hnearest.encloses (by decide)

end CodeNav.Repository
