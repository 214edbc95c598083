import Mathlib.Logic.Relation
import CodeNav.Proofs.Files.Ancestors

/-! # Components of a path

A path consists of the root, of names, and of the parts `.` and `..`. Names that are put behind each
other one by one are a relative path. A slash that stands at an end of a path or beside another one
does not add a part.
-/

namespace CodeNav.Path

inductive Component where
  | root
  | current
  | parent
  | normal (name : String)
  deriving DecidableEq, Repr

/-- The component that a part makes behind other ones, where `.` makes none. -/
def component? (part : List Char) : Option Component :=
  if isTrivial part then none
  else if part = ['.', '.'] then some .parent
  else some (.normal (String.ofList part))

/-- The components of a path. The part `.` is one at the start of a relative path only. -/
def components (path : String) : List Component :=
  match split path.toList with
  | [] => []
  | first :: rest =>
    (if isAbsolute path then [.root]
      else if first = ['.'] then [.current]
      else (component? first).toList) ++ rest.filterMap component?

/-- Names put behind each other one by one. -/
def collect (names : List String) : String := names.foldl join ""

structure IsName (name : String) : Prop where
  ne_empty : name ≠ ""
  slash_not_mem : '/' ∉ name.toList

/-- The second text has one slash more, at an end or beside another one. -/
inductive InsertsSlash : List Char → List Char → Prop where
  | start (text : List Char) : InsertsSlash text ('/' :: text)
  | stop (text : List Char) : InsertsSlash text (text ++ ['/'])
  | beside (before after : List Char) :
      InsertsSlash (before ++ '/' :: after) (before ++ '/' :: '/' :: after)

variable {directory path name : String} {names : List String} {component : Component}
  {text longer part first : List Char} {rest : List (List Char)}

theorem component?_eq_parent_iff : component? part = some .parent ↔ part = ['.', '.'] := by
  unfold component?
  constructor
  · intro h
    split at h
    · cases h
    · split at h
      · assumption
      · cases h
  · rintro rfl
    rfl

theorem component?_cases (h : component? part = some component) :
    component = .parent ∨ part ≠ [] ∧ component = .normal (String.ofList part) := by
  unfold component? at h
  split at h
  · cases h
  · next htrivial =>
    have hne : part ≠ [] := by
      rintro rfl
      exact htrivial rfl
    split at h
    · exact .inl (Option.some_inj.mp h).symm
    · exact .inr ⟨hne, (Option.some_inj.mp h).symm⟩

theorem mem_parts_iff : name ∈ parts path ↔ name ≠ "" ∧ name.toList ∈ split path.toList := by
  simp only [parts, List.mem_map, List.mem_filter, decide_eq_true_eq]
  constructor
  · rintro ⟨part, ⟨hpart, hne⟩, rfl⟩
    rw [String.toList_ofList]
    exact ⟨by simpa using hne, hpart⟩
  · rintro ⟨hne, hname⟩
    exact ⟨name.toList, ⟨hname, by simpa using hne⟩, String.ofList_toList⟩

theorem isName_of_mem_parts (h : name ∈ parts path) : IsName name := by
  obtain ⟨hne, hmem⟩ := mem_parts_iff.mp h
  exact ⟨hne, slash_not_mem_of_mem_split hmem⟩

theorem components_of_split (h : split path.toList = first :: rest) :
    components path =
      (if isAbsolute path then [.root]
        else if first = ['.'] then [.current]
        else (component? first).toList) ++ rest.filterMap component? := by
  simp only [components, h]

theorem components_cases (h : component ∈ components path) :
    component = .root ∧ isAbsolute path = true ∨ component = .current ∨
      ∃ part ∈ split path.toList, component? part = some component := by
  obtain ⟨first, rest, hsplit⟩ := List.exists_cons_of_ne_nil (split_ne_nil path.toList)
  rw [components_of_split hsplit, List.mem_append] at h
  rw [hsplit]
  rcases h with hfirst | hrest
  · split at hfirst
    · next habsolute => exact .inl ⟨List.mem_singleton.mp hfirst, habsolute⟩
    · split at hfirst
      · exact .inr (.inl (List.mem_singleton.mp hfirst))
      · exact .inr (.inr ⟨first, List.mem_cons_self, Option.mem_toList.mp hfirst⟩)
  · obtain ⟨part, hpart, hcomponent⟩ := List.mem_filterMap.mp hrest
    exact .inr (.inr ⟨part, List.mem_cons_of_mem _ hpart, hcomponent⟩)

theorem head_split_of_isAbsolute (habsolute : isAbsolute path = true)
    (hsplit : split path.toList = first :: rest) : first = [] := by
  unfold isAbsolute at habsolute
  cases htext : path.toList with
  | nil => simp [htext] at habsolute
  | cons c text =>
    have hc : c = '/' := by simpa [htext] using habsolute
    rw [htext, split, if_pos hc] at hsplit
    exact (List.cons.inj hsplit).1.symm

theorem root_mem_components_iff : .root ∈ components path ↔ isAbsolute path = true := by
  obtain ⟨first, rest, hsplit⟩ := List.exists_cons_of_ne_nil (split_ne_nil path.toList)
  constructor
  · intro h
    rcases components_cases h with ⟨-, habsolute⟩ | hcurrent | ⟨part, -, hpart⟩
    · exact habsolute
    · cases hcurrent
    · rcases component?_cases hpart with hparent | ⟨-, hnormal⟩
      · cases hparent
      · cases hnormal
  · intro habsolute
    rw [components_of_split hsplit, if_pos habsolute]
    exact List.mem_cons_self

theorem parent_mem_components_iff : .parent ∈ components path ↔ ".." ∈ parts path := by
  have hparts : ".." ∈ parts path ↔ ['.', '.'] ∈ split path.toList := by
    rw [mem_parts_iff]
    exact and_iff_right (by decide)
  rw [hparts]
  constructor
  · intro h
    rcases components_cases h with ⟨hroot, -⟩ | hcurrent | ⟨part, hpart, hparent⟩
    · cases hroot
    · cases hcurrent
    · rwa [← component?_eq_parent_iff.mp hparent]
  · intro h
    obtain ⟨first, rest, hsplit⟩ := List.exists_cons_of_ne_nil (split_ne_nil path.toList)
    rw [hsplit] at h
    rw [components_of_split hsplit, List.mem_append]
    rcases List.mem_cons.mp h with hfirst | hrest
    · left
      have hrelative : ¬ isAbsolute path = true := by
        intro habsolute
        simp [head_split_of_isAbsolute habsolute hsplit] at hfirst
      rw [if_neg hrelative, ← hfirst, if_neg (by decide)]
      exact List.mem_singleton.mpr rfl
    · exact .inr (List.mem_filterMap.mpr ⟨_, hrest, component?_eq_parent_iff.mpr rfl⟩)

/-- Behind a directory, a relative path adds what its parts make. -/
theorem components_join (hdirectory : directory ≠ "") (hpath : isAbsolute path = false) :
    components (join directory path) =
      components directory ++ (split path.toList).filterMap component? := by
  obtain ⟨text, htext, hends⟩ := exists_toList_join hdirectory hpath
  obtain ⟨first, rest, hsplit⟩ := List.exists_cons_of_ne_nil (split_ne_nil text)
  have hjoin : split (join directory path).toList = first :: (rest ++ split path.toList) := by
    rw [htext, split_append_slash, hsplit, List.cons_append]
  rw [components_of_split hjoin, isAbsolute_join hdirectory hpath, List.filterMap_append,
    ← List.append_assoc]
  congr 1
  rcases hends with h | h
  · rw [components_of_split (h ▸ hsplit)]
  · have hslash : split directory.toList = first :: (rest ++ [[]]) := by
      rw [h, split_append_slash, hsplit]
      rfl
    rw [components_of_split hslash, List.filterMap_append]
    simp [component?, isTrivial]

theorem empty_join (path : String) : join "" path = path := by
  simp [join]

theorem joinParts_cons (first : List Char) (rest : List (List Char)) :
    joinParts (first :: rest) = first ++ rest.flatMap ('/' :: ·) := by
  induction rest generalizing first with
  | nil => simp [joinParts]
  | cons second rest ih => rw [joinParts_cons_cons, ih, List.flatMap_cons, List.cons_append]

theorem getLast?_toList_ne_slash (h : IsName name) : name.toList.getLast? ≠ some '/' :=
  fun hlast => h.slash_not_mem (List.mem_of_getLast? hlast)

theorem toList_join_of_isName (hdirectory : directory ≠ "")
    (hlast : directory.toList.getLast? ≠ some '/') (hname : IsName name) :
    (join directory name).toList = directory.toList ++ '/' :: name.toList := by
  have hrelative : isAbsolute name = false := by
    unfold isAbsolute
    cases htext : name.toList with
    | nil => rfl
    | cons c text =>
      have hc : c ≠ '/' := fun hc => hname.slash_not_mem (htext ▸ hc ▸ List.mem_cons_self)
      simpa using hc
  have hempty : directory.isEmpty = false := by simpa using hdirectory
  simp [join, hrelative, hempty, hlast]

theorem toList_foldl_join (hnames : ∀ name ∈ names, IsName name) (hdirectory : directory ≠ "")
    (hlast : directory.toList.getLast? ≠ some '/') :
    (names.foldl join directory).toList =
      directory.toList ++ (names.map String.toList).flatMap ('/' :: ·) := by
  induction names generalizing directory with
  | nil => simp
  | cons name names ih =>
    obtain ⟨hname, hrest⟩ := List.forall_mem_cons.mp hnames
    have htext := toList_join_of_isName hdirectory hlast hname
    have hend : (join directory name).toList.getLast? = name.toList.getLast? := by
      have hne : name.toList ≠ [] := by simpa using hname.ne_empty
      rw [htext, List.getLast?_append_of_ne_nil _ (List.cons_ne_nil _ _),
        List.getLast?_cons_of_ne_nil hne]
    rw [List.foldl_cons, ih hrest (join_ne_empty hdirectory)
      (hend ▸ getLast?_toList_ne_slash hname), htext]
    simp

theorem collect_eq (hnames : ∀ name ∈ names, IsName name) :
    collect names = String.ofList (joinParts (names.map String.toList)) := by
  apply String.toList_injective
  rw [String.toList_ofList]
  cases names with
  | nil => rfl
  | cons name names =>
    obtain ⟨hname, hrest⟩ := List.forall_mem_cons.mp hnames
    rw [collect, List.foldl_cons, empty_join,
      toList_foldl_join hrest hname.ne_empty (getLast?_toList_ne_slash hname), List.map_cons,
      joinParts_cons]

theorem collect_parts (path : String) :
    collect (parts path) = String.ofList (joinParts ((parts path).map String.toList)) :=
  collect_eq fun _ hname => isName_of_mem_parts hname

theorem parts_collect (path : String) : parts (collect (parts path)) = parts path := by
  have hslash : ∀ part ∈ (parts path).map String.toList, '/' ∉ part :=
    List.forall_mem_map.mpr fun name hname => (isName_of_mem_parts hname).slash_not_mem
  have hne : ∀ part ∈ (parts path).map String.toList, part ≠ [] := by
    refine List.forall_mem_map.mpr fun name hname => ?_
    simpa using (isName_of_mem_parts hname).ne_empty
  rw [collect_parts, parts_joinParts hslash, named, List.filter_eq_self.mpr (by simpa using hne)]
  simp [Function.comp_def]

theorem isAbsolute_collect_parts (path : String) : isAbsolute (collect (parts path)) = false := by
  have hnames : ∀ name ∈ parts path, IsName name := fun _ hname => isName_of_mem_parts hname
  rw [collect_parts]
  cases hparts : parts path with
  | nil => rfl
  | cons name names =>
    have hname : IsName name := hnames name (hparts ▸ List.mem_cons_self)
    exact isAbsolute_joinParts (by simpa using hname.ne_empty) hname.slash_not_mem _

theorem collect_parts_eq_empty_iff : collect (parts path) = "" ↔ parts path = [] := by
  constructor
  · intro h
    rw [← parts_collect path, h]
    rfl
  · intro h
    rw [h]
    rfl

theorem named_split_dropWhile (text : List Char) :
    named (split (text.dropWhile (· = '/'))) = named (split text) := by
  induction text with
  | nil => rfl
  | cons c text ih =>
    by_cases hc : c = '/'
    · rw [List.dropWhile_cons_of_pos (by simpa using hc), ih, hc]
      simp [split, named]
    · rw [List.dropWhile_cons_of_neg (by simpa using hc)]

/-- One more slash makes no further part. -/
theorem InsertsSlash.named_split_eq (h : InsertsSlash text longer) :
    named (split longer) = named (split text) := by
  cases h with
  | start text => simp [split, named]
  | stop text =>
    rw [split_append_slash, named_append]
    simp [split, named]
  | beside before after =>
    rw [split_append_slash, split_append_slash, named_append, named_append]
    simp [split, named]

theorem parts_eq_of_insertsSlashes (h : Relation.ReflTransGen InsertsSlash path.toList longer) :
    parts (String.ofList longer) = parts path := by
  rw [parts_eq, parts_eq, String.toList_ofList]
  induction h with
  | refl => rfl
  | tail _ hstep ih => rw [hstep.named_split_eq, ih]

end CodeNav.Path
