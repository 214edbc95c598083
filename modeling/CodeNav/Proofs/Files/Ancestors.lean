import Mathlib.Data.List.Induction
import CodeNav.Proofs.Files.Path

/-! # Ancestors of a path by its text

The ancestors of a path are found in its text. They lead to the places along the parts of the path,
which need not enclose the place at its end.
-/

namespace CodeNav.Path

variable {path candidate : String} {text part : List Char} {texts body : List (List Char)}

/-- The parts of a path among the texts between its slashes. -/
def named (texts : List (List Char)) : List String := (texts.filter (· ≠ [])).map String.ofList

theorem parts_eq (path : String) : parts path = named (split path.toList) := rfl

theorem named_append (texts others : List (List Char)) :
    named (texts ++ others) = named texts ++ named others := by
  simp [named]

theorem named_cons (h : part ≠ []) (texts : List (List Char)) :
    named (part :: texts) = String.ofList part :: named texts := by
  simp [named, h]

theorem named_prefix (h : texts <+: body) : named texts <+: named body := by
  obtain ⟨rest, rfl⟩ := h
  exact ⟨named rest, (named_append texts rest).symm⟩

theorem slash_not_mem_of_mem_split (h : part ∈ split text) : '/' ∉ part := by
  induction text generalizing part with
  | nil => simp_all [split]
  | cons c text ih =>
    rw [split] at h
    split at h
    · rcases List.mem_cons.mp h with rfl | hpart
      · exact List.not_mem_nil
      · exact ih hpart
    · next hc =>
      split at h
      · simpa [List.mem_singleton.mp h] using Ne.symm hc
      · next first rest hsplit =>
        rcases List.mem_cons.mp h with rfl | hpart
        · have hfirst : '/' ∉ first := ih (hsplit ▸ List.mem_cons_self)
          simpa [hfirst] using Ne.symm hc
        · exact ih (hsplit ▸ List.mem_cons_of_mem _ hpart)

theorem split_of_slash_not_mem (h : '/' ∉ text) : split text = [text] := by
  induction text with
  | nil => rfl
  | cons c text ih =>
    rw [List.mem_cons, not_or] at h
    rw [split, if_neg (Ne.symm h.1), ih h.2]

theorem joinParts_cons_cons (first second : List Char) (rest : List (List Char)) :
    joinParts (first :: second :: rest) = first ++ '/' :: joinParts (second :: rest) := by
  simp [joinParts, List.intercalate]

theorem split_joinParts (hne : texts ≠ []) (h : ∀ part ∈ texts, '/' ∉ part) :
    split (joinParts texts) = texts := by
  induction texts with
  | nil => exact absurd rfl hne
  | cons first texts ih =>
    obtain ⟨hfirst, hrest⟩ := List.forall_mem_cons.mp h
    cases texts with
    | nil => simpa [joinParts] using split_of_slash_not_mem hfirst
    | cons second rest =>
      rw [joinParts_cons_cons, split_append_slash, split_of_slash_not_mem hfirst,
        ih (List.cons_ne_nil _ _) hrest]
      rfl

theorem named_split_joinParts (h : ∀ part ∈ texts, '/' ∉ part) :
    named (split (joinParts texts)) = named texts := by
  by_cases hne : texts = []
  · subst hne
    rfl
  · rw [split_joinParts hne h]

/-- Where a part leads from a place, whose names are in reverse order. -/
def advance (names : List String) (part : String) : List String :=
  if part = "." then names else if part = ".." then names.tail else part :: names

/-- The places along the parts of a path, the last one first. -/
def visits (names : List String) : List String → List (List String)
  | [] => [names]
  | part :: parts =>
    if part = "." then visits names parts else visits (advance names part) parts ++ [names]

theorem advance_dot (names : List String) : advance names "." = names := rfl

theorem visits_concat (names parts : List String) (part : String) :
    visits names (parts ++ [part]) =
      if part = "." then visits names parts
      else (parts ++ [part]).foldl advance names :: visits names parts := by
  induction parts generalizing names with
  | nil =>
    by_cases hdot : part = "."
    · simp [visits, hdot]
    · simp [visits, hdot]
  | cons next parts ih =>
    rw [List.cons_append, visits, visits]
    by_cases hnext : next = "."
    · rw [if_pos hnext, if_pos hnext, ih, hnext, List.foldl_cons, advance_dot]
    · rw [if_neg hnext, if_neg hnext, ih]
      split <;> rfl

/-- A walk from a place to one below it comes past all that lie between. -/
theorem mem_visits {names between parts : List String} (hfrom : names <:+ between)
    (hto : between <:+ parts.foldl advance names) : between ∈ visits names parts := by
  induction parts using List.reverseRecOn with
  | nil =>
    rw [visits, List.mem_singleton]
    exact hto.eq_of_length_le hfrom.length_le
  | append_singleton parts part ih =>
    rw [visits_concat]
    rw [List.foldl_append, List.foldl_cons, List.foldl_nil] at hto
    by_cases hdot : part = "."
    · rw [if_pos hdot]
      rw [hdot, advance_dot] at hto
      exact ih hto
    · rw [if_neg hdot]
      by_cases hup : part = ".."
      · have htail : between <:+ (parts.foldl advance names).tail := by
          simpa [advance, hup] using hto
        exact List.mem_cons_of_mem _ (ih (htail.trans (List.tail_suffix _)))
      · have hdown : between <:+ part :: parts.foldl advance names := by
          simpa [advance, hdot, hup] using hto
        rcases List.suffix_cons_iff.mp hdown with hend | hbefore
        · rw [hend, List.foldl_append]
          simp [advance, hdot, hup]
        · exact List.mem_cons_of_mem _ (ih hbefore)

theorem suffix_advance {names : List String} {part : String} (hup : part ≠ "..") :
    names <:+ advance names part := by
  unfold advance
  split
  · exact List.suffix_rfl
  · exact List.suffix_cons part names

theorem suffix_foldl_advance {names parts : List String} (hup : ".." ∉ parts) :
    names <:+ parts.foldl advance names := by
  induction parts generalizing names with
  | nil => exact List.suffix_rfl
  | cons part parts ih =>
    rw [List.mem_cons, not_or] at hup
    exact (suffix_advance (Ne.symm hup.1)).trans (ih hup.2)

theorem suffix_of_mem_visits {names place parts : List String} (hup : ".." ∉ parts)
    (h : place ∈ visits names parts) :
    names <:+ place ∧ place <:+ parts.foldl advance names := by
  induction parts generalizing names with
  | nil =>
    rw [visits, List.mem_singleton] at h
    rw [h]
    exact ⟨List.suffix_rfl, List.suffix_rfl⟩
  | cons part parts ih =>
    have hrest := hup
    rw [List.mem_cons, not_or] at hrest
    rw [visits] at h
    split at h
    · next hdot =>
      rw [List.foldl_cons, hdot, advance_dot]
      exact ih hrest.2 h
    · rcases List.mem_append.mp h with hafter | hstart
      · obtain ⟨hfrom, hto⟩ := ih hrest.2 hafter
        exact ⟨(suffix_advance (Ne.symm hrest.1)).trans hfrom, hto⟩
      · rw [List.mem_singleton.mp hstart]
        exact ⟨List.suffix_rfl, suffix_foldl_advance hup⟩

/-- Of two places above the end, the one that the walk leaves last lies below the other. -/
theorem suffix_of_find?_visits {names last other parts : List String} {p : List String → Bool}
    (h : (visits names parts).find? p = some last) (hlast : last <:+ parts.foldl advance names)
    (hother : other <:+ parts.foldl advance names) (hp : p other = true) : other <:+ last := by
  induction parts generalizing names with
  | nil =>
    have hnames : last = names := List.mem_singleton.mp (List.mem_of_find?_eq_some h)
    rwa [hnames]
  | cons part parts ih =>
    by_cases hdot : part = "."
    · rw [visits, if_pos hdot] at h
      rw [List.foldl_cons, hdot, advance_dot] at hlast hother
      exact ih h hlast hother
    · rw [visits, if_neg hdot, List.find?_append] at h
      cases hafter : (visits (advance names part) parts).find? p with
      | some found =>
        rw [hafter, Option.some_or] at h
        exact ih (hafter.trans h) hlast hother
      | none =>
        rw [hafter, Option.none_or] at h
        have hnames : last = names := List.mem_singleton.mp (List.mem_of_find?_eq_some h)
        rcases List.suffix_or_suffix_of_suffix hother hlast with habove | hbelow
        · exact habove
        · have hmem := mem_visits (hnames ▸ hbelow) hother
          rw [visits, if_neg hdot] at hmem
          rcases List.mem_append.mp hmem with hvisited | hstart
          · exact absurd hp (List.find?_eq_none.mp hafter other hvisited)
          · have hsame : other = last := (List.mem_singleton.mp hstart).trans hnames.symm
            exact hsame ▸ List.suffix_rfl

theorem isTrivial_iff : isTrivial part = true ↔ part = [] ∨ part = ['.'] := by
  simp [isTrivial]

theorem dropTrivialEnd_concat (texts : List (List Char)) (part : List Char) :
    dropTrivialEnd (texts ++ [part]) =
      if isTrivial part then dropTrivialEnd texts else texts ++ [part] :=
  List.rdropWhile_concat ..

theorem dropTrivialEnd_prefix_self (texts : List (List Char)) : dropTrivialEnd texts <+: texts :=
  List.rdropWhile_prefix isTrivial texts

theorem foldl_advance_named_concat (h : isTrivial part = true) (names : List String)
    (texts : List (List Char)) :
    (named (texts ++ [part])).foldl advance names = (named texts).foldl advance names := by
  rcases isTrivial_iff.mp h with rfl | rfl
  · simp [named]
  · rw [named_append, List.foldl_append]
    rfl

theorem foldl_advance_dropTrivialEnd (names : List String) (texts : List (List Char)) :
    (named (dropTrivialEnd texts)).foldl advance names = (named texts).foldl advance names := by
  induction texts using List.reverseRecOn with
  | nil => rfl
  | append_singleton texts part ih =>
    rw [dropTrivialEnd_concat]
    split
    · next h => rw [ih, foldl_advance_named_concat h]
    · rfl

theorem visits_named_concat (names : List String) (texts : List (List Char)) (part : List Char) :
    visits names (named (texts ++ [part])) =
      if isTrivial part then visits names (named texts)
      else (named (texts ++ [part])).foldl advance names :: visits names (named texts) := by
  by_cases hempty : part = []
  · simp [hempty, named, isTrivial]
  · have hpart : named (texts ++ [part]) = named texts ++ [String.ofList part] := by
      rw [named_append, named_cons hempty]
      rfl
    have htrivial : isTrivial part = true ↔ String.ofList part = "." := by
      rw [isTrivial_iff, or_iff_right hempty]
      exact String.ofList_inj.symm
    simp only [hpart, visits_concat, htrivial]

theorem enclosingParts_concat (texts : List (List Char)) (part : List Char) :
    enclosingParts (texts ++ [part]).reverse =
      if isTrivial part then enclosingParts texts.reverse
      else dropTrivialEnd texts :: enclosingParts texts.reverse := by
  rw [List.reverse_append, List.reverse_singleton, List.singleton_append, enclosingParts,
    List.reverse_reverse]

/-- The enclosing directories, by the text, are the places along the parts. -/
theorem map_enclosingParts (names : List String) (body : List (List Char)) :
    (named body).foldl advance names ::
        (enclosingParts body.reverse).map (fun texts => (named texts).foldl advance names) =
      visits names (named body) := by
  induction body using List.reverseRecOn with
  | nil => rfl
  | append_singleton body part ih =>
    rw [enclosingParts_concat, visits_named_concat]
    split
    · next h => rw [foldl_advance_named_concat h, ih]
    · rw [List.map_cons, foldl_advance_dropTrivialEnd, ih]

theorem prefix_of_mem_enclosingParts (h : texts ∈ enclosingParts body.reverse) :
    texts <+: body := by
  induction body using List.reverseRecOn with
  | nil => simp [enclosingParts] at h
  | append_singleton body part ih =>
    rw [enclosingParts_concat] at h
    have hbody : body <+: body ++ [part] := List.prefix_append ..
    split at h
    · exact (ih h).trans hbody
    · rcases List.mem_cons.mp h with rfl | hrest
      · exact (dropTrivialEnd_prefix_self body).trans hbody
      · exact (ih hrest).trans hbody

theorem ancestors_of_isAbsolute (h : isAbsolute path = true) :
    ∃ body, (∀ part ∈ body, '/' ∉ part) ∧ parts path = named body ∧
      ancestors path = path :: (enclosingParts body.reverse).map fun texts =>
        String.ofList ('/' :: joinParts texts) := by
  have hhead : path.toList.head? = some '/' := by simpa [isAbsolute] using h
  obtain ⟨text, htext⟩ := List.head?_eq_some_iff.mp hhead
  have hsplit : split path.toList = [] :: split text := by rw [htext, split, if_pos rfl]
  have hempty : path.isEmpty = false := by
    refine Bool.eq_false_iff.mpr fun hempty => ?_
    simp [String.isEmpty_iff.mp hempty] at htext
  refine ⟨split text, fun part => slash_not_mem_of_mem_split, ?_, ?_⟩
  · rw [parts_eq, hsplit]
    rfl
  · simp [ancestors, hsplit, hempty]

theorem ancestors_of_not_isAbsolute (h : isAbsolute path = false) (hne : path ≠ "") :
    ∃ first body, first ≠ [] ∧ (∀ part ∈ first :: body, '/' ∉ part) ∧
      parts path = named (first :: body) ∧
      ancestors path = path :: ((enclosingParts body.reverse).map (fun texts =>
        String.ofList (joinParts (first :: texts))) ++ [""]) := by
  obtain ⟨c, text, htext⟩ := List.exists_cons_of_ne_nil (show path.toList ≠ [] by simpa using hne)
  have hc : c ≠ '/' := by
    rintro rfl
    simp [isAbsolute, htext] at h
  obtain ⟨first, body, hrest⟩ := List.exists_cons_of_ne_nil (split_ne_nil text)
  have hsplit : split path.toList = (c :: first) :: body := by
    rw [htext, split, if_neg hc, hrest]
  refine ⟨c :: first, body, List.cons_ne_nil _ _, fun part hpart => ?_, ?_, ?_⟩
  · exact slash_not_mem_of_mem_split (hsplit ▸ hpart)
  · rw [parts_eq, hsplit]
  · simp [ancestors, hsplit]

theorem parts_joinParts (h : ∀ part ∈ texts, '/' ∉ part) :
    parts (String.ofList (joinParts texts)) = named texts := by
  rw [parts_eq, String.toList_ofList, named_split_joinParts h]

theorem parts_slash_joinParts (h : ∀ part ∈ texts, '/' ∉ part) :
    parts (String.ofList ('/' :: joinParts texts)) = named texts := by
  rw [parts_eq, String.toList_ofList, split, if_pos rfl, ← named_split_joinParts h]
  rfl

theorem isAbsolute_joinParts (hne : part ≠ []) (h : '/' ∉ part) (texts : List (List Char)) :
    isAbsolute (String.ofList (joinParts (part :: texts))) = false := by
  obtain ⟨c, rest, rfl⟩ := List.exists_cons_of_ne_nil hne
  have hc : c ≠ '/' := fun hc => h (hc ▸ List.mem_cons_self)
  cases texts with
  | nil => simp [isAbsolute, joinParts, hc]
  | cons second others => simp [isAbsolute, joinParts_cons_cons, hc]

theorem parts_prefix_of_mem_ancestors (hne : path ≠ "") (h : candidate ∈ ancestors path) :
    isAbsolute candidate = isAbsolute path ∧ parts candidate <+: parts path := by
  cases habsolute : isAbsolute path with
  | true =>
    obtain ⟨body, hslash, hparts, hancestors⟩ := ancestors_of_isAbsolute habsolute
    rw [hancestors] at h
    rcases List.mem_cons.mp h with rfl | henclosing
    · exact ⟨habsolute, List.prefix_rfl⟩
    · obtain ⟨texts, htexts, rfl⟩ := List.mem_map.mp henclosing
      have hbefore := prefix_of_mem_enclosingParts htexts
      rw [parts_slash_joinParts fun part hpart => hslash part (hbefore.subset hpart), hparts]
      exact ⟨by simp [isAbsolute], named_prefix hbefore⟩
  | false =>
    obtain ⟨first, body, hfirst, hslash, hparts, hancestors⟩ :=
      ancestors_of_not_isAbsolute habsolute hne
    rw [hancestors] at h
    rcases List.mem_cons.mp h with rfl | henclosing
    · exact ⟨habsolute, List.prefix_rfl⟩
    rcases List.mem_append.mp henclosing with henclosing | hempty
    · obtain ⟨texts, htexts, rfl⟩ := List.mem_map.mp henclosing
      have hbefore : first :: texts <+: first :: body :=
        List.cons_prefix_cons.mpr ⟨rfl, prefix_of_mem_enclosingParts htexts⟩
      rw [parts_joinParts fun part hpart => hslash part (hbefore.subset hpart), hparts]
      exact ⟨isAbsolute_joinParts hfirst (hslash first List.mem_cons_self) texts,
        named_prefix hbefore⟩
    · rw [List.mem_singleton.mp hempty]
      exact ⟨rfl, List.nil_prefix⟩

theorem map_ancestors_of_isAbsolute (h : isAbsolute path = true) (names : List String) :
    (ancestors path).map (fun candidate => (parts candidate).foldl advance names) =
      visits names (parts path) := by
  obtain ⟨body, hslash, hparts, hancestors⟩ := ancestors_of_isAbsolute h
  rw [hancestors, List.map_cons, List.map_map, hparts, ← map_enclosingParts]
  refine congrArg _ (List.map_congr_left fun texts htexts => ?_)
  have hbefore := prefix_of_mem_enclosingParts htexts
  rw [Function.comp_apply,
    parts_slash_joinParts fun part hpart => hslash part (hbefore.subset hpart)]

/-- The ancestors of a relative path end with the working directory, and the one before that may
be written as a dot. -/
theorem map_ancestors_of_not_isAbsolute (h : isAbsolute path = false) (hne : path ≠ "")
    (names : List String) :
    ∃ first others, parts path = first :: others ∧
      (ancestors path).map (fun candidate => (parts candidate).foldl advance names) =
        visits (advance names first) others ++ [names] := by
  obtain ⟨first, body, hfirst, hslash, hparts, hancestors⟩ := ancestors_of_not_isAbsolute h hne
  have hcons := named_cons hfirst
  refine ⟨String.ofList first, named body, hparts.trans (hcons body), ?_⟩
  rw [hancestors, List.map_cons, List.map_append, List.map_map, hparts, hcons, List.foldl_cons,
    ← List.cons_append, ← map_enclosingParts]
  refine congrArg₂ _ (congrArg _ (List.map_congr_left fun texts htexts => ?_)) rfl
  have hbefore : first :: texts <+: first :: body :=
    List.cons_prefix_cons.mpr ⟨rfl, prefix_of_mem_enclosingParts htexts⟩
  rw [Function.comp_apply, parts_joinParts fun part hpart => hslash part (hbefore.subset hpart),
    hcons, List.foldl_cons]

theorem start_mem_visits (names parts : List String) : names ∈ visits names parts := by
  induction parts generalizing names with
  | nil => exact List.mem_singleton_self names
  | cons part parts ih =>
    rw [visits]
    split
    · exact ih names
    · exact List.mem_append_right _ (List.mem_singleton_self names)

theorem find?_map_ancestors (hne : path ≠ "") (names : List String) (p : List String → Bool) :
    ((ancestors path).map fun candidate => (parts candidate).foldl advance names).find? p =
      (visits names (parts path)).find? p := by
  cases habsolute : isAbsolute path with
  | true => rw [map_ancestors_of_isAbsolute habsolute]
  | false =>
    obtain ⟨first, others, hparts, hmap⟩ := map_ancestors_of_not_isAbsolute habsolute hne names
    rw [hmap, hparts, visits]
    split
    · next hdot =>
      -- The working directory stands twice at the end.
      rw [hdot, advance_dot, List.find?_append]
      cases hfind : (visits names others).find? p with
      | some place => rfl
      | none =>
        have hnames := List.find?_eq_none.mp hfind names (start_mem_visits names others)
        simp [hnames]
    · rfl

end CodeNav.Path
