import CodeNav.Proofs.Repository.Authority

/-! # The segments of an address

Behind its host an address goes on in segments, each after a slash. A cut before a slash is a cut
between two segments: only a segment `_git` can stand between a project and a repository, and only a
segment that ends in a domain can end an account.
-/

namespace CodeNav.Repository

variable {segments : List (List Char)} {segment before after host : List Char}

def path (segments : List (List Char)) : List Char := segments.flatMap ('/' :: ·)

@[simp] theorem path_nil : path [] = [] := rfl

@[simp] theorem path_cons (segment : List Char) (segments : List (List Char)) :
    path (segment :: segments) = '/' :: (segment ++ path segments) := rfl

@[simp] theorem path_append (front back : List (List Char)) :
    path (front ++ back) = path front ++ path back := List.flatMap_append

theorem path_replicate_nil (n : ℕ) : path (List.replicate n []) = List.replicate n '/' := by
  induction n with
  | zero => rfl
  | succ n ih => simp [List.replicate_succ, ih]

/-- A path that is cut before a slash is cut between two segments. -/
theorem exists_of_path_eq (hslash : ∀ s ∈ segments, '/' ∉ s)
    (h : path segments = before ++ '/' :: after) :
    ∃ front back, segments = front ++ back ∧ before = path front ∧ '/' :: after = path back := by
  induction segments generalizing before with
  | nil => simp at h
  | cons segment segments ih =>
    cases before with
    | nil => exact ⟨[], segment :: segments, rfl, rfl, h.symm⟩
    | cons c before =>
      obtain ⟨rfl, hrest⟩ := List.cons_eq_cons.mp (path_cons segment segments ▸ h)
      rcases List.append_eq_append_iff.mp hrest with ⟨inner, rfl, hinner⟩ | ⟨inner, rfl, hinner⟩
      · obtain ⟨front, back, rfl, rfl, hback⟩ :=
          ih (fun s hs => hslash s (List.mem_cons_of_mem _ hs)) hinner
        exact ⟨segment :: front, back, rfl, rfl, hback⟩
      · cases inner with
        | nil => exact ⟨[before], segments, by simp, by simp, hinner⟩
        | cons d inner =>
          obtain ⟨rfl, -⟩ := List.cons_eq_cons.mp hinner
          exact absurd (hslash _ List.mem_cons_self) (by simp)

section

variable (hslash : '/' ∉ segment) (segments : List (List Char))

include hslash

theorem takeWhile_append_path : (segment ++ path segments).takeWhile (· ≠ '/') = segment := by
  cases segments with
  | nil => rw [path_nil, List.append_nil, takeWhile_eq_self hslash]
  | cons => rw [path_cons, takeWhile_append_cons, takeWhile_eq_self hslash]

theorem dropWhile_append_path :
    (segment ++ path segments).dropWhile (· ≠ '/') = path segments := by
  have h : (segment ++ path segments).takeWhile (· ≠ '/')
      ++ (segment ++ path segments).dropWhile (· ≠ '/') = segment ++ path segments :=
    List.takeWhile_append_dropWhile
  rw [takeWhile_append_path hslash] at h
  exact List.append_cancel_left h

end

theorem eq_of_append_cons_eq_of_count_eq {c : Char} {before' after' : List Char}
    (hcount : after.count c = after'.count c)
    (h : before ++ c :: after = before' ++ c :: after') :
    before = before' := by
  have hnil {inner rest rest' : List Char} (hrest : rest.count c = rest'.count c)
      (hinner : c :: rest = inner ++ c :: rest') : inner = [] := by
    cases inner with
    | nil => rfl
    | cons d inner =>
      obtain ⟨rfl, rfl⟩ := List.cons_eq_cons.mp hinner
      simp at hrest
      omega
  rcases List.append_eq_append_iff.mp h with ⟨inner, rfl, hinner⟩ | ⟨inner, rfl, hinner⟩
  · simp [hnil hcount hinner]
  · simp [hnil hcount.symm hinner]

/-- A word before a slash stands at the end of the host or at the end of a segment. -/
theorem suffix_of_append_path_eq {word : List Char} (hhost : '/' ∉ host)
    (hslash : ∀ s ∈ segments, '/' ∉ s) (hword : '/' ∉ word)
    (h : host ++ path segments = before ++ word ++ '/' :: after) :
    host = before ++ word ∨ ∃ s ∈ segments, word <:+ s := by
  have hall : ∀ s ∈ host :: segments, '/' ∉ s := List.forall_mem_cons.mpr ⟨hhost, hslash⟩
  have hpath : path (host :: segments) = ('/' :: (before ++ word)) ++ '/' :: after := by
    rw [path_cons, h, List.cons_append]
  obtain ⟨front, back, hsplit, hfront, -⟩ := exists_of_path_eq hall hpath
  rcases List.eq_nil_or_concat front with rfl | ⟨front, last, rfl⟩
  · simp at hfront
  · rw [List.concat_eq_append] at hsplit hfront
    rw [path_append, path_cons, path_nil, List.append_nil, ← List.cons_append] at hfront
    rcases List.append_eq_append_iff.mp hfront with ⟨inner, -, rfl⟩ | ⟨inner, hinner, hlast⟩
    · simp at hword
    · cases inner with
      | nil =>
        rw [List.nil_append] at hlast
        exact absurd (hlast ▸ List.mem_cons_self) hword
      | cons c inner =>
        obtain ⟨rfl, rfl⟩ := List.cons_eq_cons.mp hlast
        cases front with
        | nil =>
          obtain ⟨rfl, -⟩ := List.cons_eq_cons.mp hsplit
          obtain ⟨-, rfl⟩ := List.cons_eq_cons.mp hinner
          exact .inl rfl
        | cons first front =>
          obtain ⟨-, rfl⟩ := List.cons_eq_cons.mp hsplit
          exact .inr ⟨inner ++ word, by simp, List.suffix_append _ _⟩

namespace RemoteParts

/-- If all elements that give a result give the same one, their order does not matter. -/
theorem findSome?_eq_some_of_mem {α β : Type*} {f : α → Option β} {l : List α} {a : α} {b : β}
    (ha : a ∈ l) (hf : f a = some b) (hunique : ∀ x ∈ l, ∀ y, f x = some y → y = b) :
    l.findSome? f = some b := by
  cases hfind : l.findSome? f with
  | none => simp [List.findSome?_eq_none_iff.mp hfind a ha] at hf
  | some y =>
    obtain ⟨x, hx, hy⟩ := List.exists_of_findSome?_eq_some hfind
    rw [hunique x hx y hy]

variable {name : List Char} {mark project : Option (List Char)}

theorem exists_of_repository?_eq_some {text : List Char} (h : repository? text = some name) :
    ∃ git rest, text = '/' :: (git ++ '/' :: rest) ∧ Matches "_git".toList git := by
  simp only [repository?, Option.bind_eq_bind, Option.bind_eq_some_iff] at h
  obtain ⟨rest, hrest, -⟩ := h
  obtain ⟨before, rfl, hbefore⟩ := dropLiteral?_eq_some hrest
  have hpattern : "/_git/".toList = ['/'] ++ ("_git".toList ++ ['/']) := by decide
  rw [hpattern] at hbefore
  obtain ⟨first, inner, rfl, hfirst, hinner⟩ := hbefore.exists_append
  obtain ⟨git, last, rfl, hgit, hlast⟩ := hinner.exists_append
  obtain rfl : first = ['/'] := hfirst.eq_singleton (by decide)
  obtain rfl : last = ['/'] := hlast.eq_singleton (by decide)
  exact ⟨git, rest, by simp, hgit⟩

theorem matches_of_repository?_path (hslash : '/' ∉ segment)
    (h : repository? (path (segment :: segments)) = some name) : Matches "_git".toList segment := by
  obtain ⟨git, rest, hpath, hgit⟩ := exists_of_repository?_eq_some h
  have hgitslash : '/' ∉ git := by
    rw [← List.count_eq_zero, hgit.count_eq (by decide) (by decide) (by decide)]
    decide
  rw [path_cons] at hpath
  obtain ⟨-, hsegment⟩ := List.cons_eq_cons.mp hpath
  have htake := congrArg (List.takeWhile (· ≠ '/')) hsegment
  rw [takeWhile_append_path hslash, takeWhile_append_cons, takeWhile_eq_self hgitslash] at htake
  exact htake ▸ hgit

theorem head?_eq_of_dropLiteral?_eq_some {pattern : String} {c : Char} {text rest : List Char}
    (hc : c.isLower = false) (hpattern : pattern.toList.head? = some c)
    (h : dropLiteral? pattern text = some rest) : text.head? = some c := by
  obtain ⟨before, rfl, hbefore⟩ := dropLiteral?_eq_some h
  obtain ⟨tail, htail⟩ := List.head?_eq_some_iff.mp hpattern
  rw [htail] at hbefore
  obtain ⟨d, inner, hd, -, rfl⟩ := List.forall₂_cons_left_iff.mp hbefore
  rw [eq_of_matchesLetter hc hd]
  rfl

/-- What follows `/_git/` and a mark is the repository, if it cannot be taken for a mark itself. -/
theorem repository?_append {mark : String} {text : List Char}
    (hmark : mark ∈ ["", "_full/", "_optimized/"]) (hne : text ≠ []) (hhead : text.head? ≠ some '_')
    (hline : '\n' ∉ text) : repository? ("/_git/".toList ++ (mark.toList ++ text)) = some text := by
  have hlast : lastName? text = some text := by simp [lastName?, hne, hline]
  have hnone (pattern : String) (hpattern : pattern.toList.head? = some '_') :
      dropLiteral? pattern text = none :=
    Option.eq_none_iff_forall_ne_some.mpr fun rest hrest =>
      hhead (head?_eq_of_dropLiteral?_eq_some (by decide) hpattern hrest)
  have hgit (text : List Char) : dropLiteral? "/_git/" ("/_git/".toList ++ text) = some text := rfl
  simp only [repository?, hgit, Option.bind_eq_bind, Option.bind_some]
  simp only [List.mem_cons, List.not_mem_nil, or_false] at hmark
  rcases hmark with rfl | rfl | rfl
  · have hempty : "".toList ++ text = text := rfl
    rw [hempty, hnone "_full/" rfl, hnone "_optimized/" rfl]
    exact hlast
  · have hfull : dropLiteral? "_full/" ("_full/".toList ++ text) = some text := rfl
    rw [hfull, Option.orElse_some, Option.bind_some, hlast, Option.orElse_some]
  · have hfull : dropLiteral? "_full/" ("_optimized/".toList ++ text) = none := rfl
    have hoptimized : dropLiteral? "_optimized/" ("_optimized/".toList ++ text) = some text := rfl
    rw [hfull, hoptimized, Option.orElse_none, Option.bind_some, hlast, Option.orElse_some]

theorem eq_project_of_append_eq {git : List Char} {front back : List (List Char)}
    (hgit : ∀ s ∈ segments, ¬ Matches "_git".toList s) (hmatches : Matches "_git".toList git)
    (hfront : front ≠ [])
    (h : project.toList ++ "_git".toList :: segments = front ++ git :: back) :
    ∃ p, project = some p ∧ front = [p] ∧ git :: back = "_git".toList :: segments := by
  have hlater (front : List (List Char)) : segments ≠ front ++ git :: back := by
    rintro rfl
    exact hgit git (by simp) hmatches
  obtain ⟨first, front, rfl⟩ := List.exists_cons_of_ne_nil hfront
  cases project with
  | none => exact absurd (List.cons_eq_cons.mp h).2 (hlater front)
  | some p =>
    obtain ⟨rfl, htail⟩ := List.cons_eq_cons.mp h
    cases front with
    | nil => exact ⟨p, rfl, rfl, htail.symm⟩
    | cons second front => exact absurd (List.cons_eq_cons.mp htail).2 (hlater front)

theorem eq_project_of_mem_cuts {rest other : List Char}
    (hslash : ∀ s ∈ project.toList ++ "_git".toList :: segments, '/' ∉ s)
    (hgit : ∀ s ∈ segments, ¬ Matches "_git".toList s)
    (hname : repository? (path ("_git".toList :: segments)) = some name)
    (hrest : path (project.toList ++ "_git".toList :: segments) = '/' :: rest)
    (hcut : (before, after) ∈ cuts rest) (hother : repository? after = some other) :
    project = some before ∧ other = name := by
  obtain ⟨git, tail, hafter, -⟩ := exists_of_repository?_eq_some hother
  obtain ⟨hsplit, hne⟩ := mem_cuts hcut
  rw [hsplit, hafter, ← List.cons_append] at hrest
  obtain ⟨front, back, hsegments, hfront, hback⟩ := exists_of_path_eq hslash hrest
  have hbackne : back ≠ [] := by rintro rfl; simp at hback
  obtain ⟨segment, back, rfl⟩ := List.exists_cons_of_ne_nil hbackne
  have hmem : segment ∈ project.toList ++ "_git".toList :: segments := by
    rw [hsegments]
    exact List.mem_append_right _ List.mem_cons_self
  rw [hafter, hback] at hother
  have hmatches := matches_of_repository?_path (hslash segment hmem) hother
  have hfrontne : front ≠ [] := by rintro rfl; simp at hfront
  obtain ⟨p, rfl, rfl, hsame⟩ := eq_project_of_append_eq hgit hmatches hfrontne hsegments
  rw [hsame, hname, Option.some.injEq] at hother
  simp only [path_cons, path_nil, List.append_nil, List.cons.injEq, true_and] at hfront
  exact ⟨by rw [hfront], hother.symm⟩

theorem projectAndRepository?_slash (rest : List Char) :
    projectAndRepository? ('/' :: rest) =
      ((cuts rest).findSome? fun cut =>
        (repository? cut.2).map fun name => (some cut.1, name)).orElse
        fun _ => (repository? ('/' :: rest)).map fun name => (none, name) :=
  rfl

theorem projectAndRepository?_path (hproject : ∀ p ∈ project, p ≠ [] ∧ '/' ∉ p ∧ '\n' ∉ p)
    (hslash : ∀ s ∈ segments, '/' ∉ s) (hgit : ∀ s ∈ segments, ¬ Matches "_git".toList s)
    (hname : repository? (path ("_git".toList :: segments)) = some name) :
    projectAndRepository? (path (project.toList ++ "_git".toList :: segments)) =
      some (project, name) := by
  have hall : ∀ s ∈ project.toList ++ "_git".toList :: segments, '/' ∉ s := by
    simp only [List.forall_mem_append, List.forall_mem_cons, Option.mem_toList]
    exact ⟨fun p hp => (hproject p hp).2.1, by decide, hslash⟩
  obtain ⟨rest, hrest⟩ :
      ∃ rest, path (project.toList ++ "_git".toList :: segments) = '/' :: rest := by
    cases project <;> exact ⟨_, rfl⟩
  rw [hrest, projectAndRepository?_slash]
  cases project with
  | none =>
    have hnone : ((cuts rest).findSome? fun cut =>
        (repository? cut.2).map fun name => (some cut.1, name)) = none := by
      refine List.findSome?_eq_none_iff.mpr fun cut hcut => ?_
      rw [Option.map_eq_none_iff]
      exact Option.eq_none_iff_forall_ne_some.mpr fun other hother =>
        absurd (eq_project_of_mem_cuts hall hgit hname hrest hcut hother).1 (by simp)
    rw [hnone, ← hrest]
    simp only [Option.toList_none, List.nil_append, hname]
    rfl
  | some p =>
    obtain ⟨hne, -, hline⟩ := hproject p rfl
    have hp : rest = p ++ path ("_git".toList :: segments) := by
      rw [Option.toList_some, List.singleton_append, path_cons p] at hrest
      exact (List.cons_eq_cons.mp hrest).2.symm
    have hsome : ((cuts rest).findSome? fun cut =>
        (repository? cut.2).map fun name => (some cut.1, name)) = some (some p, name) := by
      refine findSome?_eq_some_of_mem (hp ▸ append_mem_cuts hne hline _) ?_ ?_
      · simp only [hname, Option.map_some]
      · intro cut hcut found hfound
        obtain ⟨other, hother, rfl⟩ := Option.map_eq_some_iff.mp hfound
        obtain ⟨hsame, rfl⟩ := eq_project_of_mem_cuts hall hgit hname hrest hcut hother
        rw [hsame]
    rw [hsome]
    rfl

end RemoteParts

end CodeNav.Repository
