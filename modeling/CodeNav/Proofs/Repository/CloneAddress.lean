import CodeNav.Proofs.Repository.Segments

/-! # Clone addresses of a single reading

A clone address is written from an account, a domain, a first directory, perhaps a project, and a
repository. Its cuts are many, since the pattern lets names hold slashes and dots. As long as no
segment looks like a mark or ends in a domain, a single one counts, and the parts come back.
-/

namespace CodeNav

namespace Text

theorem trim_append {before text after : List Char} {c d : Char}
    (hbefore : ∀ c ∈ before, isBlank c = true) (hafter : ∀ c ∈ after, isBlank c = true)
    (hhead : text.head? = some c) (hc : isBlank c = false) (hlast : text.getLast? = some d)
    (hd : isBlank d = false) : trim (before ++ text ++ after) = text := by
  have hstart : trimStart (before ++ text ++ after) = text ++ after := by
    obtain ⟨rest, rfl⟩ := List.head?_eq_some_iff.mp hhead
    rw [trimStart, List.append_assoc, List.dropWhile_append_of_pos hbefore, List.cons_append,
      List.dropWhile_cons_of_neg (by simp [hc])]
  have hrest : text.reverse.dropWhile isBlank = text.reverse := by
    obtain ⟨front, rfl⟩ := List.getLast?_eq_some_iff.mp hlast
    rw [List.reverse_append, List.reverse_singleton, List.singleton_append,
      List.dropWhile_cons_of_neg (by simp [hd])]
  rw [trim, hstart, trimEnd, List.reverse_append,
    List.dropWhile_append_of_pos (by simpa using hafter), hrest, List.reverse_reverse]

theorem dropTrailing_append_replicate {c : Char} {text : List Char} (h : c ∉ text) (n : ℕ) :
    dropTrailing c (text ++ List.replicate n c) = text := by
  have htrailing : ∀ d ∈ List.replicate n c, (d == c) = true := by
    simp [List.mem_replicate]
  have hkept : text.reverse.dropWhile (· == c) = text.reverse := by
    rw [List.dropWhile_eq_self_iff]
    intro hlength hc
    have hmem := List.getElem_mem hlength
    rw [beq_iff_eq.mp hc, List.mem_reverse] at hmem
    exact h hmem
  rw [dropTrailing, List.reverse_append, List.reverse_replicate,
    List.dropWhile_append_of_pos htrailing, hkept, List.reverse_reverse]

theorem equalsIgnoringAsciiCase_ofList_iff {a : List Char} {b : String} :
    equalsIgnoringAsciiCase (String.ofList a) b = true ↔
      a.map Char.toLower = b.toList.map Char.toLower := by
  rw [equalsIgnoringAsciiCase, beq_iff_eq, asciiLower, asciiLower, ← String.toList_inj]
  simp only [String.toList_map, String.toList_ofList]

end Text

namespace Repository

open RemoteParts

def EndsInDomain (text : List Char) : Prop :=
  ∃ tail ∈ text.tails, ∃ pattern ∈ domains, Matches ('.' :: pattern.toList) tail

instance : DecidablePred EndsInDomain := fun text =>
  inferInstanceAs (Decidable (∃ tail ∈ text.tails, ∃ pattern ∈ domains, _))

/-- A name that can be taken neither for several segments nor for a mark, nor for the end of an
account. -/
structure IsSegment (text : List Char) : Prop where
  ne_nil : text ≠ []
  chars : ∀ c ∈ text, c ≠ '/' ∧ c ≠ '@' ∧ Text.isBlank c = false
  head?_ne : text.head? ≠ some '_'
  not_endsInDomain : ¬ EndsInDomain text

section

variable {text : List Char}

theorem EndsInDomain.dot_mem (h : EndsInDomain text) : '.' ∈ text := by
  obtain ⟨tail, htail, pattern, -, hmatches⟩ := h
  obtain ⟨c, rest, hc, -, rfl⟩ := List.forall₂_cons_left_iff.mp hmatches
  obtain rfl := eq_of_matchesLetter (by decide) hc
  exact ((List.mem_tails _ _).mp htail).subset List.mem_cons_self

theorem IsSegment.slash_notMem (h : IsSegment text) : '/' ∉ text := fun hc => (h.chars _ hc).1 rfl

theorem IsSegment.at_notMem (h : IsSegment text) : '@' ∉ text := fun hc => (h.chars _ hc).2.1 rfl

theorem IsSegment.line_notMem (h : IsSegment text) : '\n' ∉ text := fun hc =>
  absurd (h.chars _ hc).2.2 (by decide)

theorem IsSegment.not_matches_git (h : IsSegment text) : ¬ Matches "_git".toList text := by
  intro hmatches
  obtain ⟨c, rest, hc, -, rfl⟩ := List.forall₂_cons_left_iff.mp hmatches
  rw [eq_of_matchesLetter (by decide) hc] at h
  exact h.head?_ne rfl

end

inductive PartialMark where
  | full
  | optimized

def PartialMark.text : PartialMark → List Char
  | full => "_full".toList
  | optimized => "_optimized".toList

/-- The parts from which a clone address is written. -/
structure CloneAddress where
  userInfo : Option (List Char)
  account : List Char
  domain : List Char
  first : List Char
  project : Option (List Char)
  mark : Option PartialMark
  name : List Char
  slashes : ℕ

namespace CloneAddress

def text (address : CloneAddress) : List Char :=
  "https://".toList ++ address.userInfo.elim [] (· ++ ['@']) ++
    address.account ++ '.' :: address.domain ++ '/' :: address.first ++
    address.project.elim [] ('/' :: ·) ++ "/_git/".toList ++
    address.mark.elim [] (·.text ++ ['/']) ++ address.name ++ List.replicate address.slashes '/'

structure IsWellFormed (address : CloneAddress) : Prop where
  userInfo : ∀ info ∈ address.userInfo, '/' ∉ info
  account : IsSegment address.account
  domain : ∃ pattern ∈ domains, Matches pattern.toList address.domain
  first : IsSegment address.first
  project : ∀ project ∈ address.project, IsSegment project
  name : IsSegment address.name

/-- The project has the name of the first directory, if no other is given; in the default collection
it has the name of the repository. -/
def projectName (address : CloneAddress) : List Char :=
  match address.project with
  | some project => project
  | none =>
    if address.first.map Char.toLower = "defaultcollection".toList then address.name
    else address.first

/-- The organizations of `dev.azure.com` are in the path, all others in the host. -/
def projectUri (address : CloneAddress) : List Char :=
  if address.account.map Char.toLower = "dev".toList ∧
      address.domain.map Char.toLower = "azure.com".toList then
    "https://dev.azure.com/".toList ++ address.first ++ '/' :: address.projectName
  else "https://".toList ++ address.account ++ '.' :: address.domain ++ '/' :: address.projectName

theorem ofList_projectName (address : CloneAddress) :
    (match address.project with
      | some project => String.ofList project
      | none =>
        if Text.equalsIgnoringAsciiCase (String.ofList address.first) defaultCollection then
          String.ofList address.name
        else String.ofList address.first) = String.ofList address.projectName := by
  have hdefault : defaultCollection.toList.map Char.toLower = "defaultcollection".toList := by
    decide
  simp only [Text.equalsIgnoringAsciiCase_ofList_iff, hdefault, projectName]
  cases address.project with
  | some => rfl
  | none => exact (apply_ite String.ofList _ _ _).symm

theorem ofList_projectUri (address : CloneAddress) :
    (if Text.equalsIgnoringAsciiCase (String.ofList address.account) "dev" &&
        Text.equalsIgnoringAsciiCase (String.ofList address.domain) "azure.com" then
      "https://dev.azure.com/" ++ String.ofList address.first ++ "/" ++
        String.ofList address.projectName
    else
      "https://" ++ String.ofList address.account ++ "." ++ String.ofList address.domain ++ "/" ++
        String.ofList address.projectName) = String.ofList address.projectUri := by
  have hdev : "dev".toList.map Char.toLower = "dev".toList := by decide
  have hazure : "azure.com".toList.map Char.toLower = "azure.com".toList := by decide
  simp only [Bool.and_eq_true, Text.equalsIgnoringAsciiCase_ofList_iff, hdev, hazure, projectUri,
    ← String.toList_inj, String.toList_ofList]
  split
  · simp
  · simp

variable {address : CloneAddress}

def host (address : CloneAddress) : List Char := address.account ++ '.' :: address.domain

def repositorySegments (address : CloneAddress) : List (List Char) :=
  address.mark.toList.map PartialMark.text ++ address.name :: List.replicate address.slashes []

def segments (address : CloneAddress) : List (List Char) :=
  address.first :: (address.project.toList ++ "_git".toList :: address.repositorySegments)

/-- The parts in which the address is cut. The slashes at its end stay with the repository. -/
def parts (address : CloneAddress) : RemoteParts where
  account := address.account
  domain := address.domain
  first := address.first
  project := address.project
  name := address.name ++ List.replicate address.slashes '/'

theorem text_eq (address : CloneAddress) :
    address.text = "https://".toList ++
      (address.userInfo.elim [] (· ++ ['@']) ++ (address.host ++ path address.segments)) := by
  have hgit : "/_git/".toList = '/' :: ("_git".toList ++ ['/']) := by decide
  unfold text host segments repositorySegments
  rw [hgit]
  generalize "https://".toList = scheme, "_git".toList = git
  cases address.project <;> cases address.mark <;>
    simp only [Option.elim_none, Option.elim_some, Option.toList_none, Option.toList_some,
      List.map_nil, List.map_cons, path_cons, path_replicate_nil, List.append_assoc,
      List.cons_append, List.nil_append]

theorem head?_text (address : CloneAddress) : address.text.head? = some 'h' := by
  rw [text_eq]
  rfl

theorem exists_path_repositorySegments_eq (address : CloneAddress) :
    ∃ mark ∈ ["", "_full/", "_optimized/"], path address.repositorySegments =
      '/' :: (mark.toList ++ (address.name ++ List.replicate address.slashes '/')) := by
  rw [repositorySegments, path_append, path_cons, path_replicate_nil]
  rcases address.mark with _ | _ | _
  · exact ⟨"", by decide, rfl⟩
  · exact ⟨"_full/", by decide, rfl⟩
  · exact ⟨"_optimized/", by decide, rfl⟩

theorem eq_of_mem_repositorySegments {s : List Char} (hs : s ∈ address.repositorySegments) :
    s = "_full".toList ∨ s = "_optimized".toList ∨ s = address.name ∨ s = [] := by
  simp only [repositorySegments, List.mem_append, List.mem_map, Option.mem_toList, List.mem_cons,
    List.mem_replicate] at hs
  rcases hs with ⟨_ | _, -, rfl⟩ | rfl | ⟨-, rfl⟩
  · exact .inl rfl
  · exact .inr (.inl rfl)
  · exact .inr (.inr (.inl rfl))
  · exact .inr (.inr (.inr rfl))

namespace IsWellFormed

variable (h : address.IsWellFormed)

include h

theorem count_domain {c : Char} (hc : c ∈ ['.', '/', '@']) :
    address.domain.count c = if c = '.' then 1 else 0 := by
  obtain ⟨pattern, hp, hmatches⟩ := h.domain
  exact RemoteParts.count_domain hp hmatches hc

theorem slash_notMem_host : '/' ∉ address.host := by
  have hdomain : '/' ∉ address.domain := List.count_eq_zero.mp (h.count_domain (by decide))
  simp [host, h.account.slash_notMem, hdomain]

theorem at_notMem_host : '@' ∉ address.host := by
  have hdomain : '@' ∉ address.domain := List.count_eq_zero.mp (h.count_domain (by decide))
  simp [host, h.account.at_notMem, hdomain]

theorem isSegment_or_of_mem {s : List Char} (hs : s ∈ address.segments) :
    IsSegment s ∨ '.' ∉ s ∧ '/' ∉ s := by
  simp only [segments, List.mem_cons, List.mem_append, Option.mem_toList] at hs
  rcases hs with rfl | hproject | rfl | hs
  · exact .inl h.first
  · exact .inl (h.project s hproject)
  · exact .inr (by decide)
  · rcases eq_of_mem_repositorySegments hs with rfl | rfl | rfl | rfl
    · exact .inr (by decide)
    · exact .inr (by decide)
    · exact .inl h.name
    · exact .inr (by decide)

theorem slash_notMem_of_mem {s : List Char} (hs : s ∈ address.segments) : '/' ∉ s := by
  rcases h.isSegment_or_of_mem hs with hsegment | ⟨-, hslash⟩
  · exact hsegment.slash_notMem
  · exact hslash

theorem not_endsInDomain_of_mem {s : List Char} (hs : s ∈ address.segments) : ¬ EndsInDomain s := by
  rcases h.isSegment_or_of_mem hs with hsegment | ⟨hdot, -⟩
  · exact hsegment.not_endsInDomain
  · exact fun hends => hdot hends.dot_mem

theorem not_matches_of_mem {s : List Char} (hs : s ∈ address.repositorySegments) :
    ¬ Matches "_git".toList s := by
  rcases eq_of_mem_repositorySegments hs with rfl | rfl | rfl | rfl
  · decide
  · decide
  · exact h.name.not_matches_git
  · decide

theorem exists_getLast?_text : ∃ c, address.text.getLast? = some c ∧ Text.isBlank c = false := by
  have hne : address.name ++ List.replicate address.slashes '/' ≠ [] := by simp [h.name.ne_nil]
  have hlast : address.text.getLast? =
      (address.name ++ List.replicate address.slashes '/').getLast? := by
    obtain ⟨front, hfront⟩ : ∃ front, address.text =
        front ++ (address.name ++ List.replicate address.slashes '/') :=
      ⟨_, List.append_assoc _ _ _⟩
    rw [hfront, List.getLast?_append_of_ne_nil _ hne]
  have hmem := List.getLast_mem hne
  refine ⟨_, hlast.trans (List.getLast?_eq_some_getLast hne), ?_⟩
  rcases List.mem_append.mp hmem with hname | hslash
  · exact (h.name.chars _ hname).2.2
  · rw [(List.mem_replicate.mp hslash).2]
    rfl

theorem repository?_path :
    repository? (path ("_git".toList :: address.repositorySegments)) =
      some (address.name ++ List.replicate address.slashes '/') := by
  have hline : '\n' ∉ address.name ++ List.replicate address.slashes '/' := by
    simp [h.name.line_notMem, List.mem_replicate]
  have hhead : (address.name ++ List.replicate address.slashes '/').head? ≠ some '_' := by
    rw [List.head?_append_of_ne_nil _ h.name.ne_nil]
    exact h.name.head?_ne
  have hne : address.name ++ List.replicate address.slashes '/' ≠ [] := by simp [h.name.ne_nil]
  obtain ⟨mark, hmem, hmark⟩ := address.exists_path_repositorySegments_eq
  have hpath : path ("_git".toList :: address.repositorySegments) = "/_git/".toList ++
      (mark.toList ++ (address.name ++ List.replicate address.slashes '/')) := by
    rw [path_cons, hmark]
    rfl
  rw [hpath, repository?_append hmem hne hhead hline]

theorem projectAndRepository?_path :
    projectAndRepository? (path (address.project.toList ++
        "_git".toList :: address.repositorySegments)) =
      some (address.project, address.name ++ List.replicate address.slashes '/') := by
  refine RemoteParts.projectAndRepository?_path (fun project hp => ?_) (fun s hs => ?_)
    (fun s hs => h.not_matches_of_mem hs) h.repository?_path
  · have hproject := h.project project hp
    exact ⟨hproject.ne_nil, hproject.slash_notMem, hproject.line_notMem⟩
  · exact h.slash_notMem_of_mem (by simp [segments, hs])

theorem afterAccount?_eq :
    afterAccount? address.account ('.' :: (address.domain ++ path address.segments)) =
      some address.parts := by
  obtain ⟨pattern, hp, hmatches⟩ := h.domain
  have hdot (text : List Char) : dropLiteral? "." ('.' :: text) = some text := rfl
  have hslash (text : List Char) : dropLiteral? "/" ('/' :: text) = some text := rfl
  have hfirst := takeWhile_append_path h.first.slash_notMem
    (address.project.toList ++ "_git".toList :: address.repositorySegments)
  have hrest := dropWhile_append_path h.first.slash_notMem
    (address.project.toList ++ "_git".toList :: address.repositorySegments)
  have hempty : address.first.isEmpty = false := by simp [h.first.ne_nil]
  simp only [afterAccount?, hdot, Option.bind_eq_bind, Option.bind_some]
  refine findSome?_eq_some_of_mem hp ?_ fun other hother' parts hparts => ?_
  · simp only [splitLiteral?_append hmatches, Option.bind_some, segments, path_cons, hslash, hfirst,
      hrest, hempty, h.projectAndRepository?_path]
    rfl
  · -- whichever domain is found, the slash behind it is the first one, so it is the same
    simp only [Option.bind_eq_some_iff, Prod.exists] at hparts
    obtain ⟨domain, text, hsplit, rest, hrest', hparts⟩ := hparts
    obtain ⟨hdomain, hother⟩ := splitLiteral?_eq_some hsplit
    obtain ⟨mark, rfl, hmark⟩ := dropLiteral?_eq_some hrest'
    obtain rfl : mark = ['/'] := hmark.eq_singleton (by decide)
    have hsame := congrArg (List.takeWhile (· ≠ '/')) hdomain
    rw [takeWhile_append_path (slash_notMem_domain hp hmatches), List.singleton_append,
      takeWhile_append_cons, takeWhile_eq_self (slash_notMem_domain hother' hother)] at hsame
    subst hsame
    have hpath := List.append_cancel_left hdomain
    rw [segments, path_cons, List.singleton_append, List.cons.injEq] at hpath
    simp only [← hpath.2, hfirst, hrest, hempty, h.projectAndRepository?_path] at hparts
    exact (Option.some.inj hparts).symm

/-- Of all accounts that can be cut off, only the one before the host's domain has one behind it. -/
theorem eq_account_of_mem_cuts {account after : List Char} {parts : RemoteParts}
    (hcut : (account, after) ∈ cuts (address.host ++ path address.segments))
    (hafter : afterAccount? account after = some parts) : account = address.account := by
  obtain ⟨hsplit, -⟩ := mem_cuts hcut
  obtain ⟨-, rest, rfl, pattern, hp, hmatches⟩ := afterAccount?_eq_some hafter
  have hslash : '/' ∉ '.' :: parts.domain := by
    simp [slash_notMem_domain hp hmatches]
  rw [← List.append_assoc] at hsplit
  rcases suffix_of_append_path_eq h.slash_notMem_host (fun s => h.slash_notMem_of_mem) hslash hsplit
    with hhost | ⟨s, hs, hends⟩
  · -- both domains have one dot, so the dot before them is the same
    have hcount : address.domain.count '.' = parts.domain.count '.' :=
      (h.count_domain (by decide)).trans (RemoteParts.count_domain hp hmatches (by decide)).symm
    exact (eq_of_append_cons_eq_of_count_eq hcount hhost).symm
  · exact absurd ⟨_, (List.mem_tails _ _).mpr hends, pattern, hp, .cons (by decide) hmatches⟩
      (h.not_endsInDomain_of_mem hs)

theorem ofAddress?_eq : ofAddress? ("https://".toList ++ (address.host ++ path address.segments)) =
    some address.parts := by
  have hscheme (text : List Char) :
      dropLiteral? "https://" ("https://".toList ++ text) = some text := rfl
  simp only [ofAddress?, hscheme, Option.bind_eq_bind, Option.bind_some]
  have hhost : address.host ++ path address.segments =
      address.account ++ '.' :: (address.domain ++ path address.segments) := by simp [host]
  have hmem := append_mem_cuts h.account.ne_nil h.account.line_notMem
    ('.' :: (address.domain ++ path address.segments))
  refine findSome?_eq_some_of_mem (hhost ▸ hmem) h.afterAccount?_eq ?_
  rintro ⟨account, after⟩ hcut parts hparts
  obtain rfl := h.eq_account_of_mem_cuts hcut hparts
  obtain ⟨hsplit, -⟩ := mem_cuts hcut
  rw [hhost] at hsplit
  rw [← List.append_cancel_left hsplit, h.afterAccount?_eq, Option.some.injEq] at hparts
  exact hparts.symm

theorem dropUserInfo_text : dropUserInfo address.text =
    "https://".toList ++ (address.host ++ path address.segments) := by
  have htake : (address.host ++ path address.segments).takeWhile (· ≠ '/') = address.host :=
    takeWhile_append_path h.slash_notMem_host _
  rw [text_eq]
  cases hinfo : address.userInfo with
  | none =>
    refine dropUserInfo_eq_self fun _ => ?_
    have hauthority : authority ("https://".toList ++ (address.host ++ path address.segments)) =
        (address.host ++ path address.segments).takeWhile (· ≠ '/') := rfl
    rw [Option.elim_none, List.nil_append, hauthority, htake]
    exact h.at_notMem_host
  | some info =>
    have hslash : '/' ∉ info ++ '@' :: address.host := by
      simp [h.userInfo info hinfo, h.slash_notMem_host]
    have hsplit : info ++ ['@'] ++ (address.host ++ path address.segments) =
        (info ++ '@' :: address.host) ++ path address.segments := by simp
    rw [Option.elim_some, hsplit, dropUserInfo_append, takeWhile_append_path hslash,
      dropWhile_append_path hslash]
    · have hreverse : (info ++ '@' :: address.host).reverse =
          address.host.reverse ++ '@' :: info.reverse := by simp
      rw [hreverse, takeWhile_append_cons, takeWhile_eq_self (by simpa using h.at_notMem_host),
        List.reverse_reverse]
    · rw [takeWhile_append_path hslash]
      simp

end IsWellFormed

end CloneAddress

variable {address : CloneAddress} {before after : List Char}

/-- The parts of a well-formed clone address come back, whatever blanks stand around it. -/
theorem ofRemote?_text (root : String) (h : address.IsWellFormed)
    (hbefore : ∀ c ∈ before, Text.isBlank c = true) (hafter : ∀ c ∈ after, Text.isBlank c = true) :
    ofRemote? root (String.ofList (before ++ address.text ++ after)) =
      some ⟨root, String.ofList address.projectUri, String.ofList address.projectName,
        String.ofList address.name⟩ := by
  obtain ⟨last, hlast, hblank⟩ := h.exists_getLast?_text
  have htrim := Text.trim_append hbefore hafter address.head?_text (by decide) hlast hblank
  have hname : Text.dropTrailing '/' address.parts.name = address.name :=
    Text.dropTrailing_append_replicate h.name.slash_notMem _
  simp only [ofRemote?, String.toList_ofList, htrim, h.dropUserInfo_text, h.ofAddress?_eq,
    Option.bind_eq_bind, Option.bind_some, Option.pure_def, hname, Option.some.injEq,
    Repository.mk.injEq, true_and, and_true]
  refine ⟨?_, address.ofList_projectName⟩
  rw [← address.ofList_projectUri, ← address.ofList_projectName]
  rfl

def organizationAddress : CloneAddress where
  userInfo := some "me:a@b c".toList
  account := "DEV".toList
  domain := "Azure.com".toList
  first := "contoso".toList
  project := some "Tools.net".toList
  mark := some .full
  name := "Widgets".toList
  slashes := 2

theorem ofRemote?_text_organization :
    organizationAddress.IsWellFormed ∧
      ofRemote? "/src"
          "\t https://me:a@b c@DEV.Azure.com/contoso/Tools.net/_git/_full/Widgets//\n" =
        some ⟨"/src", "https://dev.azure.com/contoso/Tools.net", "Tools.net", "Widgets"⟩ := by
  have h : organizationAddress.IsWellFormed :=
    { userInfo := by rintro _ ⟨⟩; decide
      account := ⟨by decide, by simp [organizationAddress, Text.isBlank], by decide, by decide⟩
      domain := ⟨"azure.com", by decide, by decide⟩
      first := ⟨by decide, by simp [organizationAddress, Text.isBlank], by decide, by decide⟩
      project := by
        rintro _ ⟨⟩
        exact ⟨by decide, by simp [Text.isBlank], by decide, by decide⟩
      name := ⟨by decide, by simp [organizationAddress, Text.isBlank], by decide, by decide⟩ }
  have hremote : String.ofList ("\t ".toList ++ organizationAddress.text ++ "\n".toList) =
      "\t https://me:a@b c@DEV.Azure.com/contoso/Tools.net/_git/_full/Widgets//\n" := rfl
  have huri : String.ofList organizationAddress.projectUri =
      "https://dev.azure.com/contoso/Tools.net" := rfl
  have hbefore : ∀ c ∈ "\t ".toList, Text.isBlank c = true := List.all_eq_true.mp rfl
  have hafter : ∀ c ∈ "\n".toList, Text.isBlank c = true := List.all_eq_true.mp rfl
  have hvalue := ofRemote?_text "/src" h hbefore hafter
  rw [hremote, huri] at hvalue
  exact ⟨h, hvalue⟩

end Repository

end CodeNav
