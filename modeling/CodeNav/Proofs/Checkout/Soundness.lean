import Mathlib
import CodeNav.Proofs.Checkout.Groups
import CodeNav.Proofs.Criterion
import CodeNav.Proofs.Placement.Scan

/-! # Soundness of a scan

Every symbol of a scan names a line of an existing file below the root, and marks a part of that
line that the query selects. A file has no more symbols than hits.
-/

namespace CodeNav

theorem FileTree.read_eq_ok_iff {tree : FileTree} {path : String} {bytes : List UInt8} :
    tree.read path = .ok bytes ↔ ∃ names, tree.find path = .ok (names, .file bytes) := by
  unfold FileTree.read
  cases hf : tree.find path with
  | error cause => simp [bind, Except.bind]
  | ok found =>
    obtain ⟨names, entry⟩ := found
    cases entry <;> simp [bind, Except.bind, pure, Except.pure, throw, throwThe,
      MonadExceptOf.throw]

namespace Checkout

/-- The part of a line between two pieces of it, as a symbol marks it for a query. -/
structure Marks (query : Query) (line before inside after : List Char) (symbol : Symbol) :
    Prop where
  line_eq : line = before ++ inside ++ after
  startColumn_eq : symbol.startColumn = Text.units before
  endColumn_eq : symbol.endColumn = Text.units (before ++ inside)
  startColumn_le : symbol.startColumn ≤ symbol.endColumn
  endColumn_le : symbol.endColumn ≤ Text.units line
  startColumn_lt : symbol.startColumn < Text.units line
  inside_eq : query.exact = true → inside = query.filter.toList
  prefix_inside : query.exact = false →
    query.filter.toList.flatMap Text.lower <+: inside.flatMap Text.lower
  text_definition : query.kind = .definitions → symbol.text = String.ofList inside
  text_reference : query.kind = .references → symbol.text = String.ofList (Text.trim line)

/-- A symbol names a line of a file that some hit leads to, and marks a part of it that is no line
comment. -/
def IsSound (tree : FileTree) (root : String) (query : Query) (hits : List Hit)
    (symbol : Symbol) : Prop :=
  ∃ hit ∈ hits, ∃ names bytes line before inside after,
    ".." ∉ Path.parts hit.path ∧
    symbol.path = Path.join root
      (String.ofList (Path.joinParts ((Path.parts hit.path).map String.toList))) ∧
    tree.find symbol.path = .ok (names, .file bytes) ∧
    symbol.endLine = symbol.startLine ∧
    (Text.lines (Text.Utf8.lenient bytes))[symbol.startLine]? = some line ∧
    ¬ Text.commentMarker <+: Text.trim line ∧
    Marks query line before inside after symbol

theorem localPath?_eq_some_iff {root path result : String} :
    localPath? root path = some result ↔
      Path.parts path ≠ [] ∧ ".." ∉ Path.parts path ∧
      result = Path.join root
        (String.ofList (Path.joinParts ((Path.parts path).map String.toList))) := by
  simp only [localPath?]
  split
  · rename_i h
    simp only [Bool.or_eq_true, List.isEmpty_iff, List.contains_iff_mem] at h
    simp only [reduceCtorEq, false_iff, not_and]
    intro hn hd
    exact absurd h (not_or.mpr ⟨hn, hd⟩)
  · rename_i h
    simp only [Bool.or_eq_true, List.isEmpty_iff, List.contains_iff_mem, not_or] at h
    simp only [Option.some.injEq, h, not_false_eq_true, ne_eq, true_and]
    exact eq_comm

theorem exists_marks_of_isPlaceOf {endings : List LineEnding} {query : Query} {path : String}
    {lines : List (List Char)} {hit : Hit} {symbol : Symbol}
    (h : Placement.IsPlaceOf endings query.criterion path lines hit symbol) :
    symbol.path = path ∧ symbol.endLine = symbol.startLine ∧
    ∃ line before inside after, lines[symbol.startLine]? = some line ∧
      ¬ Text.commentMarker <+: Text.trim line ∧
      Marks query line before inside after symbol := by
  obtain ⟨k, _, ending, _, accepted, -, ⟨line, hl, hle, hlt, ha⟩, -, -, rfl⟩ := h
  obtain ⟨hc, -, before, inside, after, hline, hb, hi, hf, rfl⟩ :=
    Criterion.accept_eq_some_iff.mp ha
  rw [Criterion.fits_iff] at hf
  refine ⟨rfl, rfl, line, before, inside, after, hl, hc, hline, hb.symm, hi.symm, ?_, ?_, ?_,
    hf.1, hf.2, ?_, ?_⟩
  · simp only [Placement.symbolOf, Symbol.onLine]
    omega
  · exact min_le_right _ _
  · simp only [Placement.symbolOf, Symbol.onLine]
    omega
  · intro hk
    simp [Placement.symbolOf, Symbol.onLine, Criterion.shown, Query.criterion, hk,
      Query.Kind.isReferences]
  · intro hk
    simp [Placement.symbolOf, Symbol.onLine, Criterion.shown, Query.criterion, hk,
      Query.Kind.isReferences]

namespace Scanner

variable {scanner : Scanner} {tree : FileTree} {group : Group}

theorem collect_eq_ok_iff {outcomes : List (Except ScanError (Option (List Symbol)))}
    {symbols : List Symbol} :
    collect outcomes = .ok symbols ↔
      ∃ lists : List (Option (List Symbol)), lists.map .ok = outcomes ∧
        symbols = lists.flatMap (·.getD []) := by
  induction outcomes generalizing symbols with
  | nil => simp [collect]
  | cons outcome outcomes ih =>
    simp only [List.map_eq_cons_iff]
    cases outcome with
    | error cause => simp [collect, bind, Except.bind]
    | ok first =>
      simp only [collect, bind, Except.bind, pure, Except.pure]
      constructor
      · intro h
        cases hc : collect outcomes with
        | error cause => simp [hc] at h
        | ok rest =>
          obtain ⟨lists, hl, rfl⟩ := ih.mp hc
          simp only [hc, Except.ok.injEq] at h
          exact ⟨first :: lists, ⟨first, lists, rfl, rfl, hl⟩, h.symm⟩
      · rintro ⟨_, ⟨a, lists, rfl, ha, hl⟩, rfl⟩
        obtain rfl : a = first := Except.ok.inj ha
        rw [ih.mpr ⟨lists, hl, rfl⟩]
        rfl

theorem scanGroup_eq_ok_some {symbols : List Symbol}
    (h : scanner.scanGroup tree group = .ok (some symbols)) :
    ∃ path bytes, localPath? scanner.root group.path = some path ∧
      tree.read path = .ok bytes ∧
      symbols = (Placement.ofText scanner.endings scanner.criterion path group.hits
        (Text.Utf8.lenient bytes)).symbols := by
  unfold scanGroup at h
  split at h
  · simp at h
  · rename_i path hp
    split at h
    · split at h
      · rename_i bytes hb
        exact ⟨path, bytes, hp, hb, (Option.some.inj (Except.ok.inj h)).symm⟩
      · simp at h
      · simp at h
    · simp at h

/-- The symbols that a scan finds in the file of a group. -/
def found (scanner : Scanner) (tree : FileTree) (group : Group) : List Symbol :=
  match scanner.scanGroup tree group with
  | .ok (some symbols) => symbols
  | _ => []

theorem symbols_of_scan {isCancelled : Group → Bool} {groups : List Group}
    {symbols : List Symbol} (h : scanner.scan tree isCancelled groups = .ok symbols) :
    symbols = groups.flatMap (scanner.found tree) := by
  obtain ⟨lists, hl, rfl⟩ := collect_eq_ok_iff.mp h
  clear h
  induction groups generalizing lists with
  | nil =>
    obtain rfl := List.map_eq_nil_iff.mp hl
    rfl
  | cons group groups ih =>
    obtain ⟨first, rest, rfl, hf, hr⟩ := List.map_eq_cons_iff.mp hl
    rw [List.flatMap_cons, List.flatMap_cons, ih rest hr]
    congr 1
    dsimp only at hf
    split at hf
    · simp at hf
    · rw [found, ← hf]
      cases first <;> rfl

theorem found_of_mem {symbol : Symbol} (h : symbol ∈ scanner.found tree group) :
    ∃ path bytes, localPath? scanner.root group.path = some path ∧
      tree.read path = .ok bytes ∧
      scanner.found tree group = (Placement.ofText scanner.endings scanner.criterion path
        group.hits (Text.Utf8.lenient bytes)).symbols := by
  unfold found at h ⊢
  split at h
  · rename_i symbols hs
    exact scanGroup_eq_ok_some hs
  · simp at h

variable {endings : List LineEnding} {query : Query} {root : String}

/-- Every symbol in the file of a group is sound for the hits of the group. -/
theorem isSound_of_mem_found {symbol : Symbol}
    (hp : ∀ hit ∈ group.hits, hit.path = group.path)
    (h : symbol ∈ found ⟨root, endings, query.criterion⟩ tree group) :
    IsSound tree root query group.hits symbol := by
  obtain ⟨path, bytes, hlocal, hread, hfound⟩ := found_of_mem h
  rw [hfound] at h
  obtain ⟨hit, hh, hplace⟩ := Placement.exists_isPlaceOf_of_mem h
  obtain ⟨rfl, hend, line, before, inside, after, hline, hcomment, hmarks⟩ :=
    exists_marks_of_isPlaceOf hplace
  obtain ⟨names, hfind⟩ := FileTree.read_eq_ok_iff.mp hread
  obtain ⟨-, hdots, hjoin⟩ := localPath?_eq_some_iff.mp hlocal
  rw [← hp hit hh] at hdots hjoin
  exact ⟨hit, hh, names, bytes, line, before, inside, after, hdots, hjoin, hfind, hend, hline,
    hcomment, hmarks⟩

theorem countP_found_le (isOf : String → Bool)
    (hp : ∀ hit ∈ group.hits, hit.path = group.path) :
    (scanner.found tree group).countP (isOf ·.path) ≤
      group.hits.countP fun hit => (localPath? scanner.root hit.path).any isOf := by
  by_cases hcount : (scanner.found tree group).countP (isOf ·.path) = 0
  · omega
  · obtain ⟨symbol, hs, hof⟩ := List.countP_pos_iff.mp (Nat.pos_of_ne_zero hcount)
    obtain ⟨path, bytes, hlocal, -, hfound⟩ := found_of_mem hs
    have hpath : symbol.path = path := by
      rw [hfound] at hs
      obtain ⟨hit, -, k, _, _, _, _, -, -, -, -, rfl⟩ := Placement.exists_isPlaceOf_of_mem hs
      rfl
    have hall : ∀ hit ∈ group.hits, (localPath? scanner.root hit.path).any isOf = true := by
      intro hit hh
      rw [hp hit hh, hlocal, Option.any_some, ← hpath]
      exact hof
    rw [List.countP_eq_length.mpr hall]
    calc (scanner.found tree group).countP (isOf ·.path)
        ≤ (scanner.found tree group).length := List.countP_le_length
      _ ≤ group.hits.length := by
          rw [hfound]
          exact Placement.length_symbols_ofLines_le _

end Scanner

theorem IsSound.mono {tree : FileTree} {root : String} {query : Query} {hits hits' : List Hit}
    {symbol : Symbol} (hsub : ∀ hit ∈ hits, hit ∈ hits')
    (h : IsSound tree root query hits symbol) : IsSound tree root query hits' symbol := by
  obtain ⟨hit, hh, rest⟩ := h
  exact ⟨hit, hsub hit hh, rest⟩

/-- In whatever order a scan takes the groups of some hits, every symbol of its result is sound, and
the files of any set of local paths have no more symbols than there are hits on them. -/
theorem scan_isSound (tree : FileTree) (root : String) (endings : List LineEnding) (query : Query)
    (hits : List Hit) (groups : List Group) (isCancelled : Group → Bool) (symbols : List Symbol)
    (order : groups.Perm (groupByPath hits))
    (success : Scanner.scan ⟨root, endings, query.criterion⟩ tree isCancelled groups =
      .ok symbols) :
    (∀ symbol ∈ symbols, IsSound tree root query hits symbol) ∧
      ∀ isOf : String → Bool, symbols.countP (isOf ·.path) ≤
        hits.countP fun hit => (localPath? root hit.path).any isOf := by
  obtain rfl := Scanner.symbols_of_scan success
  constructor
  · intro symbol hs
    obtain ⟨group, hg, hs⟩ := List.mem_flatMap.mp hs
    have hg' := order.subset hg
    exact (Scanner.isSound_of_mem_found (path_of_mem_group group hg') hs).mono
      fun hit hh => mem_of_mem_group hg' hh
  · intro isOf
    have hperm := (order.flatMap_right Group.hits).trans (flatMap_hits_groupByPath hits)
    rw [← hperm.countP_eq, List.countP_flatMap, List.countP_flatMap]
    apply List.sum_le_sum
    intro group hg
    exact Scanner.countP_found_le isOf (path_of_mem_group group (order.subset hg))

/-- A checkout with one file, whose first byte is no UTF-8 and whose first line ends with a carriage
return and a line feed. -/
def smallCheckout : FileTree :=
  ⟨[(["repo"], .directory), (["repo", "a.cs"], .file [0xE9, 13, 10, 87, 105, 100, 10])], []⟩

def smallQuery : Query := .capped "Wid" 1 Query.defaultTimeout true .definitions

/-- The two hits count the end of the first line differently, and spell the path differently. -/
def smallHits : List Hit := [⟨"/a.cs", 3, 3⟩, ⟨"a.cs", 2, 3⟩]

def smallGroups : List Group :=
  [⟨"a.cs", [⟨"a.cs", 2, 3⟩]⟩, ⟨"/a.cs", [⟨"/a.cs", 3, 3⟩]⟩]

def smallSymbol : Symbol := ⟨"/repo/a.cs", 1, 1, 0, 3, "Wid"⟩

theorem read_smallCheckout :
    smallCheckout.read "/repo/a.cs" = .ok [0xE9, 13, 10, 87, 105, 100, 10] := by decide +kernel

theorem localPath?_slash : localPath? "/repo" "/a.cs" = some "/repo/a.cs" := by decide +kernel

theorem localPath?_plain : localPath? "/repo" "a.cs" = some "/repo/a.cs" := by decide +kernel

theorem symbols_smallHit {hit : Hit} (h : hit ∈ smallHits) :
    (Placement.ofText LineEnding.default smallQuery.criterion "/repo/a.cs" [hit]
      (Text.Utf8.lenient [0xE9, 13, 10, 87, 105, 100, 10])).symbols = [smallSymbol] := by
  simp only [smallHits, List.mem_cons, List.not_mem_nil, or_false] at h
  rcases h with rfl | rfl
  · cbv
  · cbv

theorem scan_smallGroups :
    Scanner.scan ⟨"/repo", LineEnding.default, smallQuery.criterion⟩ smallCheckout
      (fun _ => false) smallGroups = .ok [smallSymbol, smallSymbol] := by
  have hfile : smallCheckout.isFile "/repo/a.cs" = true := by decide +kernel
  have hplain := symbols_smallHit (List.mem_cons_of_mem _ List.mem_cons_self)
  have hslash := symbols_smallHit List.mem_cons_self
  simp only [Scanner.scan, smallGroups, List.map_cons, List.map_nil, Scanner.scanGroup,
    localPath?_plain, localPath?_slash, read_smallCheckout, hfile, hplain, hslash, if_true,
    Bool.false_eq_true, if_false]
  rfl

theorem scan_isSound_smallGroups :
    smallGroups.Perm (groupByPath smallHits) ∧
      Scanner.scan ⟨"/repo", LineEnding.default, smallQuery.criterion⟩ smallCheckout
        (fun _ => false) smallGroups = .ok [smallSymbol, smallSymbol] ∧
      (∀ symbol ∈ [smallSymbol, smallSymbol],
        IsSound smallCheckout "/repo" smallQuery smallHits symbol) ∧
      ∀ isOf : String → Bool, [smallSymbol, smallSymbol].countP (isOf ·.path) ≤
        smallHits.countP fun hit => (localPath? "/repo" hit.path).any isOf := by
  have horder : smallGroups.Perm (groupByPath smallHits) := by decide +kernel
  exact ⟨horder, scan_smallGroups, scan_isSound smallCheckout "/repo" LineEnding.default smallQuery
    smallHits smallGroups (fun _ => false) _ horder scan_smallGroups⟩

end Checkout

end CodeNav
