import Mathlib
import CodeNav.Proofs.Checkout.Pool
import CodeNav.Proofs.Checkout.Soundness

/-! # A scan is the sum of its hits

Grouping, threads and early exits do not show in what a scan finds: its symbols are those that each
hit has on its own, in the file that its path leads to. So the order of the hits and the spelling of
their paths make no difference.
-/

namespace CodeNav.Checkout

variable {scanner : Scanner} {tree : FileTree} {group : Group} {groups : List Group}
  {hit hit' : Hit} {hits hits' : List Hit} {threads : Nat}

theorem isFile_of_read {path : String} {bytes : List UInt8} (h : tree.read path = .ok bytes) :
    tree.isFile path = true := by
  obtain ⟨names, hfind⟩ := FileTree.read_eq_ok_iff.mp h
  simp only [FileTree.isFile, hfind]

/-- The hits name the same place, up to slashes that a path has too many. -/
structure SamePlace (hit hit' : Hit) : Prop where
  parts : Path.parts hit.path = Path.parts hit'.path
  offset : hit.offset = hit'.offset
  length : hit.length = hit'.length

/-- The same hits, in any order and with their paths spelled in any way. -/
def SameHits (hits hits' : List Hit) : Prop :=
  ∃ respelled, List.Forall₂ SamePlace hits respelled ∧ respelled.Perm hits'

def IsReadable (tree : FileTree) (root : String) (hits : List Hit) : Prop :=
  ∀ hit ∈ hits, ∀ path, localPath? root hit.path = some path → tree.isFile path →
    ∃ bytes, tree.read path = .ok bytes

namespace Scanner

/-- The symbols of one hit, placed on its own in the file that its path leads to. There are none
where the path leads to no file. -/
def symbolsOf (scanner : Scanner) (tree : FileTree) (hit : Hit) : List Symbol :=
  match localPath? scanner.root hit.path with
  | none => []
  | some path =>
    match tree.read path with
    | .ok bytes =>
      (Placement.ofText scanner.endings scanner.criterion path [hit]
        (Text.Utf8.lenient bytes)).symbols
    | .error _ => []

/-- A scan of hits may end with this result, if so many threads share its groups and nobody raises
the flag. The groups come in any order. -/
def EndsWith (scanner : Scanner) (tree : FileTree) (threads : Nat) (hits : List Hit)
    (result : Except ScanError (List Symbol)) : Prop :=
  ∃ groups pool, groups.Perm (groupByPath hits) ∧ Pool.Reachable threads .down groups pool ∧
    pool.flag = .down ∧ pool.Returns scanner tree result

theorem localPath?_eq_of_parts {root path path' : String} (h : Path.parts path = Path.parts path') :
    localPath? root path = localPath? root path' := by
  simp only [localPath?, h]

theorem symbols_singleton (endings : List LineEnding) (criterion : Criterion) (path : String)
    (hit : Hit) (text : List Char) :
    (Placement.ofText endings criterion path [hit] text).symbols =
      (Placement.place? endings criterion path (Text.lines text) hit).toList :=
  Placement.symbols_ofLines_singleton hit

theorem place?_eq_of_samePlace {endings : List LineEnding} {criterion : Criterion} {path : String}
    {lines : List (List Char)} (h : SamePlace hit hit') :
    Placement.place? endings criterion path lines hit =
      Placement.place? endings criterion path lines hit' := by
  obtain ⟨path', offset, length⟩ := hit
  obtain ⟨path'', offset', length'⟩ := hit'
  obtain ⟨-, rfl, rfl⟩ := h
  rfl

theorem symbolsOf_eq_of_samePlace (h : SamePlace hit hit') :
    scanner.symbolsOf tree hit = scanner.symbolsOf tree hit' := by
  simp only [symbolsOf, localPath?_eq_of_parts h.parts, symbols_singleton,
    place?_eq_of_samePlace h]

theorem found_eq_nil (h : ∀ path bytes, localPath? scanner.root group.path = some path →
    tree.read path ≠ .ok bytes) : scanner.found tree group = [] := by
  rw [found]
  split
  · rename_i symbols hscan
    obtain ⟨path, bytes, hlocal, hread, -⟩ := scanGroup_eq_ok_some hscan
    exact absurd hread (h path bytes hlocal)
  · rfl

theorem found_of_read {path : String} {bytes : List UInt8}
    (hlocal : localPath? scanner.root group.path = some path) (hread : tree.read path = .ok bytes) :
    scanner.found tree group =
      (Placement.ofText scanner.endings scanner.criterion path group.hits
        (Text.Utf8.lenient bytes)).symbols := by
  simp only [found, scanGroup, hlocal, isFile_of_read hread, hread, if_true]

/-- The hits of a group find what each of them finds alone. -/
theorem found_perm (hpath : ∀ hit ∈ group.hits, hit.path = group.path) :
    (scanner.found tree group).Perm (group.hits.flatMap (scanner.symbolsOf tree)) := by
  cases hlocal : localPath? scanner.root group.path with
  | none =>
    rw [found_eq_nil (by simp [hlocal]), List.flatMap_eq_nil_iff.mpr]
    intro hit hmem
    simp only [symbolsOf, hpath hit hmem, hlocal]
  | some path =>
    cases hread : tree.read path with
    | error cause =>
      have hnone : ∀ other bytes, localPath? scanner.root group.path = some other →
          tree.read other ≠ .ok bytes := by
        intro other bytes hother
        obtain rfl : path = other := Option.some.inj (hlocal.symm.trans hother)
        simp [hread]
      rw [found_eq_nil hnone, List.flatMap_eq_nil_iff.mpr]
      intro hit hmem
      simp only [symbolsOf, hpath hit hmem, hlocal, hread]
    | ok bytes =>
      have halone (hit : Hit) (hmem : hit ∈ group.hits) : scanner.symbolsOf tree hit =
          (Placement.place? scanner.endings scanner.criterion path
            (Text.lines (Text.Utf8.lenient bytes)) hit).toList := by
        simp only [symbolsOf, hpath hit hmem, hlocal, hread, symbols_singleton]
      rw [found_of_read hlocal hread, List.flatMap_congr halone, ← List.filterMap_eq_flatMap_toList]
      exact Placement.symbols_ofLines_perm_places group.hits

theorem flatMap_found_perm (order : groups.Perm (groupByPath hits)) :
    (groups.flatMap (scanner.found tree)).Perm (hits.flatMap (scanner.symbolsOf tree)) := by
  have hgroups : (groups.flatMap (scanner.found tree)).Perm
      (groups.flatMap fun group => group.hits.flatMap (scanner.symbolsOf tree)) :=
    List.Perm.flatMap_left _ fun group hgroup =>
      found_perm (path_of_mem_group group (order.subset hgroup))
  have hhits : (groups.flatMap Group.hits).Perm hits :=
    (order.flatMap_right Group.hits).trans (flatMap_hits_groupByPath hits)
  rw [← List.flatMap_assoc] at hgroups
  exact hgroups.trans (hhits.flatMap_right _)

theorem exists_scanGroup_eq_ok (hreadable : ∀ path, localPath? scanner.root group.path = some path →
    tree.isFile path → ∃ bytes, tree.read path = .ok bytes) :
    ∃ found?, scanner.scanGroup tree group = .ok found? := by
  rw [scanGroup]
  cases hlocal : localPath? scanner.root group.path with
  | none => exact ⟨none, rfl⟩
  | some path =>
    cases hfile : tree.isFile path with
    | false => exact ⟨none, by simp [hfile]⟩
    | true =>
      obtain ⟨bytes, hread⟩ := hreadable path hlocal hfile
      simp only [hfile, hread, if_true]
      exact ⟨_, rfl⟩

theorem scan_eq_ok (hreadable : IsReadable tree scanner.root hits)
    (order : groups.Perm (groupByPath hits)) :
    scanner.scan tree (fun _ => false) groups = .ok (groups.flatMap (scanner.found tree)) := by
  have hok : ∀ group ∈ groups, ∃ found?, scanner.scanGroup tree group = .ok found? := by
    intro group hgroup
    have hmem := order.subset hgroup
    obtain ⟨hit, hhit⟩ := List.exists_mem_of_ne_nil _ (hits_ne_nil_of_mem_group group hmem)
    apply exists_scanGroup_eq_ok
    rw [← path_of_mem_group group hmem hit hhit]
    exact hreadable hit (mem_of_mem_group hmem hhit)
  obtain ⟨founds, hfounds⟩ : ∃ founds : List (Option (List Symbol)),
      founds.map .ok = groups.map (scanner.scanGroup tree) := by
    clear order
    induction groups with
    | nil => exact ⟨[], rfl⟩
    | cons group groups ih =>
      rw [List.forall_mem_cons] at hok
      obtain ⟨found?, hfound⟩ := hok.1
      obtain ⟨founds, hfounds⟩ := ih hok.2
      exact ⟨found? :: founds, by rw [List.map_cons, List.map_cons, hfound, hfounds]⟩
  have hscan : scanner.scan tree (fun _ => false) groups = .ok (founds.flatMap (·.getD [])) :=
    collect_eq_ok_iff.mpr ⟨founds, hfounds, rfl⟩
  rw [hscan, symbols_of_scan hscan]

theorem EndsWith.exists_perm {result : Except ScanError (List Symbol)}
    (h : scanner.EndsWith tree threads hits result)
    (hreadable : IsReadable tree scanner.root hits) :
    ∃ symbols, result = .ok symbols ∧ symbols.Perm (hits.flatMap (scanner.symbolsOf tree)) := by
  obtain ⟨groups, pool, order, hpool, hdown, hreturns⟩ := h
  have hscan := hpool.eq_scan_of_down hdown hreturns
  exact ⟨_, hscan.trans (scan_eq_ok hreadable order), flatMap_found_perm order⟩

end Scanner

theorem exists_samePlace (h : List.Forall₂ SamePlace hits hits') (hmem : hit' ∈ hits') :
    ∃ hit ∈ hits, SamePlace hit hit' := by
  induction h with
  | nil => simp at hmem
  | @cons hit first _ _ hplace _ ih =>
    rcases List.mem_cons.mp hmem with rfl | hmem
    · exact ⟨hit, List.mem_cons_self, hplace⟩
    · obtain ⟨other, hother, hplace⟩ := ih hmem
      exact ⟨other, List.mem_cons_of_mem _ hother, hplace⟩

theorem IsReadable.sameHits {root : String} (h : IsReadable tree root hits)
    (hsame : SameHits hits hits') : IsReadable tree root hits' := by
  obtain ⟨respelled, hspelling, hperm⟩ := hsame
  intro hit' hmem path hlocal
  obtain ⟨hit, hhit, hplace⟩ := exists_samePlace hspelling (hperm.symm.subset hmem)
  rw [← Scanner.localPath?_eq_of_parts hplace.parts] at hlocal
  exact h hit hhit path hlocal

theorem Scanner.flatMap_symbolsOf_perm (hsame : SameHits hits hits') :
    (hits.flatMap (scanner.symbolsOf tree)).Perm (hits'.flatMap (scanner.symbolsOf tree)) := by
  obtain ⟨respelled, hspelling, hperm⟩ := hsame
  have heq :
      hits.flatMap (scanner.symbolsOf tree) = respelled.flatMap (scanner.symbolsOf tree) := by
    induction hspelling generalizing hits' with
    | nil => rfl
    | cons hplace _ ih =>
      rw [List.flatMap_cons, List.flatMap_cons, symbolsOf_eq_of_samePlace hplace, ih (.refl _)]
  rw [heq]
  exact hperm.flatMap_right _

structure Scanner.IsHitByHit (scanner : Scanner) (tree : FileTree) (threads : Nat)
    (hits : List Hit) : Prop where
  /-- The threads go on until all groups are done, and not for ever. -/
  ends : ∀ groups pool, groups.Perm (groupByPath hits) → Pool.Reachable threads .down groups pool →
    pool.flag = .down → Acc (fun later earlier => Pool.Step threads earlier later) pool ∧
      ((∃ result, pool.Returns scanner tree result) ∨
        ∃ pool', Pool.Step threads pool pool' ∧ pool'.flag = .down)
  /-- However they do it, the scan succeeds. -/
  found : ∀ result, scanner.EndsWith tree threads hits result →
    ∃ symbols, result = .ok symbols ∧ symbols.Perm (hits.flatMap (scanner.symbolsOf tree))
  independent : ∀ threads' hits' result result', SameHits hits hits' →
    scanner.EndsWith tree threads hits result → scanner.EndsWith tree threads' hits' result' →
      ∃ symbols symbols', result = .ok symbols ∧ result' = .ok symbols' ∧ symbols.Perm symbols'

theorem scan_isHitByHit (tree : FileTree) (root : String) (endings : List LineEnding)
    (query : Query) (hits : List Hit) (requested : Nat) (readable : IsReadable tree root hits) :
    Scanner.IsHitByHit ⟨root, endings, query.criterion⟩ tree (threadCount requested) hits where
  ends groups pool _ _ hdown :=
    ⟨Pool.acc_step pool,
      hdown ▸ Pool.exists_returns_or_step (threadCount_pos requested) pool⟩
  found _ hends := hends.exists_perm readable
  independent threads' hits' result result' hsame hends hends' := by
    obtain ⟨symbols, rfl, hperm⟩ := hends.exists_perm readable
    obtain ⟨symbols', rfl, hperm'⟩ := hends'.exists_perm (readable.sameHits hsame)
    exact ⟨symbols, symbols', rfl, rfl,
      hperm.trans ((Scanner.flatMap_symbolsOf_perm hsame).trans hperm'.symm)⟩

/-- Two of these hits lead to one file, one leads out of the checkout, and one leads nowhere. -/
def mixedHits : List Hit := [⟨"/a.cs", 3, 3⟩, ⟨"../a.cs", 0, 3⟩, ⟨"a.cs", 2, 3⟩, ⟨"b.cs", 0, 3⟩]

def smallScanner : Scanner := ⟨"/repo", LineEnding.default, smallQuery.criterion⟩

theorem symbolsOf_mixedHits :
    mixedHits.flatMap (smallScanner.symbolsOf smallCheckout) = [smallSymbol, smallSymbol] := by
  have hdots : localPath? "/repo" "../a.cs" = none := by decide +kernel
  have hother : localPath? "/repo" "b.cs" = some "/repo/b.cs" := by decide +kernel
  have hmissing : smallCheckout.read "/repo/b.cs" = .error .notFound := by decide +kernel
  have hplain := symbols_smallHit (List.mem_cons_of_mem _ List.mem_cons_self)
  have hslash := symbols_smallHit List.mem_cons_self
  simp only [mixedHits, smallScanner, List.flatMap_cons, List.flatMap_nil, Scanner.symbolsOf,
    localPath?_slash, hdots, localPath?_plain, hother, read_smallCheckout, hmissing, hplain, hslash]
  rfl

theorem isReadable_mixedHits : IsReadable smallCheckout "/repo" mixedHits := by
  have hlocal : mixedHits.filterMap (localPath? "/repo" ·.path) =
      ["/repo/a.cs", "/repo/a.cs", "/repo/b.cs"] := by decide +kernel
  have hmissing : smallCheckout.isFile "/repo/b.cs" = false := by decide +kernel
  intro hit hmem path hpath hfile
  have hpaths : path ∈ ["/repo/a.cs", "/repo/a.cs", "/repo/b.cs"] :=
    hlocal ▸ List.mem_filterMap.mpr ⟨hit, hmem, hpath⟩
  simp only [List.mem_cons, List.not_mem_nil, or_false] at hpaths
  rcases hpaths with rfl | rfl | rfl
  · exact ⟨_, read_smallCheckout⟩
  · exact ⟨_, read_smallCheckout⟩
  · simp [hmissing] at hfile

theorem scan_isHitByHit_mixedHits :
    IsReadable smallCheckout smallScanner.root mixedHits ∧
      smallScanner.IsHitByHit smallCheckout (threadCount 0) mixedHits ∧
        ∃ symbols, smallScanner.EndsWith smallCheckout (threadCount 0) mixedHits (.ok symbols) ∧
          symbols.Perm [smallSymbol, smallSymbol] := by
  have hsound : smallScanner.IsHitByHit smallCheckout (threadCount 0) mixedHits :=
    scan_isHitByHit smallCheckout "/repo" LineEnding.default smallQuery mixedHits 0
      isReadable_mixedHits
  refine ⟨isReadable_mixedHits, hsound, ?_⟩
  obtain ⟨pool, hsteps, hdown, result, hreturns⟩ :=
    Pool.exists_steps_returns smallScanner smallCheckout (threadCount_pos 0)
      (Pool.start .down (groupByPath mixedHits))
  have hends : smallScanner.EndsWith smallCheckout (threadCount 0) mixedHits result :=
    ⟨_, pool, .refl _, hsteps, hdown, hreturns⟩
  obtain ⟨symbols, hsymbols, hperm⟩ := hsound.found _ hends
  rw [symbolsOf_mixedHits] at hperm
  exact ⟨symbols, hsymbols ▸ hends, hperm⟩

end CodeNav.Checkout
