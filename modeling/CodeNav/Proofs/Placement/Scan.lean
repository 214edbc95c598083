import CodeNav.Proofs.Placement.Search

/-! # One scan for all hits

The scan reads each line once for all hits that are still pending, keeps one running offset for
every convention, and stops early. None of this can be told from its result: the symbols are those
of a separate search for each hit, by line and then by offset.
-/

namespace CodeNav.Placement

variable {endings : List LineEnding} {criterion : Criterion} {path : String}
  {lines : List (List Char)}

def starts (endings : List LineEnding) (lines : List (List Char)) (k : Nat) : List Nat :=
  endings.map fun ending => lineStart lines ending k

theorem starts_zero (lines : List (List Char)) :
    starts endings lines 0 = endings.map fun _ => 0 := rfl

theorem advance_starts {line : List Char} {k : Nat} (h : lines[k]? = some line) :
    advance endings (starts endings lines k) line = starts endings lines (k + 1) := by
  simp only [advance, starts, List.zipWith_map_left, List.zipWith_self, lineStart_succ h]

theorem of_drop_eq_cons {line : List Char} {rest : List (List Char)} {k : Nat}
    (h : lines.drop k = line :: rest) : lines[k]? = some line ∧ lines.drop (k + 1) = rest := by
  constructor
  · rw [← List.head?_drop, h, List.head?_cons]
  · rw [← List.tail_drop, h, List.tail_cons]

theorem onLine?_starts {line : List Char} {k : Nat} (h : lines[k]? = some line) (hit : Hit) :
    onLine? criterion path k line (starts endings lines k) hit =
      placeOn? endings criterion path lines hit k := by
  simp only [onLine?, starts, List.findSome?_map, placeOn?]
  congr 1
  funext ending
  simp only [Function.comp_apply, symbolAt?, h, Option.bind_eq_bind, Option.bind_some]
  rfl

/-- A hit with its place on one of the lines that are left to a scan. -/
def locateFrom? (endings : List LineEnding) (criterion : Criterion) (path : String)
    (lines : List (List Char)) (k count : Nat) (hit : Hit) : Option Located :=
  ((List.range' k count).findSome? (placeOn? endings criterion path lines hit)).map
    (Located.mk hit)

def locate? (endings : List LineEnding) (criterion : Criterion) (path : String)
    (lines : List (List Char)) (hit : Hit) : Option Located :=
  (place? endings criterion path lines hit).map (Located.mk hit)

theorem locateFrom?_zero (hit : Hit) :
    locateFrom? endings criterion path lines 0 lines.length hit =
      locate? endings criterion path lines hit := by
  rw [locateFrom?, locate?, place?, List.range_eq_range']

theorem locateFrom?_succ (k count : Nat) (hit : Hit) :
    locateFrom? endings criterion path lines k (count + 1) hit =
      ((placeOn? endings criterion path lines hit k).map (Located.mk hit)).or
        (locateFrom? endings criterion path lines (k + 1) count hit) := by
  rw [locateFrom?, List.range'_succ, List.findSome?_cons]
  cases placeOn? endings criterion path lines hit k <;> rfl

theorem startLine_of_locateFrom? {k count : Nat} {hit : Hit} {located : Located}
    (h : locateFrom? endings criterion path lines k count hit = some located) :
    k ≤ located.symbol.startLine ∧ located.symbol.startLine < k + count := by
  obtain ⟨symbol, hs, rfl⟩ := Option.map_eq_some_iff.mp h
  obtain ⟨j, hj, hp⟩ := List.exists_of_findSome?_eq_some hs
  rw [List.mem_range'_1] at hj
  rwa [startLine_of_placeOn? hp]

theorem hit_of_locate? {hit : Hit} {located : Located}
    (h : locate? endings criterion path lines hit = some located) : located.hit = hit := by
  obtain ⟨symbol, -, rfl⟩ := Option.map_eq_some_iff.mp h
  rfl

theorem filter_locateFrom?_first (k count : Nat) (hit : Hit) :
    (locateFrom? endings criterion path lines k (count + 1) hit).filter
      (fun located => decide (located.symbol.startLine = k)) =
      (placeOn? endings criterion path lines hit k).map (Located.mk hit) := by
  rw [locateFrom?_succ]
  cases hp : placeOn? endings criterion path lines hit k with
  | some symbol => simp [Option.filter, startLine_of_placeOn? hp]
  | none =>
    simp only [Option.map_none, Option.none_or]
    cases hl : locateFrom? endings criterion path lines (k + 1) count hit with
    | none => rfl
    | some located =>
      have hk := (startLine_of_locateFrom? hl).1
      have hn : located.symbol.startLine ≠ k := by omega
      simp [Option.filter, hn]

theorem filter_locateFrom?_later {k j : Nat} (hj : k < j) (count : Nat) (hit : Hit) :
    (locateFrom? endings criterion path lines k (count + 1) hit).filter
      (fun located => decide (located.symbol.startLine = j)) =
      if (placeOn? endings criterion path lines hit k).isNone then
        (locateFrom? endings criterion path lines (k + 1) count hit).filter
          (fun located => decide (located.symbol.startLine = j))
      else none := by
  rw [locateFrom?_succ]
  cases hp : placeOn? endings criterion path lines hit k with
  | none => simp
  | some symbol =>
    have hn : symbol.startLine ≠ j := by
      rw [startLine_of_placeOn? hp]
      omega
    simp [Option.filter, hn]

/-- From any line on, the scan lists the pending hits by the lines of their places. -/
theorem symbols_scan {rest : List (List Char)} {k : Nat} (h : lines.drop k = rest)
    (pending : List Hit) :
    (scan criterion path endings k (starts endings lines k) pending rest).symbols =
      (List.range' k rest.length).flatMap fun j =>
        ((pending.filterMap (locateFrom? endings criterion path lines k rest.length)).filter
          (·.symbol.startLine = j)).map Located.symbol := by
  induction rest generalizing k pending with
  | nil => simp [scan]
  | cons line rest ih =>
    obtain ⟨hl, hd⟩ := of_drop_eq_cons h
    by_cases hp : pending = []
    · subst hp
      simp [scan]
    · simp only [scan, List.isEmpty_iff, hp, ↓reduceIte, advance_starts hl, ih hd,
        List.length_cons, List.range'_succ, List.flatMap_cons, onLine?_starts hl]
      congr 1
      · simp only [List.filter_filterMap, List.map_filterMap, filter_locateFrom?_first,
          Option.map_map]
        congr 1
        funext hit
        cases placeOn? endings criterion path lines hit k <;> rfl
      · apply List.flatMap_congr
        intro j hj
        have hk : k < j := by
          rw [List.mem_range'_1] at hj
          omega
        simp only [List.filter_filterMap, List.filterMap_filter, filter_locateFrom?_later hk]
        congr 2
        funext hit
        split <;> rfl

theorem symbols_ofLines (hits : List Hit) :
    (ofLines endings criterion path hits lines).symbols =
      ((hits.filterMap (locate? endings criterion path lines)).mergeSort fun a b =>
        decide (a.position ≤ b.position)).map Located.symbol := by
  have hline : ∀ located ∈ (hits.mergeSort fun a b => decide (a.offset ≤ b.offset)).filterMap
      (locate? endings criterion path lines), located.symbol.startLine < lines.length := by
    intro located hm
    obtain ⟨hit, -, hl⟩ := List.mem_filterMap.mp hm
    rw [← locateFrom?_zero] at hl
    simpa using (startLine_of_locateFrom? hl).2
  have hoffset : ∀ hit located, locate? endings criterion path lines hit = some located →
      located.hit.offset = hit.offset := fun hit located h => by rw [hit_of_locate? h]
  -- the scan visits the lines in turn, and the hits of a line in the order of their offsets
  calc (ofLines endings criterion path hits lines).symbols
      = ((List.range lines.length).flatMap fun k =>
          ((hits.mergeSort fun a b => decide (a.offset ≤ b.offset)).filterMap
            (locate? endings criterion path lines)).filter
              (·.symbol.startLine = k)).map Located.symbol := by
        rw [ofLines, ← starts_zero lines, symbols_scan List.drop_zero,
          List.map_flatMap, List.range_eq_range']
        simp only [funext locateFrom?_zero]
    _ = (((hits.mergeSort fun a b => decide (a.offset ≤ b.offset)).filterMap
          (locate? endings criterion path lines)).mergeSort fun a b =>
            decide (a.symbol.startLine ≤ b.symbol.startLine)).map Located.symbol := by
        rw [StableSort.mergeSort_eq_flatMap_filter
          (fun located : Located => located.symbol.startLine) hline]
    _ = _ := by
        rw [StableSort.filterMap_mergeSort Hit.offset
            (fun located : Located => located.hit.offset) hoffset,
          StableSort.mergeSort_mergeSort (fun located : Located => located.symbol.startLine)]
        rfl

theorem place?_eq_none_iff {hit : Hit} :
    place? endings criterion path lines hit = none ↔
      ∀ symbol, ¬ IsPlaceOf endings criterion path lines hit symbol := by
  simp only [Option.eq_none_iff_forall_ne_some, ne_eq, place?_eq_some_iff]

theorem length_symbols_ofLines_le (hits : List Hit) :
    (ofLines endings criterion path hits lines).symbols.length ≤ hits.length := by
  rw [symbols_ofLines, List.length_map, List.length_mergeSort]
  exact List.length_filterMap_le _ _

theorem exists_isPlaceOf_of_mem {hits : List Hit} {symbol : Symbol}
    (h : symbol ∈ (ofLines endings criterion path hits lines).symbols) :
    ∃ hit ∈ hits, IsPlaceOf endings criterion path lines hit symbol := by
  rw [symbols_ofLines, List.mem_map] at h
  obtain ⟨located, hm, rfl⟩ := h
  rw [List.mem_mergeSort, List.mem_filterMap] at hm
  obtain ⟨hit, hh, hl⟩ := hm
  obtain ⟨symbol, hp, rfl⟩ := Option.map_eq_some_iff.mp hl
  exact ⟨hit, hh, place?_eq_some_iff.mp hp⟩

/-- How far a scan reads depends on which hits are pending, and not on their order. -/
theorem linesScanned_scan_of_perm {rest : List (List Char)} {k : Nat} {offsets : List Nat}
    {pending pending' : List Hit} (h : pending.Perm pending') :
    (scan criterion path endings k offsets pending rest).linesScanned =
      (scan criterion path endings k offsets pending' rest).linesScanned := by
  induction rest generalizing k offsets pending pending' with
  | nil => rfl
  | cons line rest ih =>
    have he : pending.isEmpty = pending'.isEmpty := by
      rw [Bool.eq_iff_iff, List.isEmpty_iff, List.isEmpty_iff]
      exact ⟨fun hp => (hp ▸ h).nil_eq.symm, fun hp => (hp ▸ h.symm).nil_eq.symm⟩
    simp only [scan, he]
    split
    · rfl
    · simp only [ih (h.filter _)]

theorem linesScanned_ofLines_of_perm {hits hits' : List Hit} (h : hits.Perm hits') :
    (ofLines endings criterion path hits lines).linesScanned =
      (ofLines endings criterion path hits' lines).linesScanned :=
  linesScanned_scan_of_perm
    ((List.mergeSort_perm _ _).trans (h.trans (List.mergeSort_perm _ _).symm))

theorem symbols_ofLines_perm_places (hits : List Hit) :
    (ofLines endings criterion path hits lines).symbols.Perm
      (hits.filterMap (place? endings criterion path lines)) := by
  have hplaces : (hits.filterMap (locate? endings criterion path lines)).map Located.symbol =
      hits.filterMap (place? endings criterion path lines) := by
    simp [List.map_filterMap, locate?, Function.comp_def]
  rw [symbols_ofLines, ← hplaces]
  exact (List.mergeSort_perm _ _).map _

theorem symbols_ofLines_nil : (ofLines endings criterion path [] lines).symbols = [] :=
  List.perm_nil.mp (symbols_ofLines_perm_places [])

theorem symbols_ofLines_singleton (hit : Hit) :
    (ofLines endings criterion path [hit] lines).symbols =
      (place? endings criterion path lines hit).toList := by
  have hperm : (ofLines endings criterion path [hit] lines).symbols.Perm
      ([hit].filterMap (place? endings criterion path lines)) := symbols_ofLines_perm_places [hit]
  cases hplace : place? endings criterion path lines hit with
  | none => simpa [hplace] using hperm
  | some symbol => simpa [hplace] using hperm

theorem symbols_ofLines_perm {hits hits' : List Hit} (h : hits.Perm hits') :
    (ofLines endings criterion path hits lines).symbols.Perm
      (ofLines endings criterion path hits' lines).symbols :=
  ((symbols_ofLines_perm_places hits).trans (h.filterMap _)).trans
    (symbols_ofLines_perm_places hits').symm

theorem symbols_ofLines_insert (hit : Hit) (before after : List Hit) :
    (ofLines endings criterion path (before ++ hit :: after) lines).symbols.Perm
      ((place? endings criterion path lines hit).toList ++
        (ofLines endings criterion path (before ++ after) lines).symbols) := by
  have hmiddle : ((before ++ hit :: after).filterMap (place? endings criterion path lines)).Perm
      ((hit :: (before ++ after)).filterMap (place? endings criterion path lines)) :=
    List.perm_middle.filterMap _
  have hcons : (hit :: (before ++ after)).filterMap (place? endings criterion path lines) =
      (place? endings criterion path lines hit).toList ++
        (before ++ after).filterMap (place? endings criterion path lines) := by
    rw [List.filterMap_cons]
    cases place? endings criterion path lines hit <;> rfl
  rw [hcons] at hmiddle
  exact ((symbols_ofLines_perm_places _).trans hmiddle).trans
    ((symbols_ofLines_perm_places _).symm.append_left _)

/-- Placing the hits of a file together is a search for each hit on its own: the symbols are the
places of the hits, by line, then by offset, then in the order of the hits. So the order of the hits
changes no more than the order of the symbols. -/
theorem ofLines_eq_search (endings : List LineEnding) (criterion : Criterion) (path : String)
    (hits : List Hit) (lines : List (List Char)) :
    (ofLines endings criterion path hits lines).symbols =
        ((hits.filterMap (locate? endings criterion path lines)).mergeSort fun a b =>
          decide (a.position ≤ b.position)).map Located.symbol ∧
      (∀ hit symbol, locate? endings criterion path lines hit = some ⟨hit, symbol⟩ ↔
        IsPlaceOf endings criterion path lines hit symbol) ∧
      ∀ hits', hits.Perm hits' →
        (ofLines endings criterion path hits lines).symbols.Perm
          (ofLines endings criterion path hits' lines).symbols ∧
        (ofLines endings criterion path hits lines).linesScanned =
          (ofLines endings criterion path hits' lines).linesScanned := by
  refine ⟨symbols_ofLines hits, fun hit symbol => ?_, fun hits' h =>
    ⟨symbols_ofLines_perm h, linesScanned_ofLines_of_perm h⟩⟩
  rw [← place?_eq_some_iff, locate?, Option.map_eq_some_iff]
  simp

end CodeNav.Placement
