import CodeNav.Proofs.Placement.Fallback

/-! # How far a scan reads

A scan reads a line exactly if some hit has no place before it. So it ends with the line of the last
place, or with the file if a hit has none, and nothing depends on the lines after its end.
-/

namespace CodeNav.Placement

variable {endings : List LineEnding} {criterion : Criterion} {path : String}
  {lines other : List (List Char)} {hit : Hit} {symbol : Symbol} {hits : List Hit} {k n : Nat}

/-- From any line on, a line is read if some pending hit has no place before it. -/
theorem lt_linesScanned_scan_iff {rest : List (List Char)} (h : lines.drop k = rest)
    (pending : List Hit) :
    n < (scan criterion path endings k (starts endings lines k) pending rest).linesScanned ↔
      n < rest.length ∧
        ∃ hit ∈ pending, ∀ j < n, placeOn? endings criterion path lines hit (k + j) = none := by
  induction rest generalizing k n pending with
  | nil => simp [scan]
  | cons line rest ih =>
    obtain ⟨hline, hdrop⟩ := of_drop_eq_cons h
    cases pending with
    | nil => simp [scan]
    | cons first pending =>
      rw [scan, if_neg (by simp), advance_starts hline]
      cases n with
      | zero => simp
      | succ n =>
        rw [Nat.add_lt_add_iff_right, ih hdrop, List.length_cons, Nat.add_lt_add_iff_right]
        -- a hit is left for the later lines exactly if it has no place on this one
        simp only [List.mem_filter, onLine?_starts hline, Option.isNone_iff_eq_none, and_assoc,
          Nat.forall_lt_succ_left, Nat.add_zero, Nat.add_right_comm k, Nat.add_assoc]

theorem lt_linesScanned_ofLines_iff :
    n < (ofLines endings criterion path hits lines).linesScanned ↔
      n < lines.length ∧
        ∃ hit ∈ hits, ∀ j < n, placeOn? endings criterion path lines hit j = none := by
  rw [ofLines, ← starts_zero lines, lt_linesScanned_scan_iff List.drop_zero]
  simp only [List.mem_mergeSort, Nat.zero_add]

theorem linesScanned_of_place?_eq_none (hmem : hit ∈ hits)
    (hnone : place? endings criterion path lines hit = none) :
    (ofLines endings criterion path hits lines).linesScanned = lines.length := by
  refine eq_of_forall_lt_iff fun n => ?_
  rw [lt_linesScanned_ofLines_iff, and_iff_left_iff_imp]
  intro hn
  refine ⟨hit, hmem, fun j hj => ?_⟩
  exact List.findSome?_eq_none_iff.mp hnone j (List.mem_range.mpr (hj.trans hn))

theorem IsPlaceOf.forall_placeOn?_eq_none_iff
    (h : IsPlaceOf endings criterion path lines hit symbol) :
    (∀ j < n, placeOn? endings criterion path lines hit j = none) ↔ n ≤ symbol.startLine := by
  constructor
  · intro hnone
    by_contra hlt
    have hfound := h.placeOn?_eq
    rw [hnone _ (not_le.mp hlt)] at hfound
    cases hfound
  · intro hle j hj
    exact h.placeOn?_earlier (hj.trans_le hle)

theorem IsPlaceOf.startLine_lt (h : IsPlaceOf endings criterion path lines hit symbol) :
    symbol.startLine < lines.length := by
  obtain ⟨k, -, ending, -, accepted, -, ⟨line, hline, -⟩, -, -, rfl⟩ := h
  exact (List.getElem?_eq_some_iff.mp hline).1

theorem lt_linesScanned_iff_of_places
    (h : ∀ hit ∈ hits, ∃ symbol, IsPlaceOf endings criterion path lines hit symbol) :
    n < (ofLines endings criterion path hits lines).linesScanned ↔
      ∃ hit ∈ hits, ∃ symbol, IsPlaceOf endings criterion path lines hit symbol ∧
        n ≤ symbol.startLine := by
  rw [lt_linesScanned_ofLines_iff]
  constructor
  · rintro ⟨-, hit, hmem, hnone⟩
    obtain ⟨symbol, hplace⟩ := h hit hmem
    exact ⟨hit, hmem, symbol, hplace, hplace.forall_placeOn?_eq_none_iff.mp hnone⟩
  · rintro ⟨hit, hmem, symbol, hplace, hle⟩
    exact ⟨hle.trans_lt hplace.startLine_lt, hit, hmem,
      hplace.forall_placeOn?_eq_none_iff.mpr hle⟩

theorem lineStart_eq_of_take_eq (h : other.take n = lines.take n) (hk : k ≤ n)
    (ending : LineEnding) : lineStart other ending k = lineStart lines ending k := by
  rw [lineStart, lineStart, ← min_eq_left hk, ← List.take_take, ← List.take_take, h]

theorem placeOn?_eq_of_take_eq (h : other.take n = lines.take n) (hk : k < n) (hit : Hit) :
    placeOn? endings criterion path other hit k = placeOn? endings criterion path lines hit k := by
  have hline : other[k]? = lines[k]? := by
    rw [← List.getElem?_take_of_lt hk, h, List.getElem?_take_of_lt hk]
  have hstart := lineStart_eq_of_take_eq h hk.le
  have hsymbol : symbolOf path other hit k = symbolOf path lines hit k := by
    funext ending accepted
    rw [symbolOf, hstart, symbolOf]
  have hsymbols : symbolAt? criterion path other hit k = symbolAt? criterion path lines hit k := by
    funext ending
    rw [symbolAt?, hline, hstart, hsymbol, symbolAt?]
  rw [placeOn?, hsymbols, placeOn?]

theorem isPlaceOf_iff_placeOn? :
    IsPlaceOf endings criterion path lines hit symbol ↔
      placeOn? endings criterion path lines hit symbol.startLine = some symbol ∧
        ∀ j < symbol.startLine, placeOn? endings criterion path lines hit j = none := by
  refine ⟨fun h => ⟨h.placeOn?_eq, fun j => h.placeOn?_earlier⟩, fun ⟨hfound, hnone⟩ => ?_⟩
  obtain ⟨first, hfirst⟩ := exists_isPlaceOf_of_placeOn? hfound
  have hle : symbol.startLine ≤ first.startLine := hfirst.forall_placeOn?_eq_none_iff.mp hnone
  rcases hle.lt_or_eq with hlt | heq
  · rw [hfirst.placeOn?_earlier hlt] at hfound
    cases hfound
  · rw [heq, hfirst.placeOn?_eq] at hfound
    rwa [← Option.some.inj hfound]

theorem IsPlaceOf.of_take_eq (h : IsPlaceOf endings criterion path lines hit symbol)
    (htake : other.take n = lines.take n) (hn : symbol.startLine < n) :
    IsPlaceOf endings criterion path other hit symbol := by
  rw [isPlaceOf_iff_placeOn?] at h ⊢
  rw [placeOn?_eq_of_take_eq htake hn]
  exact ⟨h.1, fun j hj => (placeOn?_eq_of_take_eq htake (hj.trans hn) hit).trans (h.2 j hj)⟩

theorem ofLines_eq_of_take_eq
    (h : ∀ hit ∈ hits, ∃ symbol, IsPlaceOf endings criterion path lines hit symbol)
    (htake : other.take (ofLines endings criterion path hits lines).linesScanned =
      lines.take (ofLines endings criterion path hits lines).linesScanned) :
    ofLines endings criterion path hits other = ofLines endings criterion path hits lines := by
  have hplace : ∀ hit ∈ hits, place? endings criterion path other hit =
      place? endings criterion path lines hit := by
    intro hit hmem
    obtain ⟨symbol, hsymbol⟩ := h hit hmem
    have hread := (lt_linesScanned_iff_of_places h).mpr ⟨hit, hmem, symbol, hsymbol, le_rfl⟩
    rw [place?_eq_some_iff.mpr hsymbol, place?_eq_some_iff]
    exact hsymbol.of_take_eq htake hread
  have hother : ∀ hit ∈ hits, ∃ symbol, IsPlaceOf endings criterion path other hit symbol := by
    intro hit hmem
    obtain ⟨symbol, hsymbol⟩ := h hit hmem
    exact ⟨symbol, place?_eq_some_iff.mp ((hplace hit hmem).trans (place?_eq_some_iff.mpr hsymbol))⟩
  have hsymbols : (ofLines endings criterion path hits other).symbols =
      (ofLines endings criterion path hits lines).symbols := by
    rw [symbols_ofLines, symbols_ofLines]
    congr 2
    exact List.filterMap_congr fun hit hmem => by rw [locate?, hplace hit hmem, locate?]
  have hscanned : (ofLines endings criterion path hits other).linesScanned =
      (ofLines endings criterion path hits lines).linesScanned := by
    refine eq_of_forall_lt_iff fun n => ?_
    rw [lt_linesScanned_iff_of_places h, lt_linesScanned_iff_of_places hother]
    refine exists_congr fun hit => and_congr_right fun hmem => exists_congr fun symbol => ?_
    rw [← place?_eq_some_iff, hplace hit hmem, place?_eq_some_iff]
  exact congrArg₂ Placement.mk hsymbols hscanned

/-- Among any other hits, a hit adds a symbol on the given line. -/
def IsReportedOn (endings : List LineEnding) (criterion : Criterion) (path : String)
    (lines : List (List Char)) (hit : Hit) (number : Nat) : Prop :=
  ∃ symbol, IsReportedAs endings criterion path lines hit symbol ∧ symbol.startLine = number

def AreReported (endings : List LineEnding) (criterion : Criterion) (path : String)
    (lines : List (List Char)) (hits : List Hit) : Prop :=
  ∀ hit ∈ hits, ∃ k, IsReportedOn endings criterion path lines hit k

theorem isReportedOn_iff :
    IsReportedOn endings criterion path lines hit k ↔
      ∃ symbol, IsPlaceOf endings criterion path lines hit symbol ∧ symbol.startLine = k := by
  simp only [IsReportedOn, isReportedAs_iff]

theorem areReported_iff :
    AreReported endings criterion path lines hits ↔
      ∀ hit ∈ hits, ∃ symbol, IsPlaceOf endings criterion path lines hit symbol := by
  simp only [AreReported, isReportedOn_iff]
  refine forall₂_congr fun hit _ => ?_
  exact ⟨fun ⟨_, symbol, h, _⟩ => ⟨symbol, h⟩, fun ⟨symbol, h⟩ => ⟨_, symbol, h, rfl⟩⟩

/-- Every hit is reported exactly if there are as many symbols as hits. -/
theorem length_symbols_ofLines_eq_iff :
    (ofLines endings criterion path hits lines).symbols.length = hits.length ↔
      AreReported endings criterion path lines hits := by
  rw [(symbols_ofLines_perm_places hits).length_eq, List.filterMap_length_eq_length,
    areReported_iff]
  simp only [Option.isSome_iff_exists, place?_eq_some_iff]

theorem linesScanned_nil : (ofLines endings criterion path [] lines).linesScanned = 0 := by
  refine Nat.eq_zero_of_not_pos fun hpos => ?_
  obtain ⟨-, hit, hmem, -⟩ := lt_linesScanned_ofLines_iff.mp hpos
  exact List.not_mem_nil hmem

theorem exists_linesScanned_eq_succ (hhits : hits ≠ [])
    (h : ∀ hit ∈ hits, ∃ symbol, IsPlaceOf endings criterion path lines hit symbol) :
    ∃ last, (ofLines endings criterion path hits lines).linesScanned = last + 1 ∧
      IsGreatest {k | ∃ hit ∈ hits, IsReportedOn endings criterion path lines hit k} last := by
  obtain ⟨first, hfirst⟩ := List.exists_mem_of_ne_nil hits hhits
  obtain ⟨symbol, hplace⟩ := h first hfirst
  have hpos : 0 < (ofLines endings criterion path hits lines).linesScanned :=
    (lt_linesScanned_iff_of_places h).mpr ⟨first, hfirst, symbol, hplace, Nat.zero_le _⟩
  obtain ⟨last, hlast⟩ := Nat.exists_eq_add_one_of_ne_zero hpos.ne'
  have hread : ∀ hit ∈ hits, ∀ symbol, IsPlaceOf endings criterion path lines hit symbol →
      symbol.startLine ≤ last := by
    intro hit hmem symbol hplace
    have hlt := (lt_linesScanned_iff_of_places h).mpr ⟨hit, hmem, symbol, hplace, le_rfl⟩
    omega
  refine ⟨last, hlast, ?_, ?_⟩
  · have hlt : last < (ofLines endings criterion path hits lines).linesScanned := by omega
    obtain ⟨hit, hmem, symbol, hplace, hle⟩ := (lt_linesScanned_iff_of_places h).mp hlt
    have hline : symbol.startLine = last := le_antisymm (hread hit hmem symbol hplace) hle
    exact ⟨hit, hmem, isReportedOn_iff.mpr ⟨symbol, hplace, hline⟩⟩
  · rintro k ⟨hit, hmem, hreported⟩
    obtain ⟨symbol, hplace, rfl⟩ := isReportedOn_iff.mp hreported
    exact hread hit hmem symbol hplace

/-- Without hits nothing is read. If every hit is reported, the scan ends with the last line that
one is reported on, and any file that begins with the lines up to there gives the same result.
Otherwise the scan ends with the file. -/
theorem linesScanned_ofLines (endings : List LineEnding) (criterion : Criterion) (path : String)
    (hits : List Hit) (lines : List (List Char)) :
    let result := ofLines endings criterion path hits lines
    (hits = [] → result.linesScanned = 0) ∧
    (AreReported endings criterion path lines hits → hits ≠ [] →
      ∃ last, result.linesScanned = last + 1 ∧
        IsGreatest {k | ∃ hit ∈ hits, IsReportedOn endings criterion path lines hit k} last) ∧
    (¬ AreReported endings criterion path lines hits → result.linesScanned = lines.length) ∧
    (AreReported endings criterion path lines hits →
      ∀ other, other.take result.linesScanned = lines.take result.linesScanned →
        ofLines endings criterion path hits other = result) ∧
    (AreReported endings criterion path lines hits ↔ result.symbols.length = hits.length) := by
  intro result
  refine ⟨?_, ?_, ?_, ?_, length_symbols_ofLines_eq_iff.symm⟩
  · rintro rfl
    exact linesScanned_nil
  · intro h hhits
    exact exists_linesScanned_eq_succ hhits (areReported_iff.mp h)
  · intro h
    rw [areReported_iff] at h
    push Not at h
    obtain ⟨hit, hmem, hnone⟩ := h
    exact linesScanned_of_place?_eq_none hmem (place?_eq_none_iff.mpr hnone)
  · intro h other htake
    exact ofLines_eq_of_take_eq (areReported_iff.mp h) htake

/-- The two hits are placed on the second line, so the third one is not read. -/
example : (ofLines LineEnding.default ⟨['b'], true, .definitions⟩ "a.cs"
    [⟨"a.cs", 2, 1⟩, ⟨"a.cs", 2, 1⟩] [['a'], ['b'], ['c']]).linesScanned = 2 := by
  cbv

end CodeNav.Placement
