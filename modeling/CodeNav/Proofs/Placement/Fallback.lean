import CodeNav.Proofs.Placement.Endings

/-! # Conventions to fall back on

Conventions that are tried after all others lose no hit. They may only take one on an earlier line,
where no other convention accepts it, and so the scan may stop earlier.
-/

namespace CodeNav.Placement

variable {endings fallback : List LineEnding} {criterion : Criterion} {path : String}
  {lines : List (List Char)} {hit : Hit} {symbol : Symbol} {j k : Nat}

theorem placeOn?_append :
    placeOn? (endings ++ fallback) criterion path lines hit k =
      (placeOn? endings criterion path lines hit k).or
        (placeOn? fallback criterion path lines hit k) :=
  List.findSome?_append

theorem IsPlaceOf.placeOn?_eq (h : IsPlaceOf endings criterion path lines hit symbol) :
    placeOn? endings criterion path lines hit symbol.startLine = some symbol := by
  obtain ⟨k, before, ending, after, accepted, rfl, hfit, hothers, -, rfl⟩ := h
  apply List.findSome?_eq_some_iff.mpr
  refine ⟨before, ending, after, rfl, symbolAt?_eq_some_iff.mpr ⟨accepted, hfit, rfl⟩, ?_⟩
  intro other hother
  exact symbolAt?_eq_none_iff.mpr (hothers other hother)

theorem IsPlaceOf.placeOn?_earlier (h : IsPlaceOf endings criterion path lines hit symbol)
    (hj : j < symbol.startLine) : placeOn? endings criterion path lines hit j = none := by
  obtain ⟨k, before, ending, after, accepted, -, -, -, hearlier, rfl⟩ := h
  exact placeOn?_eq_none_iff.mpr (hearlier j hj)

theorem exists_isPlaceOf_of_placeOn?
    (h : placeOn? endings criterion path lines hit k = some symbol) :
    ∃ first, IsPlaceOf endings criterion path lines hit first := by
  obtain ⟨ending, hending, hsymbol⟩ := List.exists_of_findSome?_eq_some h
  obtain ⟨accepted, ⟨line, hline, -⟩, -⟩ := symbolAt?_eq_some_iff.mp hsymbol
  have hk : k < lines.length := (List.getElem?_eq_some_iff.mp hline).1
  cases hplace : place? endings criterion path lines hit with
  | none =>
    have hnone := List.findSome?_eq_none_iff.mp hplace k (List.mem_range.mpr hk)
    rw [h] at hnone
    cases hnone
  | some first => exact ⟨first, place?_eq_some_iff.mp hplace⟩

/-- A place stays, unless a later convention accepts the hit on an earlier line. -/
theorem IsPlaceOf.exists_append (h : IsPlaceOf endings criterion path lines hit symbol)
    (fallback : List LineEnding) :
    ∃ earlier, IsPlaceOf (endings ++ fallback) criterion path lines hit earlier ∧
      earlier.startLine ≤ symbol.startLine ∧
      (earlier.startLine = symbol.startLine → earlier = symbol) := by
  have hsame : placeOn? (endings ++ fallback) criterion path lines hit symbol.startLine =
      some symbol := by
    rw [placeOn?_append, h.placeOn?_eq, Option.some_or]
  obtain ⟨earlier, hearlier⟩ := exists_isPlaceOf_of_placeOn? hsame
  refine ⟨earlier, hearlier, ?_, ?_⟩
  · by_contra hlater
    rw [hearlier.placeOn?_earlier (not_le.mp hlater)] at hsame
    cases hsame
  · intro hline
    have hfound := hearlier.placeOn?_eq
    rw [hline, hsame] at hfound
    exact (Option.some.inj hfound).symm

theorem onLine?_append {number : Nat} {line : List Char} {starts others : List Nat} :
    onLine? criterion path number line (starts ++ others) hit =
      (onLine? criterion path number line starts hit).or
        (onLine? criterion path number line others hit) :=
  List.findSome?_append

theorem length_advance {starts : List Nat} {line : List Char}
    (h : starts.length = endings.length) :
    (advance endings starts line).length = endings.length := by
  rw [advance, List.length_zipWith, h, min_self]

theorem advance_append {starts others : List Nat} {line : List Char}
    (h : starts.length = endings.length) :
    advance (endings ++ fallback) (starts ++ others) line =
      advance endings starts line ++ advance fallback others line :=
  List.zipWith_append h

theorem linesScanned_scan_append_le {rest : List (List Char)} {number : Nat}
    {starts others : List Nat} {pending fewer : List Hit} (hstarts : starts.length = endings.length)
    (hfewer : fewer.Sublist pending) :
    (scan criterion path (endings ++ fallback) number (starts ++ others) fewer rest).linesScanned ≤
      (scan criterion path endings number starts pending rest).linesScanned := by
  induction rest generalizing number starts others pending fewer with
  | nil => exact le_rfl
  | cons line rest ih =>
    rw [scan, scan]
    cases fewer with
    | nil => exact Nat.zero_le _
    | cons first fewer =>
      have hpending : pending ≠ [] := by
        rintro rfl
        cases hfewer
      rw [if_neg (by simp), if_neg (by simpa using hpending), advance_append hstarts]
      -- A hit that stays pending was placed by none of the conventions, nor by the first of them.
      have hleft : ∀ hit, (onLine? criterion path number line (starts ++ others) hit).isNone →
          (onLine? criterion path number line starts hit).isNone := by
        intro hit hnone
        rw [onLine?_append, Option.isNone_iff_eq_none, Option.or_eq_none_iff] at hnone
        rw [hnone.1]
        rfl
      have hfilter := (hfewer.filter _).trans (List.monotone_filter_right pending hleft)
      exact Nat.succ_le_succ (ih (length_advance hstarts) hfilter)

theorem linesScanned_ofLines_append_le (hits : List Hit) :
    (ofLines (endings ++ fallback) criterion path hits lines).linesScanned ≤
      (ofLines endings criterion path hits lines).linesScanned := by
  rw [ofLines, ofLines, List.map_append]
  exact linesScanned_scan_append_le (List.length_map _) (List.Sublist.refl _)

theorem isReportedAs_iff :
    IsReportedAs endings criterion path lines hit symbol ↔
      IsPlaceOf endings criterion path lines hit symbol := by
  refine ⟨fun h => ?_, IsPlaceOf.isReportedAs⟩
  have halone := h [] []
  rw [List.nil_append, List.nil_append, symbols_ofLines_nil, symbols_ofLines_singleton,
    List.perm_singleton] at halone
  exact place?_eq_some_iff.mp (Option.toList_eq_singleton_iff.mp halone)

/-- The symbols of a scan are those that its hits are reported as. With further conventions to fall
back on, every hit that was reported is reported on the same or an earlier line, on the same one as
the same symbol, and the scan of no hits reads further. -/
theorem isReportedAs_append (endings fallback : List LineEnding) (criterion : Criterion)
    (path : String) (lines : List (List Char)) :
    (∀ hits, ∀ symbol ∈ (ofLines endings criterion path hits lines).symbols,
      ∃ hit ∈ hits, IsReportedAs endings criterion path lines hit symbol) ∧
    (∀ hit symbol, IsReportedAs endings criterion path lines hit symbol →
      ∃ earlier, IsReportedAs (endings ++ fallback) criterion path lines hit earlier ∧
        earlier.startLine ≤ symbol.startLine ∧
        (earlier.startLine = symbol.startLine → earlier = symbol)) ∧
    ∀ hits, (ofLines (endings ++ fallback) criterion path hits lines).linesScanned ≤
      (ofLines endings criterion path hits lines).linesScanned := by
  refine ⟨?_, ?_, linesScanned_ofLines_append_le⟩
  · intro hits symbol hsymbol
    obtain ⟨hit, hhit, hplace⟩ := exists_isPlaceOf_of_mem hsymbol
    exact ⟨hit, hhit, hplace.isReportedAs⟩
  · intro hit symbol h
    obtain ⟨earlier, hearlier, hline, hsame⟩ := (isReportedAs_iff.mp h).exists_append fallback
    exact ⟨earlier, isReportedAs_iff.mpr hearlier, hline, hsame⟩

/-- A hit may move to an earlier line, where only the second convention accepts it. -/
example :
    place? [.lf] ⟨['a'], true, .definitions⟩ "a.cs" [['x'], ['x'], ['a'], ['a']] ⟨"a.cs", 6, 1⟩ =
        some (Symbol.onLine "a.cs" 3 0 1 "a") ∧
      place? [.lf, .crlf] ⟨['a'], true, .definitions⟩ "a.cs" [['x'], ['x'], ['a'], ['a']]
        ⟨"a.cs", 6, 1⟩ = some (Symbol.onLine "a.cs" 2 0 1 "a") := by
  decide

end CodeNav.Placement
