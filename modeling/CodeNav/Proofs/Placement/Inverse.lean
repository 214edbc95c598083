import CodeNav.Proofs.Placement.Fallback

/-! # One convention alone

Under a single convention the windows of the lines do not meet. So an offset lies at one column of
one line at most, and placing a hit is the inverse of computing its offset from a line and a column.
-/

namespace CodeNav.Placement

variable {endings : List LineEnding} {ending : LineEnding} {criterion : Criterion} {path : String}
  {lines : List (List Char)} {hit : Hit} {symbol : Symbol} {accepted : Accepted}
  {offset number column : Nat}

/-- An offset is that of a column of a line. -/
def LiesAt (lines : List (List Char)) (ending : LineEnding) (offset number column : Nat) : Prop :=
  ∃ line, lines[number]? = some line ∧ column < Text.units line ∧
    offset = lineStart lines ending number + column

theorem lineStart_mono {j k : Nat} (hjk : j ≤ k) (hk : k ≤ lines.length) :
    lineStart lines ending j ≤ lineStart lines ending k :=
  (Nat.le_add_right _ _).trans (lineStart_add_le hjk hk)

theorem LiesAt.lt_length (h : LiesAt lines ending offset number column) :
    number < lines.length := by
  obtain ⟨line, hline, -, -⟩ := h
  exact (List.getElem?_eq_some_iff.mp hline).1

theorem LiesAt.offset_eq (h : LiesAt lines ending offset number column) :
    offset = lineStart lines ending number + column := by
  obtain ⟨line, -, -, hoffset⟩ := h
  exact hoffset

theorem LiesAt.lineStart_le (h : LiesAt lines ending offset number column) :
    lineStart lines ending number ≤ offset := by
  rw [h.offset_eq]
  exact Nat.le_add_right _ _

theorem LiesAt.lt_lineStart_succ (h : LiesAt lines ending offset number column) :
    offset < lineStart lines ending (number + 1) := by
  obtain ⟨line, hline, hcolumn, rfl⟩ := h
  rw [lineStart_succ hline]
  omega

theorem LiesAt.number_eq {j : Nat} (h : LiesAt lines ending offset number column)
    (hj : j < lines.length) (hstart : lineStart lines ending j ≤ offset)
    (hstop : offset < lineStart lines ending (j + 1)) : number = j := by
  rcases Nat.lt_trichotomy number j with hlt | heq | hgt
  · have hnext : lineStart lines ending (number + 1) ≤ lineStart lines ending j :=
      lineStart_mono hlt hj.le
    exact absurd h.lt_lineStart_succ (not_lt.mpr (hnext.trans hstart))
  · exact heq
  · have hnext : lineStart lines ending (j + 1) ≤ lineStart lines ending number :=
      lineStart_mono hgt h.lt_length.le
    exact absurd hstop (not_lt.mpr (hnext.trans h.lineStart_le))

theorem LiesAt.unique {number' column' : Nat} (h : LiesAt lines ending offset number column)
    (h' : LiesAt lines ending offset number' column') : number = number' ∧ column = column' := by
  obtain rfl := h.number_eq h'.lt_length h'.lineStart_le h'.lt_lineStart_succ
  exact ⟨rfl, Nat.add_left_cancel (h.offset_eq.symm.trans h'.offset_eq)⟩

/-- No column has an offset that falls on the end of a line. -/
theorem not_liesAt_of_terminator {j : Nat} {line : List Char} (hline : lines[j]? = some line)
    (hstart : lineStart lines ending j + Text.units line ≤ offset)
    (hstop : offset < lineStart lines ending j + Text.units line + ending.width) :
    ¬ LiesAt lines ending offset number column := by
  intro h
  have hj : j < lines.length := (List.getElem?_eq_some_iff.mp hline).1
  have hnext : offset < lineStart lines ending (j + 1) := by
    rwa [lineStart_succ hline, ← Nat.add_assoc]
  obtain rfl := h.number_eq hj (by omega) hnext
  obtain ⟨other, hother, hcolumn, rfl⟩ := h
  obtain rfl : line = other := Option.some.inj (hline.symm.trans hother)
  omega

theorem not_liesAt_of_length_le (h : lineStart lines ending lines.length ≤ offset) :
    ¬ LiesAt lines ending offset number column := by
  intro hlies
  have hnext : lineStart lines ending (number + 1) ≤ lineStart lines ending lines.length :=
    lineStart_mono hlies.lt_length le_rfl
  exact absurd hlies.lt_lineStart_succ (not_lt.mpr (hnext.trans h))

/-- The candidate at a column of a line is accepted. -/
def Accepts (criterion : Criterion) (lines : List (List Char)) (number column length : Nat)
    (accepted : Accepted) : Prop :=
  ∃ line, lines[number]? = some line ∧ criterion.accept line column length = some accepted

theorem fitsAt_iff :
    FitsAt criterion lines hit number ending accepted ↔
      ∃ column, LiesAt lines ending hit.offset number column ∧
        Accepts criterion lines number column hit.length accepted := by
  constructor
  · rintro ⟨line, hline, hstart, hstop, haccept⟩
    exact ⟨hit.offset - lineStart lines ending number, ⟨line, hline, by omega, by omega⟩,
      line, hline, haccept⟩
  · rintro ⟨column, ⟨line, hline, hcolumn, hoffset⟩, other, hother, haccept⟩
    obtain rfl : line = other := Option.some.inj (hline.symm.trans hother)
    exact fitsAt_of_accept hline hcolumn haccept hoffset rfl

theorem isPlaceOf_singleton_iff :
    IsPlaceOf [ending] criterion path lines hit symbol ↔
      ∃ number column accepted, LiesAt lines ending hit.offset number column ∧
        Accepts criterion lines number column hit.length accepted ∧
        symbol = Symbol.onLine path number column accepted.endColumn
          (String.ofList accepted.text) := by
  constructor
  · rintro ⟨number, before, other, after, accepted, hsplit, hfit, -, -, rfl⟩
    obtain rfl : ending = other := by
      have hmem : other ∈ [ending] := by rw [hsplit]; simp
      exact (List.mem_singleton.mp hmem).symm
    obtain ⟨column, hlies, haccepts⟩ := fitsAt_iff.mp hfit
    exact ⟨number, column, accepted, hlies, haccepts, symbolOf_of_offset hlies.offset_eq⟩
  · rintro ⟨number, column, accepted, hlies, haccepts, rfl⟩
    have hearlier : ∀ j < number, ∀ other ∈ [ending], ∀ a,
        ¬ FitsAt criterion lines hit j other a := by
      intro j hj other hother a
      rw [List.mem_singleton.mp hother]
      exact not_fitsAt_of_lineStart_le hj hlies.lt_length.le hlies.lineStart_le
    exact ⟨number, [], ending, [], accepted, rfl, fitsAt_iff.mpr ⟨column, hlies, haccepts⟩,
      by simp, hearlier, (symbolOf_of_offset hlies.offset_eq).symm⟩

theorem exists_isPlaceOf_singleton_iff :
    (∃ symbol, IsPlaceOf [ending] criterion path lines hit symbol) ↔
      ∃ number column accepted, LiesAt lines ending hit.offset number column ∧
        Accepts criterion lines number column hit.length accepted := by
  simp only [isPlaceOf_singleton_iff]
  constructor
  · rintro ⟨_, number, column, accepted, hlies, haccepts, -⟩
    exact ⟨number, column, accepted, hlies, haccepts⟩
  · rintro ⟨number, column, accepted, hlies, haccepts⟩
    exact ⟨_, number, column, accepted, hlies, haccepts, rfl⟩

def IsUnreported (endings : List LineEnding) (criterion : Criterion) (path : String)
    (lines : List (List Char)) (hit : Hit) : Prop :=
  ∀ before after,
    (ofLines endings criterion path (before ++ hit :: after) lines).symbols =
      (ofLines endings criterion path (before ++ after) lines).symbols

theorem isUnreported_iff :
    IsUnreported endings criterion path lines hit ↔
      ¬ ∃ symbol, IsPlaceOf endings criterion path lines hit symbol := by
  rw [not_exists, ← place?_eq_none_iff]
  constructor
  · intro h
    have halone := h [] []
    rw [List.nil_append, List.nil_append, symbols_ofLines_nil, symbols_ofLines_singleton] at halone
    exact Option.toList_eq_nil_iff.mp halone
  · intro h before after
    have hlocate : locate? endings criterion path lines hit = none := by
      rw [locate?, h, Option.map_none]
    rw [symbols_ofLines, symbols_ofLines, List.filterMap_append, List.filterMap_append,
      List.filterMap_cons_none hlocate]

theorem isUnreported_of_not_liesAt
    (h : ∀ number column, ¬ LiesAt lines ending hit.offset number column) :
    IsUnreported [ending] criterion path lines hit := by
  rw [isUnreported_iff, exists_isPlaceOf_singleton_iff]
  rintro ⟨number, column, -, hlies, -⟩
  exact h number column hlies

/-- A hit is reported at the column where its offset lies. -/
theorem liesAt_of_isReportedAs (h : IsReportedAs [ending] criterion path lines hit symbol) :
    LiesAt lines ending hit.offset symbol.startLine symbol.startColumn := by
  obtain ⟨number, column, accepted, hlies, -, rfl⟩ :=
    isPlaceOf_singleton_iff.mp (isReportedAs_iff.mp h)
  exact hlies

/-- Placing hits under a single convention is the inverse of computing their offsets. -/
structure InvertsOffsets (ending : LineEnding) (criterion : Criterion) (path : String)
    (lines : List (List Char)) : Prop where
  /-- A hit is reported where its offset lies, if the candidate there is accepted. -/
  reported_iff : ∀ hit symbol, IsReportedAs [ending] criterion path lines hit symbol ↔
    ∃ number column accepted, LiesAt lines ending hit.offset number column ∧
      Accepts criterion lines number column hit.length accepted ∧
      symbol = Symbol.onLine path number column accepted.endColumn (String.ofList accepted.text)
  /-- Otherwise it adds nothing. -/
  unreported_iff : ∀ hit, IsUnreported [ending] criterion path lines hit ↔
    ¬ ∃ number column accepted, LiesAt lines ending hit.offset number column ∧
      Accepts criterion lines number column hit.length accepted
  column_unique : ∀ offset number column number' column',
    LiesAt lines ending offset number column → LiesAt lines ending offset number' column' →
      number = number' ∧ column = column'
  unreported_terminator : ∀ (hit : Hit) number line, lines[number]? = some line →
    lineStart lines ending number + Text.units line ≤ hit.offset →
    hit.offset < lineStart lines ending number + Text.units line + ending.width →
      IsUnreported [ending] criterion path lines hit
  unreported_past_end : ∀ hit : Hit, lineStart lines ending lines.length ≤ hit.offset →
    IsUnreported [ending] criterion path lines hit
  offset_unique : ∀ hit hit' symbol symbol', IsReportedAs [ending] criterion path lines hit symbol →
    IsReportedAs [ending] criterion path lines hit' symbol' →
    symbol.startLine = symbol'.startLine → symbol.startColumn = symbol'.startColumn →
      hit.offset = hit'.offset

/-- Under a single convention the place of a hit and its offset determine each other. -/
theorem invertsOffsets (ending : LineEnding) (criterion : Criterion) (path : String)
    (lines : List (List Char)) : InvertsOffsets ending criterion path lines where
  reported_iff _ _ := isReportedAs_iff.trans isPlaceOf_singleton_iff
  unreported_iff _ := isUnreported_iff.trans (not_congr exists_isPlaceOf_singleton_iff)
  column_unique _ _ _ _ _ := LiesAt.unique
  unreported_terminator _ _ _ hline hstart hstop :=
    isUnreported_of_not_liesAt fun _ _ => not_liesAt_of_terminator hline hstart hstop
  unreported_past_end _ hend := isUnreported_of_not_liesAt fun _ _ => not_liesAt_of_length_le hend
  offset_unique hit hit' symbol symbol' h h' hline hcolumn := by
    have hoffset := (liesAt_of_isReportedAs h).offset_eq
    rwa [hline, hcolumn, ← (liesAt_of_isReportedAs h').offset_eq] at hoffset

end CodeNav.Placement
