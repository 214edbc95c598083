import Mathlib.Order.Nat
import CodeNav.Proofs.Placement.Scan

/-! # Which convention places a hit

By default one unit is tried for the end of a line, then two. A hit whose offset counts two units a
line is always placed on its own line. A hit whose offset counts one unit a line may be taken by an
earlier line, where the windows that count two units run ahead.
-/

namespace CodeNav

theorem LineEnding.one_le_width (ending : LineEnding) : 1 ≤ ending.width := by
  cases ending <;> decide

namespace Placement

variable {endings : List LineEnding} {criterion : Criterion} {path : String}
  {lines : List (List Char)} {line : List Char} {ending : LineEnding} {hit : Hit}
  {symbol : Symbol} {accepted : Accepted} {j k : Nat}

theorem lineStart_add_le (hjk : j ≤ k) (hk : k ≤ lines.length) :
    lineStart lines ending j + (k - j) ≤ lineStart lines ending k := by
  induction k, hjk using Nat.le_induction with
  | base => simp
  | succ k hjk ih =>
    have hline : lines[k]? = some lines[k] := List.getElem?_eq_getElem hk
    have hstep := lineStart_succ hline ending
    have hwidth := ending.one_le_width
    have hstart := ih (Nat.le_of_succ_le hk)
    omega

theorem lineStart_crlf (hk : k ≤ lines.length) :
    lineStart lines .crlf k = lineStart lines .lf k + k := by
  induction k with
  | zero => rfl
  | succ k ih =>
    have hline : lines[k]? = some lines[k] := List.getElem?_eq_getElem hk
    have hstart := ih (Nat.le_of_succ_le hk)
    rw [lineStart_succ hline, lineStart_succ hline, hstart, LineEnding.width, LineEnding.width]
    omega

theorem FitsAt.offset_lt (h : FitsAt criterion lines hit k ending accepted) :
    hit.offset < lineStart lines ending (k + 1) := by
  obtain ⟨line, hline, -, hstop, -⟩ := h
  rw [lineStart_succ hline]
  omega

theorem not_fitsAt_of_lineStart_le (hjk : j < k) (hk : k ≤ lines.length)
    (hstart : lineStart lines ending k ≤ hit.offset) :
    ¬ FitsAt criterion lines hit j ending accepted := by
  intro hfit
  have hstop := hfit.offset_lt
  have hnext : lineStart lines ending (j + 1) + (k - (j + 1)) ≤ lineStart lines ending k :=
    lineStart_add_le hjk hk
  omega

/-- The windows of two units a line reach a hit of one unit a line only far down in a file. -/
theorem FitsAt.lt_two_mul {number column : Nat} (hnumber : number ≤ lines.length)
    (hoffset : lineStart lines .lf number + column ≤ hit.offset) (hk : k < number)
    (h : FitsAt criterion lines hit k .crlf accepted) : number + column < 2 * k := by
  have hle : lineStart lines .lf (k + 1) + (number - (k + 1)) ≤ lineStart lines .lf number :=
    lineStart_add_le hk hnumber
  obtain ⟨line, hline, -, hstop, -⟩ := h
  rw [lineStart_crlf (Nat.le_of_lt (hk.trans_le hnumber))] at hstop
  have hnext := lineStart_succ hline .lf
  rw [LineEnding.width] at hnext
  omega

/-- Among any other hits, a hit adds exactly the given symbol. -/
def IsReportedAs (endings : List LineEnding) (criterion : Criterion) (path : String)
    (lines : List (List Char)) (hit : Hit) (symbol : Symbol) : Prop :=
  ∀ before after,
    (ofLines endings criterion path (before ++ hit :: after) lines).symbols.Perm
      (symbol :: (ofLines endings criterion path (before ++ after) lines).symbols)

theorem IsPlaceOf.isReportedAs (h : IsPlaceOf endings criterion path lines hit symbol) :
    IsReportedAs endings criterion path lines hit symbol := by
  intro before after
  refine (symbols_ofLines_insert hit before after).trans ?_
  rw [place?_eq_some_iff.mpr h]
  rfl

theorem isReportedAs_lf (hfit : FitsAt criterion lines hit k .lf accepted)
    (hearlier : ∀ j < k, ∀ ending ∈ LineEnding.default, ∀ a,
      ¬ FitsAt criterion lines hit j ending a) :
    IsReportedAs LineEnding.default criterion path lines hit
      (symbolOf path lines hit k .lf accepted) :=
  IsPlaceOf.isReportedAs ⟨k, [], .lf, [.crlf], accepted, rfl, hfit, by simp, hearlier, rfl⟩

/-- The second one places it if the first one does not on the same line. -/
theorem isReportedAs_crlf (hfit : FitsAt criterion lines hit k .crlf accepted)
    (hfirst : ∀ a, ¬ FitsAt criterion lines hit k .lf a)
    (hearlier : ∀ j < k, ∀ ending ∈ LineEnding.default, ∀ a,
      ¬ FitsAt criterion lines hit j ending a) :
    IsReportedAs LineEnding.default criterion path lines hit
      (symbolOf path lines hit k .crlf accepted) :=
  IsPlaceOf.isReportedAs
    ⟨k, [.lf], .crlf, [], accepted, rfl, hfit, by simpa using hfirst, hearlier, rfl⟩

section

variable {number column length : Nat}

theorem fitsAt_of_accept (hline : lines[number]? = some line) (hcolumn : column < Text.units line)
    (haccept : criterion.accept line column length = some accepted)
    (hoffset : hit.offset = lineStart lines ending number + column)
    (hlength : hit.length = length) :
    FitsAt criterion lines hit number ending accepted := by
  refine ⟨line, hline, by omega, by omega, ?_⟩
  rwa [hoffset, hlength, Nat.add_sub_cancel_left]

theorem symbolOf_of_offset (hoffset : hit.offset = lineStart lines ending number + column) :
    symbolOf path lines hit number ending accepted =
      Symbol.onLine path number column accepted.endColumn (String.ofList accepted.text) := by
  rw [symbolOf, hoffset, Nat.add_sub_cancel_left]

variable (path) (hitPath : String)

/-- A hit whose offset counts one unit a line is placed where it belongs, unless the candidate is
also accepted in a window of two units a line on an earlier line. Then the first such line takes it,
which lies more than half as far down as the hit. -/
theorem isReportedAs_of_lf_offset (hline : lines[number]? = some line)
    (hcolumn : column < Text.units line)
    (haccept : criterion.accept line column length = some accepted) :
    let hit : Hit := ⟨hitPath, lineStart lines .lf number + column, length⟩
    ((∀ k < number, ∀ a, ¬ FitsAt criterion lines hit k .crlf a) →
      IsReportedAs LineEnding.default criterion path lines hit
        (Symbol.onLine path number column accepted.endColumn (String.ofList accepted.text))) ∧
    ∀ k < number, ∀ a, FitsAt criterion lines hit k .crlf a →
      number + column < 2 * k ∧
      ((∀ j < k, ∀ b, ¬ FitsAt criterion lines hit j .crlf b) →
        IsReportedAs LineEnding.default criterion path lines hit
          (symbolOf path lines hit k .crlf a)) := by
  intro hit
  have hnumber : number ≤ lines.length := (List.getElem?_eq_some_iff.mp hline).1.le
  have hlf : ∀ k < number, ∀ a, ¬ FitsAt criterion lines hit k .lf a := fun k hk a =>
    not_fitsAt_of_lineStart_le hk hnumber (Nat.le_add_right _ _)
  have hearlier : ∀ k ≤ number, (∀ j < k, ∀ a, ¬ FitsAt criterion lines hit j .crlf a) →
      ∀ j < k, ∀ ending ∈ LineEnding.default, ∀ a, ¬ FitsAt criterion lines hit j ending a := by
    intro k hk hcrlf j hj ending hending
    rcases List.mem_pair.mp hending with rfl | rfl
    · exact hlf j (hj.trans_le hk)
    · exact hcrlf j hj
  constructor
  · intro hnone
    have hfit : FitsAt criterion lines hit number .lf accepted :=
      fitsAt_of_accept hline hcolumn haccept rfl rfl
    have hsymbol : symbolOf path lines hit number .lf accepted =
        Symbol.onLine path number column accepted.endColumn (String.ofList accepted.text) :=
      symbolOf_of_offset rfl
    rw [← hsymbol]
    exact isReportedAs_lf hfit (hearlier number le_rfl hnone)
  · intro k hk a hfit
    refine ⟨hfit.lt_two_mul hnumber le_rfl hk, fun hnone => ?_⟩
    exact isReportedAs_crlf hfit (hlf k hk) (hearlier k hk.le hnone)

/-- A file of short lines, where the windows of two units a line run a whole line ahead. -/
def shortLines : List (List Char) := [['x'], ['x'], ['a'], ['a']]

def letterCriterion : Criterion := ⟨['a'], true, .definitions⟩

theorem isReportedAs_of_lf_offset_shortLines :
    shortLines[3]? = some ['a'] ∧ 0 < Text.units ['a'] ∧
      letterCriterion.accept ['a'] 0 1 = some ⟨1, ['a']⟩ ∧
      IsReportedAs LineEnding.default letterCriterion "a.cs" shortLines
        ⟨"a.cs", lineStart shortLines .lf 3 + 0, 1⟩ (Symbol.onLine "a.cs" 2 0 1 "a") := by
  have hline : shortLines[3]? = some ['a'] := rfl
  have hcolumn : 0 < Text.units ['a'] := by decide
  have haccept : letterCriterion.accept ['a'] 0 1 = some ⟨1, ['a']⟩ := by decide
  obtain ⟨-, htaken⟩ :=
    isReportedAs_of_lf_offset "a.cs" "a.cs" hline hcolumn haccept
  have hfit : FitsAt letterCriterion shortLines ⟨"a.cs", lineStart shortLines .lf 3 + 0, 1⟩ 2 .crlf
      ⟨1, ['a']⟩ := ⟨['a'], rfl, by decide, by decide, by decide⟩
  refine ⟨hline, hcolumn, haccept, (htaken 2 (by decide) _ hfit).2 fun j hj b hb => ?_⟩
  have hfar := (htaken j (by omega) b hb).1
  omega

/-- The last hit of the file is not placed where it belongs. -/
theorem not_isReportedAs_of_lf_offset :
    ¬ ∀ (criterion : Criterion) (path hitPath : String) (lines : List (List Char))
        (number column length : Nat) (line : List Char) (accepted : Accepted),
      lines[number]? = some line → column < Text.units line →
      criterion.accept line column length = some accepted →
      IsReportedAs LineEnding.default criterion path lines
        ⟨hitPath, lineStart lines .lf number + column, length⟩
        (Symbol.onLine path number column accepted.endColumn (String.ofList accepted.text)) := by
  intro h
  have hown := h letterCriterion "a.cs" "a.cs" shortLines 3 0 1 ['a'] ⟨1, ['a']⟩ rfl (by decide)
    (by decide) [] []
  have hplaced : (ofLines LineEnding.default letterCriterion "a.cs" [⟨"a.cs", 6, 1⟩]
      shortLines).symbols = [Symbol.onLine "a.cs" 2 0 1 "a"] := by
    simp only [ofLines, List.mergeSort_singleton]
    decide
  have hnone : (ofLines LineEnding.default letterCriterion "a.cs" [] shortLines).symbols = [] := by
    simp only [ofLines, List.mergeSort_nil]
    decide
  have hsame : [Symbol.onLine "a.cs" 2 0 1 "a"].Perm [Symbol.onLine "a.cs" 3 0 1 "a"] :=
    hplaced ▸ hnone ▸ hown
  exact absurd (List.singleton_perm_singleton.mp hsame) (by decide)

/-- A hit whose offset counts two units a line is placed on its own line: by the first convention,
as many columns further on as lines stand above it, if the candidate is accepted there, and else
where it belongs. -/
theorem isReportedAs_of_crlf_offset (hline : lines[number]? = some line)
    (hcolumn : column < Text.units line)
    (haccept : criterion.accept line column length = some accepted) :
    let hit : Hit := ⟨hitPath, lineStart lines .crlf number + column, length⟩
    (∀ a, column + number < Text.units line →
      criterion.accept line (column + number) length = some a →
      IsReportedAs LineEnding.default criterion path lines hit
        (Symbol.onLine path number (column + number) a.endColumn (String.ofList a.text))) ∧
    (¬ (column + number < Text.units line ∧
        (criterion.accept line (column + number) length).isSome) →
      IsReportedAs LineEnding.default criterion path lines hit
        (Symbol.onLine path number column accepted.endColumn (String.ofList accepted.text))) := by
  intro hit
  have hnumber : number ≤ lines.length := (List.getElem?_eq_some_iff.mp hline).1.le
  have hoffset : hit.offset = lineStart lines .lf number + (column + number) := by
    change lineStart lines .crlf number + column = _
    rw [lineStart_crlf hnumber]
    omega
  have hearlier : ∀ j < number, ∀ ending ∈ LineEnding.default, ∀ a,
      ¬ FitsAt criterion lines hit j ending a := by
    intro j hj ending hending a
    rcases List.mem_pair.mp hending with rfl | rfl
    · exact not_fitsAt_of_lineStart_le hj hnumber (by omega)
    · exact not_fitsAt_of_lineStart_le hj hnumber (Nat.le_add_right _ _)
  constructor
  · intro a hshifted ha
    have hfit : FitsAt criterion lines hit number .lf a :=
      fitsAt_of_accept hline hshifted ha hoffset rfl
    rw [← symbolOf_of_offset hoffset]
    exact isReportedAs_lf hfit hearlier
  · intro hnone
    have hfit : FitsAt criterion lines hit number .crlf accepted :=
      fitsAt_of_accept hline hcolumn haccept rfl rfl
    have hfirst : ∀ a, ¬ FitsAt criterion lines hit number .lf a := by
      rintro a ⟨other, hother, -, hstop, ha⟩
      obtain rfl : line = other := Option.some.inj (hline.symm.trans hother)
      rw [hoffset, Nat.add_sub_cancel_left] at ha
      exact hnone ⟨by omega, Option.isSome_of_eq_some ha⟩
    have hsymbol : symbolOf path lines hit number .crlf accepted =
        Symbol.onLine path number column accepted.endColumn (String.ofList accepted.text) :=
      symbolOf_of_offset rfl
    rw [← hsymbol]
    exact isReportedAs_crlf hfit hfirst hearlier

theorem isReportedAs_of_crlf_offset_words :
    ["alpha".toList, "beta foo".toList, "gamma foo".toList][2]? = some "gamma foo".toList ∧
      6 < Text.units "gamma foo".toList ∧
      (⟨"foo".toList, true, .definitions⟩ : Criterion).accept "gamma foo".toList 6 3 =
        some ⟨9, "foo".toList⟩ ∧
      IsReportedAs LineEnding.default ⟨"foo".toList, true, .definitions⟩ "a.cs"
        ["alpha".toList, "beta foo".toList, "gamma foo".toList] ⟨"a.cs", 23, 3⟩
        (Symbol.onLine "a.cs" 2 6 9 "foo") := by
  have hline : ["alpha".toList, "beta foo".toList, "gamma foo".toList][2]? =
      some "gamma foo".toList := rfl
  have hcolumn : 6 < Text.units "gamma foo".toList := by decide
  have haccept : (⟨"foo".toList, true, .definitions⟩ : Criterion).accept "gamma foo".toList 6 3 =
      some ⟨9, "foo".toList⟩ := by decide
  have hshifted : ¬ (6 + 2 < Text.units "gamma foo".toList ∧
      ((⟨"foo".toList, true, .definitions⟩ : Criterion).accept "gamma foo".toList (6 + 2)
        3).isSome) := by decide
  exact ⟨hline, hcolumn, haccept,
    (isReportedAs_of_crlf_offset "a.cs" "a.cs" hline hcolumn haccept).2 hshifted⟩

end

end Placement

end CodeNav
