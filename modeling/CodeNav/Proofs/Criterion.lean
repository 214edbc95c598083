import CodeNav.Criterion
import CodeNav.Proofs.Text.Case
import CodeNav.Proofs.Text.Columns

/-! # What is accepted

A candidate is accepted when it lies between whole characters of a line that is no line comment, its
end is a word, and its text fits the filter.
-/

namespace CodeNav

namespace Text

theorem trimEnd_prefix (text : List Char) : trimEnd text <+: text := by
  have h := List.reverse_prefix.mpr (List.dropWhile_suffix isBlank (l := text.reverse))
  rwa [List.reverse_reverse] at h

theorem trimEnd_cons {c : Char} (h : isBlank c = false) (text : List Char) :
    trimEnd (c :: text) = c :: trimEnd text := by
  rw [trimEnd, trimEnd, List.reverse_cons, List.dropWhile_append]
  split
  · rename_i he
    rw [List.isEmpty_iff] at he
    simp [he, h]
  · simp

end Text

theorem isLineComment_iff_trimStart {line : List Char} :
    isLineComment line = true ↔ Text.commentMarker <+: Text.trimStart line := by
  rw [isLineComment, List.isPrefixOf_iff_prefix]

theorem isLineComment_iff {line : List Char} :
    isLineComment line = true ↔ Text.commentMarker <+: Text.trim line := by
  rw [isLineComment_iff_trimStart, Text.trim]
  constructor
  · rintro ⟨rest, h⟩
    have hs : Text.isBlank '/' = false := by decide
    rw [← h]
    simp only [Text.commentMarker, List.cons_append, List.nil_append, Text.trimEnd_cons hs]
    exact List.prefix_append ['/', '/'] _
  · exact fun h => h.trans (Text.trimEnd_prefix _)

namespace Criterion

variable {c : Criterion} {line inside : List Char} {column length : Nat}

theorem fits_iff :
    c.fits inside = true ↔
      (c.exact = true → inside = c.filter) ∧
      (c.exact = false → c.filter.flatMap Text.lower <+: inside.flatMap Text.lower) := by
  cases he : c.exact <;> simp [fits, he, Text.startsWithIgnoringCase_iff]

theorem accept_eq_some_iff {accepted : Accepted} :
    c.accept line column length = some accepted ↔
      ¬ Text.commentMarker <+: Text.trim line ∧ column + length < wordLimit ∧
      ∃ before inside after, line = before ++ inside ++ after ∧
        Text.units before = column ∧
        Text.units (before ++ inside) = min (column + length) (Text.units line) ∧
        c.fits inside = true ∧
        accepted = ⟨min (column + length) (Text.units line), c.shown line inside⟩ := by
  simp only [accept, ← isLineComment_iff]
  split
  · simp_all
  · rename_i hc
    split
    · rename_i hw
      simp only [hc, hw, not_false_eq_true, true_and, Bool.false_eq_true]
      split
      · rename_i inside hs
        constructor
        · intro h
          obtain ⟨before, after, hl, hb, hi⟩ := Text.slice?_eq_some_iff.mp hs
          split at h
          · rename_i hf
            exact ⟨before, inside, after, hl, hb, hi, hf, (Option.some.inj h).symm⟩
          · simp at h
        · rintro ⟨before, other, after, hl, hb, hi, hf, rfl⟩
          have ho := Text.slice?_eq_some_iff.mpr ⟨before, after, hl, hb, hi⟩
          obtain rfl : inside = other := Option.some.inj (hs.symm.trans ho)
          rw [if_pos hf]
      · rename_i hs
        simp only [reduceCtorEq, false_iff, not_exists, not_and]
        intro before inside after hl hb hi
        have ho := Text.slice?_eq_some_iff.mpr ⟨before, after, hl, hb, hi⟩
        simp [hs] at ho
    · rename_i hw
      simp [hw]

end Criterion

end CodeNav
