import Mathlib.Data.List.Forall2
import CodeNav.Proofs.Text.Lines
import CodeNav.Proofs.Text.Pieces
import CodeNav.Text.Units

/-! # Texts with repeated replacement characters

Bytes counted one by one give the text that they are read as, with some of its replacement
characters repeated. Both texts have the same lines but for these repetitions, and each repetition
adds one column to its line.
-/

namespace CodeNav.Text

open Utf8 (replacement)

/-- The second text repeats some replacement characters of the first one. -/
inductive Expands : List Char → List Char → Prop where
  | nil : Expands [] []
  | same {text longer : List Char} (c : Char) (h : Expands text longer) :
      Expands (c :: text) (c :: longer)
  | again {text longer : List Char} (h : Expands (replacement :: text) longer) :
      Expands (replacement :: text) (replacement :: longer)

variable {text longer : List Char} {c : Char}

theorem charUnits_replacement : charUnits replacement = 1 := by decide

theorem Expands.head?_eq (h : Expands text longer) : text.head? = longer.head? := by
  cases h <;> rfl

theorem Expands.count_le (h : Expands text longer) :
    text.count replacement ≤ longer.count replacement := by
  induction h with
  | nil => exact Nat.le_refl _
  | same c _ ih =>
    rw [List.count_cons, List.count_cons]
    exact Nat.add_le_add_right ih _
  | again _ ih => exact ih.trans List.count_le_count_cons

theorem Expands.length_le (h : Expands text longer) : text.length ≤ longer.length := by
  induction h with
  | nil => exact Nat.le_refl _
  | same _ _ ih => exact Nat.succ_le_succ ih
  | again _ ih => exact Nat.le_succ_of_le ih

/-- Each repetition adds one unit. -/
theorem Expands.units_add_count (h : Expands text longer) :
    units longer + text.count replacement = units text + longer.count replacement := by
  induction h with
  | nil => rfl
  | same c _ ih =>
    rw [units_cons, units_cons, List.count_cons, List.count_cons]
    omega
  | @again text longer _ ih =>
    have hunits : units (replacement :: longer) = 1 + units longer := by
      rw [units_cons, charUnits_replacement]
    have hcount : (replacement :: longer).count replacement = longer.count replacement + 1 :=
      List.count_cons_self
    omega

theorem Expands.eq_of_count_le (h : Expands text longer)
    (hcount : longer.count replacement ≤ text.count replacement) : longer = text := by
  induction h with
  | nil => rfl
  | same c _ ih =>
    rw [List.count_cons, List.count_cons] at hcount
    rw [ih (by omega)]
  | @again text longer h _ =>
    have hle := h.count_le
    rw [show (replacement :: longer).count replacement = longer.count replacement + 1 from
      List.count_cons_self] at hcount
    omega

theorem Expands.eq_of_units_le (h : Expands text longer) (hunits : units longer ≤ units text) :
    longer = text := by
  apply h.eq_of_count_le
  have hcount := h.units_add_count
  omega

theorem lines_replacement (text : List Char) :
    lines (replacement :: text) = prepend replacement (lines text) :=
  lines_eq_prepend (by decide) (fun h => absurd h (by decide))

theorem forall₂_prepend {texts longers : List (List Char)} (c : Char)
    (h : List.Forall₂ Expands texts longers) :
    List.Forall₂ Expands (prepend c texts) (prepend c longers) := by
  cases h with
  | nil => exact .cons (.same c .nil) .nil
  | cons hline hrest => exact .cons (.same c hline) hrest

theorem forall₂_prepend_again {texts longers : List (List Char)}
    (h : List.Forall₂ Expands (prepend replacement texts) longers) :
    List.Forall₂ Expands (prepend replacement texts) (prepend replacement longers) := by
  cases texts with
  | nil =>
    cases h with
    | cons hline hrest => exact .cons (.again hline) hrest
  | cons line rest =>
    cases h with
    | cons hline hrest => exact .cons (.again hline) hrest

/-- The lines repeat the replacement characters of the lines. -/
theorem Expands.lines (h : Expands text longer) :
    List.Forall₂ Expands (lines text) (lines longer) := by
  induction h with
  | nil => exact .nil
  | @same text longer c h ih =>
    rcases lines_cons_cases c text with
      ⟨rfl, hlines⟩ | ⟨rfl, hnext, hlines⟩ | ⟨hfeed, hreturn, hlines⟩
    · rw [hlines, lines_feed]
      exact .cons .nil ih
    · rw [hlines, lines_return (h.head?_eq ▸ hnext)]
      exact ih
    · rw [hlines, lines_eq_prepend hfeed (h.head?_eq ▸ hreturn)]
      exact forall₂_prepend c ih
  | again _ ih =>
    rw [lines_replacement] at ih ⊢
    rw [lines_replacement]
    exact forall₂_prepend_again ih

theorem flatten_prepend (c : Char) (texts : List (List Char)) :
    (prepend c texts).flatten = c :: texts.flatten := by
  cases texts <;> rfl

theorem count_flatten_lines (text : List Char) :
    (lines text).flatten.count replacement = text.count replacement := by
  induction text with
  | nil => rfl
  | cons c text ih =>
    rcases lines_cons_cases c text with ⟨rfl, hlines⟩ | ⟨rfl, -, hlines⟩ | ⟨-, -, hlines⟩
    · rw [hlines, List.flatten_cons, List.nil_append, ih]
      rfl
    · rw [hlines, ih]
      rfl
    · rw [hlines, flatten_prepend, List.count_cons, List.count_cons, ih]

/-- If no line has further columns, nothing is repeated. -/
theorem Expands.eq_of_lines (h : Expands text longer)
    (hunits : ∀ (k : Nat) line longerLine, (Text.lines text)[k]? = some line →
      (Text.lines longer)[k]? = some longerLine → units longerLine ≤ units line) :
    longer = text := by
  have hlines : Text.lines longer = Text.lines text := by
    apply List.ext_getElem h.lines.length_eq.symm
    intro k hlonger htext
    have hline : Expands (Text.lines text)[k] (Text.lines longer)[k] :=
      h.lines.get htext hlonger
    apply hline.eq_of_units_le
    exact hunits k _ _ (List.getElem?_eq_getElem htext) (List.getElem?_eq_getElem hlonger)
  apply h.eq_of_count_le
  rw [← count_flatten_lines longer, hlines, count_flatten_lines text]

end CodeNav.Text
