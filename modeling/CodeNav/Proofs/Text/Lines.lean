import CodeNav.Text.Lines

/-! # Lines and their ends

A text can hold the same lines with a line feed after some of them, and a carriage return and a line
feed after others. Whatever ends the lines, they are read back. Every text holds the lines that are
read from it.
-/

namespace CodeNav.Text

variable {c : Char} {line text first : List Char} {others : List (List Char)}

def terminators : List (List Char) := [['\n'], ['\r', '\n']]

/-- A text holds lines that each have an end of their own. The last one may lack its end if it is
not empty. -/
inductive Holds : List Char → List (List Char) → Prop where
  | nil : Holds [] []
  | unended {line : List Char} (h : line ≠ []) : Holds line [line]
  | cons {line terminator text : List Char} {lines : List (List Char)}
      (hend : terminator ∈ terminators) (h : Holds text lines) :
      Holds (line ++ (terminator ++ text)) (line :: lines)

/-- A line holds no line feed, and no carriage return at its end. -/
def IsLine (line : List Char) : Prop := '\n' ∉ line ∧ line.getLast? ≠ some '\r'

instance : Decidable (IsLine line) := inferInstanceAs (Decidable (_ ∧ _))

def prepend (c : Char) : List (List Char) → List (List Char)
  | [] => [[c]]
  | line :: rest => (c :: line) :: rest

theorem lines_eq_prepend (hfeed : c ≠ '\n') (hreturn : c = '\r' → text.head? ≠ some '\n') :
    lines (c :: text) = prepend c (lines text) := by
  rw [lines.eq_4 c text hfeed]
  · rfl
  · rintro rest rfl rfl
    exact hreturn rfl rfl

theorem lines_feed (text : List Char) : lines ('\n' :: text) = [] :: lines text := by
  rw [lines]

/-- A carriage return that a line feed takes along makes no difference. -/
theorem lines_return (h : text.head? = some '\n') : lines ('\r' :: text) = lines text := by
  obtain ⟨rest, rfl⟩ := List.head?_eq_some_iff.mp h
  rw [lines_feed, lines]

theorem lines_cons_cases (c : Char) (text : List Char) :
    c = '\n' ∧ lines (c :: text) = [] :: lines text ∨
      c = '\r' ∧ text.head? = some '\n' ∧ lines (c :: text) = lines text ∨
        c ≠ '\n' ∧ (c = '\r' → text.head? ≠ some '\n') ∧
          lines (c :: text) = prepend c (lines text) := by
  by_cases hfeed : c = '\n'
  · exact .inl ⟨hfeed, hfeed ▸ lines_feed text⟩
  · by_cases hreturn : c = '\r' ∧ text.head? = some '\n'
    · obtain ⟨rfl, hnext⟩ := hreturn
      exact .inr (.inl ⟨rfl, hnext, lines_return hnext⟩)
    · have hnext : c = '\r' → text.head? ≠ some '\n' := fun hc hnext => hreturn ⟨hc, hnext⟩
      exact .inr (.inr ⟨hfeed, hnext, lines_eq_prepend hfeed hnext⟩)

theorem lines_cons (hfeed : c ≠ '\n') (hreturn : c = '\r' → text.head? ≠ some '\n')
    (h : lines text = first :: others) : lines (c :: text) = (c :: first) :: others := by
  rw [lines_eq_prepend hfeed hreturn, h]
  rfl

theorem lines_append (hfeed : '\n' ∉ line)
    (hreturn : line.getLast? = some '\r' → text.head? ≠ some '\n')
    (h : lines text = first :: others) : lines (line ++ text) = (line ++ first) :: others := by
  induction line with
  | nil => exact h
  | cons c line ih =>
    rw [List.mem_cons, not_or] at hfeed
    cases line with
    | nil =>
      refine lines_cons (Ne.symm hfeed.1) ?_ h
      rintro rfl
      exact hreturn rfl
    | cons d line =>
      refine lines_cons (Ne.symm hfeed.1) ?_ (ih hfeed.2 hreturn)
      intro _ hnext
      obtain rfl : d = '\n' := Option.some.inj hnext
      exact hfeed.2 List.mem_cons_self

theorem lines_ended {terminator : List Char} (hline : IsLine line)
    (hend : terminator ∈ terminators) :
    lines (line ++ (terminator ++ text)) = line :: lines text := by
  have hempty : lines (terminator ++ text) = [] :: lines text := by
    simp only [terminators, List.mem_cons, List.not_mem_nil, or_false] at hend
    rcases hend with rfl | rfl <;> rfl
  rw [lines_append hline.1 (fun hreturn => absurd hreturn hline.2) hempty, List.append_nil]

theorem lines_unended (hline : '\n' ∉ line) (hne : line ≠ []) : lines line = [line] := by
  obtain ⟨before, c, rfl⟩ := List.eq_nil_or_concat line |>.resolve_left hne
  rw [List.concat_eq_append, List.mem_append, List.mem_singleton, not_or] at hline
  have hlast : lines [c] = [[c]] := by
    rw [lines.eq_4 c [] (Ne.symm hline.2) (by simp), lines]
  rw [List.concat_eq_append]
  refine lines_append hline.1 (fun _ hnext => hline.2 ?_) hlast
  exact (Option.some.inj hnext).symm

/-- The lines that a text holds are read back from it. -/
theorem lines_of_holds {lines : List (List Char)} (h : Holds text lines)
    (hlines : ∀ line ∈ lines, IsLine line) : Text.lines text = lines := by
  induction h with
  | nil => rfl
  | unended hne => exact lines_unended (hlines _ List.mem_cons_self).1 hne
  | cons hend _ ih =>
    rw [lines_ended (hlines _ List.mem_cons_self) hend,
      ih fun line hmem => hlines line (List.mem_cons_of_mem _ hmem)]

theorem Holds.prepend {lines : List (List Char)} (h : Holds text lines) (c : Char) :
    Holds (c :: text) (Text.prepend c lines) := by
  cases h with
  | nil => exact .unended (List.cons_ne_nil c [])
  | unended _ => exact .unended (List.cons_ne_nil c text)
  | @cons line _ _ _ hend hrest => exact @Holds.cons (c :: line) _ _ _ hend hrest

/-- A text holds the lines that are read from it. -/
theorem holds_lines (text : List Char) : Holds text (Text.lines text) := by
  fun_induction Text.lines text with
  | case1 => exact .nil
  | case2 text ih => exact @Holds.cons [] ['\n'] _ _ (by decide) ih
  | case3 text ih => exact @Holds.cons [] ['\r', '\n'] _ _ (by decide) ih
  | case4 c text _ _ hnone ih =>
    rw [hnone] at ih
    exact ih.prepend c
  | case5 c text _ _ first others hsome ih =>
    rw [hsome] at ih
    exact ih.prepend c

end CodeNav.Text
