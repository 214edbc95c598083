import Mathlib.Data.List.TakeWhile
import CodeNav.Identifier
import CodeNav.Proofs.Criterion

/-! # What stands at a column

The identifier at a column is made of letters and digits. It is the word that begins there, if no
letter comes before the word and no letter or digit after it.
-/

namespace CodeNav

variable {line word before after : List Char} {column : Nat}

namespace Text

/-- A word starts with a letter and goes on with letters and digits. -/
def IsWord : List Char → Prop
  | [] => False
  | first :: rest => isLetter first ∧ ∀ c ∈ rest, isLetterOrDigit c

theorem isLetterOrDigit_of_isLetter {c : Char} (h : isLetter c) : isLetterOrDigit c := by
  rw [isLetterOrDigit, h, Bool.true_or]

theorem IsWord.ne_nil (h : IsWord word) : word ≠ [] := by
  rintro rfl
  exact h

theorem IsWord.isLetterOrDigit (h : IsWord word) : ∀ c ∈ word, isLetterOrDigit c := by
  cases word with
  | nil => exact h.elim
  | cons first rest =>
    intro c hc
    rcases List.mem_cons.mp hc with rfl | hc
    · exact isLetterOrDigit_of_isLetter h.1
    · exact h.2 c hc

theorem takeWhile_eq_nil {p : Char → Bool} {text : List Char} (h : text.head?.any p = false) :
    text.takeWhile p = [] := by
  cases text with
  | nil => rfl
  | cons c text =>
    rw [List.takeWhile_cons_of_neg]
    simpa using h

theorem takeWhile_append_of_apart {p : Char → Bool} {run rest : List Char}
    (hall : ∀ c ∈ run, p c) (hrest : rest.head?.any p = false) :
    (run ++ rest).takeWhile p = run := by
  rw [List.takeWhile_append_of_pos hall, takeWhile_eq_nil hrest, List.append_nil]

end Text

/-- The letters before the column and the letters and digits from it on, if there are any. -/
theorem identifierAt?_eq_some_iff :
    identifierAt? line column = some word ↔
      isLineComment line = false ∧ word ≠ [] ∧ ∃ before after,
        Text.cutAt? line (min column (Text.units line)) = some (before, after) ∧
        word = (before.reverse.takeWhile Text.isLetter).reverse ++
          after.takeWhile Text.isLetterOrDigit := by
  unfold identifierAt?
  split
  · rename_i hcomment
    simp [hcomment]
  · rename_i hcomment
    cases hcut : Text.cutAt? line (min column (Text.units line)) with
    | none => simp
    | some parts =>
      obtain ⟨before, after⟩ := parts
      simp only [List.isEmpty_iff, Bool.not_eq_true] at hcomment ⊢
      constructor
      · intro h
        split at h
        · cases h
        · rename_i hne
          obtain rfl := Option.some.inj h
          exact ⟨hcomment, hne, before, after, rfl, rfl⟩
      · rintro ⟨-, hne, _, _, ⟨⟩, rfl⟩
        rw [if_neg hne]

theorem isLetterOrDigit_of_mem_identifierAt? {c : Char} (h : identifierAt? line column = some word)
    (hc : c ∈ word) : Text.isLetterOrDigit c := by
  obtain ⟨-, -, before, after, -, rfl⟩ := identifierAt?_eq_some_iff.mp h
  rcases List.mem_append.mp hc with hc | hc
  · exact Text.isLetterOrDigit_of_isLetter (List.mem_takeWhile_imp (List.mem_reverse.mp hc))
  · exact List.mem_takeWhile_imp hc

theorem isLetterOrDigit_of_mem_identifierIn? {text : List Char} {number : Nat} {c : Char}
    (h : identifierIn? text number column = some word) (hc : c ∈ word) :
    Text.isLetterOrDigit c := by
  obtain ⟨line, -, hline⟩ := Option.bind_eq_some_iff.mp h
  exact isLetterOrDigit_of_mem_identifierAt? hline hc

theorem identifierAt?_of_apart (hline : line = before ++ word ++ after)
    (hcomment : isLineComment line = false) (hword : Text.IsWord word)
    (hbefore : before.getLast?.any Text.isLetter = false)
    (hafter : after.head?.any Text.isLetterOrDigit = false) :
    identifierAt? line (Text.units before) = some word := by
  have hcolumn : min (Text.units before) (Text.units line) = Text.units before := by
    rw [hline, Text.units_append, Text.units_append]
    omega
  have hcut : Text.cutAt? line (min (Text.units before) (Text.units line)) =
      some (before, word ++ after) := by
    rw [hcolumn]
    apply Text.cutAt?_eq_some_iff.mpr
    exact ⟨by rw [hline, List.append_assoc], rfl⟩
  have hletters : before.reverse.takeWhile Text.isLetter = [] := by
    apply Text.takeWhile_eq_nil
    rwa [List.head?_reverse]
  have hrest : (word ++ after).takeWhile Text.isLetterOrDigit = word :=
    Text.takeWhile_append_of_apart hword.isLetterOrDigit hafter
  apply identifierAt?_eq_some_iff.mpr
  refine ⟨hcomment, hword.ne_nil, before, word ++ after, hcut, ?_⟩
  rw [hletters, hrest, List.reverse_nil, List.nil_append]

end CodeNav
