import CodeNav.Json.Printer
import CodeNav.Json.Token

/-! # Strings and integers read back

A string is read back from its quoted form character by character, and an exact integer from its
decimal digits.
-/

namespace CodeNav.Json

namespace Token

variable {n : Nat} {c e : Char}

/-- The text is read as one piece of a string that stands for the character. -/
def Spells (escaped : List Char) (c : Char) : Prop :=
  ∃ piece, (∀ text, takeString? (escaped ++ text) =
      (takeString? text).map fun (pieces, rest) => (piece :: pieces, rest)) ∧
    ∀ pieces, joinPieces (piece :: pieces) = (joinPieces pieces).map (c :: ·)

theorem spells_letter (h : unescape? e = some c) (hu : e ≠ 'u') : Spells ['\\', e] c := by
  refine ⟨.char c, fun text => ?_, fun pieces => rfl⟩
  rw [List.cons_append, List.singleton_append, takeString?, h]
  · cases takeString? text <;> rfl
  · rintro _ _ _ _ _ rfl
    exact absurd rfl hu

theorem joinPieces_unit (hhigh : isHighSurrogate n = false) (hlow : isLowSurrogate n = false)
    (pieces : List Piece) :
    joinPieces (.unit n :: pieces) = (joinPieces pieces).map (Char.ofNat n :: ·) := by
  cases pieces with
  | nil => simp [joinPieces, hhigh, hlow]
  | cons piece pieces => cases piece <;> simp [joinPieces, hhigh, hlow]

theorem hexUnit?_of_lt :
    ∀ n < 0x20, hexUnit? '0' '0' (hexDigitOf (n / 16)) (hexDigitOf (n % 16)) = some n := by
  decide

theorem spells_unit (h : c.toNat < 0x20) :
    Spells ['\\', 'u', '0', '0', hexDigitOf (c.toNat / 16), hexDigitOf (c.toNat % 16)] c := by
  have hhigh : isHighSurrogate c.toNat = false := by simp [isHighSurrogate]; omega
  have hlow : isLowSurrogate c.toNat = false := by simp [isLowSurrogate]; omega
  refine ⟨.unit c.toNat, fun text => ?_, fun pieces => ?_⟩
  · simp only [List.cons_append, List.nil_append, takeString?, hexUnit?_of_lt _ h]
    cases takeString? text <;> rfl
  · rw [joinPieces_unit hhigh hlow, Char.ofNat_toNat]

theorem spells_self (hquote : c ≠ '"') (hbackslash : c ≠ '\\') (h : ¬ c.toNat < 0x20) :
    Spells [c] c := by
  refine ⟨.char c, fun text => ?_, fun pieces => rfl⟩
  rw [List.singleton_append, takeString?]
  · simp [hbackslash, h]
  all_goals simp [hquote, hbackslash]

theorem spells_escape (c : Char) : Spells (escape c) c := by
  unfold escape
  split
  · exact spells_letter rfl (by decide)
  · exact spells_letter rfl (by decide)
  · exact spells_letter rfl (by decide)
  · exact spells_letter rfl (by decide)
  · exact spells_letter rfl (by decide)
  · exact spells_letter rfl (by decide)
  · exact spells_letter rfl (by decide)
  · next hquote hbackslash _ _ _ _ _ =>
    split
    · next h => exact spells_unit h
    · next h => exact spells_self hquote hbackslash h

/-- A string is read up to its closing quote. -/
theorem takeString?_escaped (s rest : List Char) :
    ∃ pieces, takeString? (s.flatMap escape ++ '"' :: rest) = some (pieces, rest) ∧
      joinPieces pieces = some s := by
  induction s with
  | nil => exact ⟨[], rfl, rfl⟩
  | cons c s ih =>
    obtain ⟨pieces, htake, hjoin⟩ := ih
    obtain ⟨piece, hspells, hpiece⟩ := spells_escape c
    refine ⟨piece :: pieces, ?_, ?_⟩
    · rw [List.flatMap_cons, List.append_assoc, hspells, htake]
      rfl
    · rw [hpiece, hjoin]
      rfl

theorem take?_quoted (s : String) (rest : List Char) :
    take? (quoted s ++ rest) = some (string (some s), rest) := by
  obtain ⟨pieces, htake, hjoin⟩ := takeString?_escaped s.toList rest
  rw [quoted, List.cons_append, List.append_assoc, List.singleton_append, take?, htake]
  simp [hjoin]

end Token

namespace Numeral

def digits (n : Nat) : List Nat := (Nat.toDigits 10 n).map digitValue

theorem digits_of_lt {n : Nat} (h : n < 10) : digits n = [n] := by
  simp [digits, Nat.toDigits_of_lt_base h, digitValue, Nat.toNat_digitChar_of_lt_ten h]

theorem digits_of_le {n : Nat} (h : 10 ≤ n) : digits n = digits (n / 10) ++ [n % 10] := by
  have hlt : n % 10 < 10 := Nat.mod_lt n (by decide)
  simp [digits, Nat.toDigits_of_base_le (by decide) h, digitValue,
    Nat.toNat_digitChar_of_lt_ten hlt]

theorem ofDigits_digits (n : Nat) : ofDigits (digits n) = n := by
  induction n using Nat.strongRecOn with
  | ind n ih =>
    by_cases h : n < 10
    · simp [digits_of_lt h, ofDigits]
    · have hdiv := ih (n / 10) (by omega)
      rw [digits_of_le (by omega), ofDigits, List.foldl_append]
      rw [ofDigits] at hdiv
      rw [hdiv]
      simp only [List.foldl_cons, List.foldl_nil]
      omega

theorem digits_ne_nil (n : Nat) : digits n ≠ [] := by simp [digits]

theorem head?_digits {n : Nat} (h : n ≠ 0) : (digits n).head? ≠ some 0 := by
  induction n using Nat.strongRecOn with
  | ind n ih =>
    by_cases hlt : n < 10
    · simpa [digits_of_lt hlt] using h
    · obtain ⟨digit, rest, hdigits⟩ := List.exists_cons_of_ne_nil (digits_ne_nil (n / 10))
      have hdiv := ih (n / 10) (by omega) (by omega)
      rw [digits_of_le (by omega), hdigits]
      rwa [hdigits] at hdiv

theorem no_leading_zero (n : Nat) :
    ((digits n).head? == some 0 && decide (1 < (digits n).length)) = false := by
  by_cases h : n = 0
  · subst h
    rfl
  · simp [head?_digits h]

theorem isDigit_of_mem {c : Char} {n : Nat} (h : c ∈ Nat.toDigits 10 n) : c.isDigit = true :=
  Nat.isDigit_of_mem_toDigits (by decide) (by decide) h

theorem takeDigits_toDigits (n : Nat) : takeDigits (Nat.toDigits 10 n) = (digits n, []) := by
  have hdigit : ∀ c ∈ Nat.toDigits 10 n, c.isDigit = true := fun c => isDigit_of_mem
  have htake : (Nat.toDigits 10 n ++ []).takeWhile Char.isDigit = Nat.toDigits 10 n ++ [] :=
    List.takeWhile_append_of_pos hdigit
  have hdrop : (Nat.toDigits 10 n ++ []).dropWhile Char.isDigit = [] :=
    List.dropWhile_append_of_pos hdigit
  rw [List.append_nil] at htake hdrop
  rw [takeDigits, htake, hdrop]
  rfl

def integerText (negative : Bool) (n : Nat) : List Char :=
  if negative then '-' :: Nat.toDigits 10 n else Nat.toDigits 10 n

theorem parse?_integerText (negative : Bool) (n : Nat) :
    parse? (integerText negative n) = some ⟨negative, digits n, none, none⟩ := by
  have hempty : (digits n).isEmpty = false := by simp [digits_ne_nil]
  cases negative with
  | true =>
    simp [integerText, parse?, takeDigits_toDigits, hempty, no_leading_zero, takeFraction?,
      takeExponent?]
  | false =>
    have hminus : ∀ text, Nat.toDigits 10 n ≠ '-' :: text := by
      intro text htext
      have hdigit : '-'.isDigit = true := isDigit_of_mem (htext ▸ List.mem_cons_self)
      exact absurd hdigit (by decide)
    simp only [integerText, Bool.false_eq_true, if_false]
    unfold parse?
    split
    next negative text hmatch =>
      split at hmatch
      · next htext => exact absurd htext (hminus _)
      · obtain ⟨rfl, rfl⟩ := Prod.mk.inj hmatch
        simp [takeDigits_toDigits, hempty, no_leading_zero, takeFraction?, takeExponent?]

theorem isNumeralChar_of_mem {negative : Bool} {n : Nat} {c : Char}
    (h : c ∈ integerText negative n) : Token.isNumeralChar c = true := by
  have hdigit (hc : c ∈ Nat.toDigits 10 n) : Token.isNumeralChar c = true := by
    simp [Token.isNumeralChar, isDigit_of_mem hc]
  cases negative with
  | true =>
    rcases List.mem_cons.mp h with rfl | hc
    · rfl
    · exact hdigit hc
  | false => exact hdigit h

theorem number?_digits {n : Nat} {negative : Bool} {value : Int} (exact : ExactInteger value)
    (hvalue : value = if negative then -(n : Int) else n) (hzero : negative → n ≠ 0) :
    number? ⟨negative, digits n, none, none⟩ = some (.integer value exact) := by
  have hintegral : (!(negative && value == 0)) = true := by
    cases negative with
    | false => rfl
    | true => simpa [hvalue] using hzero rfl
  simp only [number?, ofDigits_digits, ← hvalue, Option.isNone_none, Bool.true_and, hintegral,
    true_and, exact, dif_pos]

end Numeral

theorem Numeral.exists_integerText (value : Int) :
    ∃ negative n, (toString value).toList = integerText negative n ∧
      value = (if negative then -(n : Int) else n) ∧ (negative → n ≠ 0) := by
  cases value with
  | ofNat n => exact ⟨false, n, Nat.toList_repr, rfl, by simp⟩
  | negSucc n =>
    refine ⟨true, n + 1, ?_, rfl, by simp⟩
    exact (String.toList_append ..).trans (congrArg ('-' :: ·) Nat.toList_repr)

def EndsNumeral (text : List Char) : Prop := ∀ c ∈ text.head?, Token.isNumeralChar c = false

theorem Token.take?_of_numeral {c : Char} (hc : c.isDigit = true ∨ c = '-') (text : List Char) :
    take? (c :: text) =
      (Numeral.parse? ((c :: text).takeWhile isNumeralChar)).map fun numeral =>
        (number numeral.number?, (c :: text).dropWhile isNumeralChar) := by
  have hstart : (c.isDigit || c == '-') = true := by simpa using hc
  have hne {d : Char} (hd : (d.isDigit || d == '-') = false) : c ≠ d := by
    rintro rfl
    simp [hstart] at hd
  rw [take?]
  · rw [if_pos hstart]
    cases Numeral.parse? ((c :: text).takeWhile isNumeralChar) <;> rfl
  all_goals simp [hne]

theorem Numeral.exists_cons_integerText (negative : Bool) (n : Nat) :
    ∃ c text, integerText negative n = c :: text ∧ (c.isDigit = true ∨ c = '-') := by
  cases negative with
  | true => exact ⟨_, _, rfl, .inr rfl⟩
  | false =>
    obtain ⟨c, text, htext⟩ := List.exists_cons_of_ne_nil (Nat.toDigits_ne_nil (n := n) (b := 10))
    exact ⟨c, text, htext, .inl (isDigit_of_mem (htext ▸ List.mem_cons_self))⟩

theorem Token.take?_integer (value : Int) (exact : ExactInteger value) {rest : List Char}
    (hrest : EndsNumeral rest) :
    take? (Number.written (.integer value exact) ++ rest) =
      some (number (some (.integer value exact)), rest) := by
  obtain ⟨negative, n, htext, hvalue, hzero⟩ := Numeral.exists_integerText value
  have hchars : ∀ c ∈ Numeral.integerText negative n, isNumeralChar c = true := fun c =>
    Numeral.isNumeralChar_of_mem
  have hstop : rest.takeWhile isNumeralChar = [] ∧ rest.dropWhile isNumeralChar = rest := by
    cases rest with
    | nil => simp
    | cons c rest => simp [hrest c rfl]
  have htake : (Numeral.integerText negative n ++ rest).takeWhile isNumeralChar =
      Numeral.integerText negative n := by
    rw [List.takeWhile_append_of_pos hchars, hstop.1, List.append_nil]
  have hdrop : (Numeral.integerText negative n ++ rest).dropWhile isNumeralChar = rest := by
    rw [List.dropWhile_append_of_pos hchars, hstop.2]
  obtain ⟨c, text, hcons, hc⟩ := Numeral.exists_cons_integerText negative n
  rw [Number.written, htext]
  rw [hcons] at htake hdrop ⊢
  rw [List.cons_append] at htake hdrop ⊢
  rw [take?_of_numeral hc, htake, hdrop, ← hcons, Numeral.parse?_integerText]
  simp [Numeral.number?_digits exact hvalue hzero]

end CodeNav.Json
