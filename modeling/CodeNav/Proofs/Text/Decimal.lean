import Mathlib.Order.Basic
import Mathlib.Order.Nat
import CodeNav.Text.Decimal

/-! # Decimal digits

Reading stops at the first digit that leaves the range of a word. Since no later digit makes a
number smaller, the texts that are read are exactly those whose digits write a word.
-/

namespace CodeNav.Text

variable {text digits : List Char} {c : Char} {m n : Nat}

/-- The number that digits write behind a number. -/
def valueFrom (n : Nat) (digits : List Char) : Nat :=
  digits.foldl (fun n c => n * 10 + (c.toNat - '0'.toNat)) n

/-- An unsigned 64-bit number in decimal digits, with or without a plus sign before them. -/
def IsNumeral (text : List Char) (n : Nat) : Prop :=
  ∃ digits, (text = digits ∨ text = '+' :: digits) ∧ digits ≠ [] ∧ (∀ c ∈ digits, c.isDigit) ∧
    valueFrom 0 digits = n ∧ n < wordLimit

theorem le_valueFrom (n : Nat) (digits : List Char) : n ≤ valueFrom n digits := by
  induction digits generalizing n with
  | nil => exact le_rfl
  | cons c digits ih =>
    have hstep : n ≤ n * 10 + (c.toNat - '0'.toNat) := by omega
    exact hstep.trans (ih _)

theorem appendDigit_eq_ok_iff :
    appendDigit m c = .ok n ↔
      c.isDigit ∧ m * 10 + (c.toNat - '0'.toNat) = n ∧ n < wordLimit := by
  rw [appendDigit]
  by_cases hdigit : c.isDigit = true
  · rw [if_pos hdigit]
    by_cases hword : m * 10 + (c.toNat - '0'.toNat) < wordLimit
    · rw [if_pos hword, Except.ok.injEq]
      exact ⟨fun h => ⟨hdigit, h, h ▸ hword⟩, fun h => h.2.1⟩
    · rw [if_neg hword]
      refine ⟨nofun, ?_⟩
      rintro ⟨-, rfl, hn⟩
      exact absurd hn hword
  · rw [if_neg hdigit]
    exact ⟨nofun, fun h => absurd h.1 hdigit⟩

theorem foldlM_appendDigit_eq_ok_iff (hm : m < wordLimit) :
    digits.foldlM appendDigit m = .ok n ↔
      (∀ c ∈ digits, c.isDigit) ∧ valueFrom m digits = n ∧ n < wordLimit := by
  induction digits generalizing m with
  | nil =>
    constructor
    · rintro ⟨⟩
      exact ⟨by simp, rfl, hm⟩
    · rintro ⟨-, rfl, -⟩
      rfl
  | cons c digits ih =>
    rw [List.foldlM_cons, List.forall_mem_cons]
    constructor
    · intro h
      cases hc : appendDigit m c with
      | error cause => rw [hc] at h; cases h
      | ok next =>
        obtain ⟨hdigit, rfl, hnext⟩ := appendDigit_eq_ok_iff.mp hc
        rw [hc] at h
        obtain ⟨hdigits, hvalue, hn⟩ := (ih hnext).mp h
        exact ⟨⟨hdigit, hdigits⟩, hvalue, hn⟩
    · rintro ⟨⟨hdigit, hdigits⟩, hvalue, hn⟩
      -- the number so far is no greater than the whole one, so this step is in range
      have hnext : m * 10 + (c.toNat - '0'.toNat) < wordLimit :=
        (le_valueFrom _ digits).trans_lt (lt_of_eq_of_lt hvalue hn)
      rw [appendDigit_eq_ok_iff.mpr ⟨hdigit, rfl, hnext⟩]
      exact (ih hnext).mpr ⟨hdigits, hvalue, hn⟩

theorem readNumber_eq_ok_iff : readNumber text = .ok n ↔ IsNumeral text n := by
  have hfold (digits : List Char) : digits.foldlM appendDigit 0 = .ok n ↔
      (∀ c ∈ digits, c.isDigit) ∧ valueFrom 0 digits = n ∧ n < wordLimit :=
    foldlM_appendDigit_eq_ok_iff (by decide)
  have hplus : '+'.isDigit = false := by decide
  constructor
  · intro h
    unfold readNumber at h
    split at h
    · cases h
    · cases h
    · next digits hne => exact ⟨digits, .inr rfl, hne, (hfold digits).mp h⟩
    · next hnil _ _ => exact ⟨text, .inl rfl, hnil, (hfold text).mp h⟩
  · rintro ⟨digits, rfl | rfl, hnil, hdigits, hvalue⟩
    · unfold readNumber
      split
      · exact absurd rfl hnil
      · simp [hplus] at hdigits
      · simp [hplus] at hdigits
      · exact (hfold _).mpr ⟨hdigits, hvalue⟩
    · unfold readNumber
      split
      · next h => cases h
      · next h => cases h; exact absurd rfl hnil
      · next h => cases h; exact (hfold _).mpr ⟨hdigits, hvalue⟩
      · next h => exact (h digits rfl).elim

theorem IsNumeral.unique (h : IsNumeral text m) (h' : IsNumeral text n) : m = n :=
  Except.ok.inj ((readNumber_eq_ok_iff.mpr h).symm.trans (readNumber_eq_ok_iff.mpr h'))

end CodeNav.Text
