import CodeNav.Text.Units

/-! # Columns between whole characters

A text can be cut at a column exactly where a prefix of whole characters takes up so many units.
So the text between two columns is a part of the line between two such prefixes.
-/

namespace CodeNav.Text

@[simp] theorem units_append (a b : List Char) : units (a ++ b) = units a + units b := by
  induction a with
  | nil => simp
  | cons c a ih => rw [List.cons_append, units_cons, units_cons, ih, Nat.add_assoc]

theorem units_eq_zero_iff {text : List Char} : units text = 0 ↔ text = [] := by
  constructor
  · intro h
    cases text with
    | nil => rfl
    | cons c text =>
      have hc := charUnits_pos c
      rw [units_cons] at h
      omega
  · rintro rfl
    rfl

theorem cutAt?_eq_some_iff {text before after : List Char} {column : Nat} :
    cutAt? text column = some (before, after) ↔
      text = before ++ after ∧ units before = column := by
  fun_induction cutAt? text column generalizing before with
  | case1 text =>
    simp only [Option.some.injEq, Prod.mk.injEq]
    constructor
    · rintro ⟨rfl, rfl⟩
      exact ⟨rfl, rfl⟩
    · rintro ⟨rfl, h⟩
      obtain rfl := units_eq_zero_iff.mp h
      exact ⟨rfl, rfl⟩
  | case2 column =>
    simp only [reduceCtorEq, List.nil_eq_append_iff, false_iff, not_and, and_imp]
    rintro rfl rfl
    simp
  | case3 c text column hle ih =>
    simp only [Option.map_eq_some_iff, Prod.exists, Prod.mk.injEq]
    constructor
    · rintro ⟨inner, _, h, rfl, rfl⟩
      obtain ⟨rfl, hu⟩ := ih.mp h
      rw [units_cons, hu]
      exact ⟨rfl, by omega⟩
    · rintro ⟨ht, hu⟩
      cases before with
      | nil => simp at hu
      | cons d inner =>
        obtain ⟨rfl, rfl⟩ := List.cons.inj ht
        rw [units_cons] at hu
        exact ⟨inner, after, ih.mpr ⟨rfl, by omega⟩, rfl, rfl⟩
  | case4 c text column hlt =>
    simp only [reduceCtorEq, false_iff, not_and]
    intro ht hu
    cases before with
    | nil => simp at hu
    | cons d inner =>
      obtain ⟨rfl, -⟩ := List.cons.inj ht
      rw [units_cons] at hu
      omega

theorem append_eq_of_units_eq {before before' after after' : List Char}
    (h : before ++ after = before' ++ after') (hunits : units before = units before') :
    before = before' ∧ after = after' := by
  have hcut : cutAt? (before' ++ after') (units before') = some (before, after) :=
    cutAt?_eq_some_iff.mpr ⟨h.symm, hunits⟩
  have hcut' : cutAt? (before' ++ after') (units before') = some (before', after') :=
    cutAt?_eq_some_iff.mpr ⟨rfl, rfl⟩
  exact Prod.mk.inj (Option.some.inj (hcut.symm.trans hcut'))

theorem prefix_of_units_le {before before' after after' : List Char}
    (h : before ++ after = before' ++ after') (hle : units before ≤ units before') :
    before <+: before' := by
  rcases List.append_eq_append_iff.mp h with ⟨more, rfl, -⟩ | ⟨more, rfl, -⟩
  · exact List.prefix_append before more
  · rw [units_append] at hle
    obtain rfl : more = [] := units_eq_zero_iff.mp (by omega)
    exact ⟨[], by simp⟩

/-- The text between two columns lies between a prefix and a suffix of whole characters. -/
theorem slice?_eq_some_iff {line inside : List Char} {start stop : Nat} :
    slice? line start stop = some inside ↔
      ∃ before after, line = before ++ inside ++ after ∧ units before = start ∧
        units (before ++ inside) = stop := by
  simp only [slice?, Option.bind_eq_bind, Option.bind_eq_some_iff, Prod.exists,
    cutAt?_eq_some_iff]
  constructor
  · rintro ⟨before, rest, ⟨rfl, rfl⟩, front, back, ⟨-, hstop⟩, h⟩
    split at h
    · rename_i hle
      simp only [Option.bind_eq_some_iff, Prod.exists, cutAt?_eq_some_iff, Option.pure_def,
        Option.some.injEq] at h
      obtain ⟨_, after, ⟨rfl, hi⟩, rfl⟩ := h
      refine ⟨before, after, by simp, rfl, ?_⟩
      rw [units_append]
      omega
    · simp at h
  · rintro ⟨before, after, rfl, rfl, rfl⟩
    refine ⟨before, inside ++ after, ⟨by simp, rfl⟩, before ++ inside, after, ⟨rfl, rfl⟩, ?_⟩
    have hle : units before ≤ units (before ++ inside) := by
      rw [units_append]
      omega
    simp only [if_pos hle, Option.bind_eq_some_iff, Prod.exists, cutAt?_eq_some_iff,
      Option.pure_def, Option.some.injEq]
    refine ⟨inside, after, ⟨rfl, ?_⟩, rfl⟩
    rw [units_append]
    omega

end CodeNav.Text
