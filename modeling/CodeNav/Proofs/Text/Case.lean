import CodeNav.Text.Lower

/-! # Prefixes without regard to case

Comparing a text with the start of another one character by character, in their lowered forms, is
the same as asking whether one lowered text is a prefix of the other.
-/

namespace CodeNav.Text

/-- Removing characters one by one succeeds exactly on texts that start with them. -/
theorem foldlM_drop_eq_some_iff {start text rest : List Char} :
    start.foldlM (fun (text : List Char) d =>
      match text with
      | [] => none
      | e :: text => if e = d then some text else none) text = some rest ↔
      text = start ++ rest := by
  induction start generalizing text with
  | nil => simp
  | cons d start ih =>
    simp only [List.foldlM_cons, Option.bind_eq_bind]
    cases text with
    | nil => simp
    | cons e text =>
      by_cases he : e = d
      · simp [he, ih]
      · simp [he]

theorem dropLowered?_eq_some_iff {table : Char → List Char} {lowered text rest : List Char} :
    dropLowered? table lowered text = some rest ↔ lowered = text.flatMap table ++ rest := by
  induction text generalizing lowered with
  | nil => simp [dropLowered?]
  | cons c text ih =>
    simp only [dropLowered?, List.foldlM_cons, Option.bind_eq_bind, Option.bind_eq_some_iff,
      List.flatMap_cons, List.append_assoc]
    constructor
    · rintro ⟨next, hc, h⟩
      rw [foldlM_drop_eq_some_iff.mp hc, ih.mp h]
    · rintro rfl
      exact ⟨_, foldlM_drop_eq_some_iff.mpr rfl, ih.mpr rfl⟩

theorem startsWithLowered_iff {table : Char → List Char} {text start : List Char} :
    startsWithLowered table text start = true ↔ start.flatMap table <+: text.flatMap table := by
  rw [startsWithLowered, Option.isSome_iff_exists]
  simp only [dropLowered?_eq_some_iff]
  exact ⟨fun ⟨rest, h⟩ => ⟨rest, h.symm⟩, fun ⟨rest, h⟩ => ⟨rest, h.symm⟩⟩

theorem startsWithIgnoringCase_iff {text start : List Char} :
    startsWithIgnoringCase text start = true ↔ start.flatMap lower <+: text.flatMap lower :=
  startsWithLowered_iff

end CodeNav.Text
