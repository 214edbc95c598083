import CodeNav.Proofs.Placement.Extent

/-! # Conventions of one width

A convention counts by the width of its line ends only, and the first convention of a width is tried
before all others of it. So two lists of conventions give the same result for every file exactly if
the same widths come up in them, in the same order.
-/

namespace CodeNav

/-- The widths of conventions, each at the place where it comes up first. -/
def LineEnding.firstWidths : List LineEnding → List Nat
  | [] => []
  | ending :: endings => ending.width :: (firstWidths endings).filter (· ≠ ending.width)

namespace Placement

open LineEnding

variable {endings other before after : List LineEnding} {ending earlier : LineEnding}
  {criterion : Criterion} {path : String} {lines : List (List Char)} {hit : Hit} {k : Nat}

/-- Whatever the hits and the file, the two lists of conventions give the same result. -/
def Agree (endings other : List LineEnding) : Prop :=
  ∀ criterion path hits lines,
    ofLines endings criterion path hits lines = ofLines other criterion path hits lines

theorem symbolAt?_of_width (h : ending.width = earlier.width) :
    symbolAt? criterion path lines hit k ending =
      symbolAt? criterion path lines hit k earlier := by
  have hstart : lineStart lines ending k = lineStart lines earlier k := by
    rw [lineStart, lineStart, h]
  have hsymbol : symbolOf path lines hit k ending = symbolOf path lines hit k earlier := by
    funext accepted
    rw [symbolOf, hstart, symbolOf]
  rw [symbolAt?, hstart, hsymbol, symbolAt?]

def symbolOfWidth? (criterion : Criterion) (path : String) (lines : List (List Char)) (hit : Hit)
    (k width : Nat) : Option Symbol :=
  symbolAt? criterion path lines hit k (if width = LineEnding.lf.width then .lf else .crlf)

theorem symbolOfWidth?_width (ending : LineEnding) :
    symbolOfWidth? criterion path lines hit k ending.width =
      symbolAt? criterion path lines hit k ending :=
  symbolAt?_of_width (by cases ending <;> rfl)

theorem findSome?_filter_ne {α β : Type} [DecidableEq α] {search : α → Option β} {a : α}
    (h : search a = none) (list : List α) :
    (list.filter (· ≠ a)).findSome? search = list.findSome? search := by
  induction list with
  | nil => rfl
  | cons b list ih =>
    by_cases hb : b = a
    · rw [List.filter_cons_of_neg (by simpa using hb), ih, hb, List.findSome?_cons, h]
    · rw [List.filter_cons_of_pos (by simpa using hb), List.findSome?_cons, List.findSome?_cons, ih]

/-- A later convention of the same width accepts nothing that the first one refused. -/
theorem findSome?_firstWidths {β : Type} (search : Nat → Option β) (endings : List LineEnding) :
    (firstWidths endings).findSome? search =
      endings.findSome? fun ending => search ending.width := by
  induction endings with
  | nil => rfl
  | cons ending endings ih =>
    rw [firstWidths, List.findSome?_cons, List.findSome?_cons]
    cases hsearch : search ending.width with
    | some found => rfl
    | none => rw [findSome?_filter_ne hsearch, ih]

theorem placeOn?_eq_findSome?_firstWidths :
    placeOn? endings criterion path lines hit k =
      (firstWidths endings).findSome? (symbolOfWidth? criterion path lines hit k) := by
  rw [findSome?_firstWidths, placeOn?]
  simp only [symbolOfWidth?_width]

theorem agree_of_placeOn? (h : ∀ criterion path lines hit k,
    placeOn? endings criterion path lines hit k = placeOn? other criterion path lines hit k) :
    Agree endings other := by
  intro criterion path hits lines
  have hlocate : ∀ hit, locate? endings criterion path lines hit =
      locate? other criterion path lines hit := by
    intro hit
    rw [locate?, place?, funext (h criterion path lines hit), locate?, place?]
  have hsymbols : (ofLines endings criterion path hits lines).symbols =
      (ofLines other criterion path hits lines).symbols := by
    rw [symbols_ofLines, symbols_ofLines, funext hlocate]
  have hscanned : (ofLines endings criterion path hits lines).linesScanned =
      (ofLines other criterion path hits lines).linesScanned := by
    refine eq_of_forall_lt_iff fun n => ?_
    simp only [lt_linesScanned_ofLines_iff, h]
  exact congrArg₂ Placement.mk hsymbols hscanned

theorem agree_of_firstWidths (h : firstWidths endings = firstWidths other) :
    Agree endings other :=
  agree_of_placeOn? fun criterion path lines hit k => by
    rw [placeOn?_eq_findSome?_firstWidths, h, placeOn?_eq_findSome?_firstWidths]

theorem agree_insert (hearlier : earlier ∈ before) (hwidth : ending.width = earlier.width) :
    Agree (before ++ ending :: after) (before ++ after) := by
  refine agree_of_placeOn? fun criterion path lines hit k => ?_
  rw [placeOn?_append, placeOn?_append]
  cases hfound : placeOn? before criterion path lines hit k with
  | some symbol => rfl
  | none =>
    have hnone : symbolAt? criterion path lines hit k ending = none := by
      rw [symbolAt?_of_width hwidth]
      exact List.findSome?_eq_none_iff.mp hfound earlier hearlier
    rw [placeOn?, List.findSome?_cons, hnone, placeOn?]

theorem Agree.place?_eq (h : Agree endings other) :
    place? endings criterion path lines hit = place? other criterion path lines hit := by
  have hsymbols := congrArg Placement.symbols (h criterion path [hit] lines)
  rw [symbols_ofLines_singleton, symbols_ofLines_singleton] at hsymbols
  simpa using congrArg List.head? hsymbols

/-- One list of conventions for each order in which widths can come up. -/
def representatives : List (List LineEnding) := [[], [.lf], [.crlf], [.lf, .crlf], [.crlf, .lf]]

theorem exists_representative (endings : List LineEnding) :
    ∃ representative ∈ representatives, firstWidths representative = firstWidths endings := by
  induction endings with
  | nil => exact ⟨[], by decide, rfl⟩
  | cons ending endings ih =>
    obtain ⟨representative, hmem, hwidths⟩ := ih
    have hcons : ∀ rest ∈ representatives, ∃ representative ∈ representatives,
        firstWidths representative = firstWidths (ending :: rest) := by
      cases ending <;> decide
    obtain ⟨result, hresult, heq⟩ := hcons representative hmem
    exact ⟨result, hresult, by rw [heq, firstWidths, hwidths, firstWidths]⟩

/-- A file that tells the representatives apart: its second line starts at offset 2 with line feeds
and at offset 3 with carriage returns before them. -/
def probe : List (List Char) := [['x'], ['a', 'a', 'a', 'a']]

/-- Offset 2 lies on the second line with line feeds only, offset 6 with carriage returns only, and
offset 4 with both. -/
theorem eq_of_place?_probe : ∀ endings ∈ representatives, ∀ other ∈ representatives,
    (∀ offset ∈ [2, 4, 6], place? endings letterCriterion "a.cs" probe ⟨"a.cs", offset, 1⟩ =
      place? other letterCriterion "a.cs" probe ⟨"a.cs", offset, 1⟩) → endings = other := by
  decide +kernel

theorem firstWidths_eq_of_agree (h : Agree endings other) :
    firstWidths endings = firstWidths other := by
  obtain ⟨representative, hmem, hwidths⟩ := exists_representative endings
  obtain ⟨representative', hmem', hwidths'⟩ := exists_representative other
  have hagree : Agree representative representative' := by
    intro criterion path hits lines
    rw [agree_of_firstWidths hwidths, h, ← agree_of_firstWidths hwidths']
  have heq : representative = representative' :=
    eq_of_place?_probe _ hmem _ hmem' fun offset _ => hagree.place?_eq
  rw [← hwidths, heq, hwidths']

/-- Lists of conventions give the same symbols and read the same lines, for every file, criterion
and list of hits, exactly if the same widths come up in them in the same order. So a carriage return
after a line feed, or a convention for the second time, changes nothing. -/
theorem agree_iff_firstWidths :
    (∀ endings other, Agree endings other ↔ firstWidths endings = firstWidths other) ∧
      ∀ before after,
        (.lf ∈ before → Agree (before ++ .cr :: after) (before ++ after)) ∧
          ∀ ending ∈ before, Agree (before ++ ending :: after) (before ++ after) := by
  refine ⟨fun endings other => ⟨firstWidths_eq_of_agree, agree_of_firstWidths⟩, ?_⟩
  intro before after
  refine ⟨fun hlf => agree_insert hlf rfl, fun ending hmem => agree_insert hmem rfl⟩

end Placement

end CodeNav
