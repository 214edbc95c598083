import CodeNav.Proofs.Text.Boundaries

/-! # Positions of columns

The byte position of a column is found in one pass that counts units and bytes side by side. There
is one exactly between whole characters, and from one boundary to the next both counts grow.
-/

namespace CodeNav

structure SumOverflow where
  first : Nat
  second : Nat
  deriving DecidableEq, Repr

def addBelow (limit a b : Nat) : Except SumOverflow Nat :=
  if a + b < limit then .ok (a + b) else .error ⟨a, b⟩

theorem addBelow_eq_ok {limit a b : Nat} (h : a + b < limit) : addBelow limit a b = .ok (a + b) :=
  if_pos h

namespace Text

variable {c : Char} {line text before other : List Char} {column position seen limit : Nat}

def unitsBelow (limit : Nat) (text : List Char) : Except SumOverflow Nat :=
  text.foldlM (fun seen c => addBelow limit seen (charUnits c)) 0

/-- Looks for the byte position of a column in the rest of a line, before which there are so many
units and bytes. -/
def indexFrom (limit column : Nat) : Nat → Nat → List Char → Except SumOverflow (Option Nat)
  | seen, position, [] => return if seen = column then some position else none
  | seen, position, c :: text =>
    if seen = column then return some position
    else if column < seen then return none
    else do
      let seen ← addBelow limit seen (charUnits c)
      let position ← addBelow limit position c.utf8Size
      indexFrom limit column seen position text

def indexBelow (limit : Nat) (line : List Char) (column : Nat) :
    Except SumOverflow (Option Nat) :=
  indexFrom limit column 0 0 line

theorem charUnits_le_utf8Size (c : Char) : charUnits c ≤ c.utf8Size := by
  unfold charUnits
  split
  · exact c.utf8Size_pos
  · rename_i hlarge
    have hfour : c.utf8Size = 4 := by
      rw [Char.utf8Size_eq_four_iff, UInt32.lt_iff_toNat_lt]
      exact Nat.not_lt.mp hlarge
    omega

theorem units_le_byteLength (text : List Char) : units text ≤ byteLength text := by
  induction text with
  | nil => exact Nat.le_refl 0
  | cons c text ih =>
    rw [units_cons, byteLength_cons]
    exact Nat.add_le_add (charUnits_le_utf8Size c) ih

theorem foldlM_addBelow_units (h : seen + units text < limit) :
    text.foldlM (fun seen c => addBelow limit seen (charUnits c)) seen =
      .ok (seen + units text) := by
  induction text generalizing seen with
  | nil => rfl
  | cons c text ih =>
    rw [units_cons, ← Nat.add_assoc] at h
    rw [List.foldlM_cons, addBelow_eq_ok (by omega), units_cons, ← Nat.add_assoc]
    exact ih h

theorem unitsBelow_eq (h : units text < limit) : unitsBelow limit text = .ok (units text) := by
  rw [unitsBelow, foldlM_addBelow_units (by omega), Nat.zero_add]

theorem byteIndex?_zero (line : List Char) : byteIndex? line 0 = some 0 := by
  rw [byteIndex?, cutAt?]
  rfl

theorem byteIndex?_nil (h : 0 < column) : byteIndex? [] column = none := by
  obtain ⟨n, rfl⟩ := Nat.exists_eq_add_one_of_ne_zero h.ne'
  rw [byteIndex?, cutAt?]
  rfl

theorem byteIndex?_cons_of_le (h : charUnits c ≤ column) :
    byteIndex? (c :: text) column =
      (byteIndex? text (column - charUnits c)).map (c.utf8Size + ·) := by
  have hpos := charUnits_pos c
  obtain ⟨n, rfl⟩ := Nat.exists_eq_add_one_of_ne_zero (by omega : column ≠ 0)
  rw [byteIndex?, cutAt?, if_pos h, byteIndex?, Option.map_map, Option.map_map]
  rfl

theorem byteIndex?_cons_of_lt (hpos : 0 < column) (h : column < charUnits c) :
    byteIndex? (c :: text) column = none := by
  obtain ⟨n, rfl⟩ := Nat.exists_eq_add_one_of_ne_zero hpos.ne'
  rw [byteIndex?, cutAt?, if_neg (by omega)]
  rfl

/-- From any place on, the pass looks for what is left of the column. -/
theorem indexFrom_eq (hunits : seen + units text < limit)
    (hbytes : position + byteLength text < limit) :
    indexFrom limit column seen position text = .ok (if seen ≤ column then
      (byteIndex? text (column - seen)).map (position + ·) else none) := by
  induction text generalizing seen position with
  | nil =>
    rcases Nat.lt_trichotomy seen column with hlt | rfl | hgt
    · rw [indexFrom, if_neg hlt.ne, if_pos hlt.le, byteIndex?_nil (by omega)]
      rfl
    · rw [indexFrom, if_pos rfl, if_pos (Nat.le_refl _), Nat.sub_self, byteIndex?_zero]
      rfl
    · rw [indexFrom, if_neg hgt.ne', if_neg (by omega)]
      rfl
  | cons c text ih =>
    rcases Nat.lt_trichotomy seen column with hlt | rfl | hgt
    · rw [units_cons, ← Nat.add_assoc] at hunits
      rw [byteLength_cons, ← Nat.add_assoc] at hbytes
      have hnext : indexFrom limit column seen position (c :: text) =
          indexFrom limit column (seen + charUnits c) (position + c.utf8Size) text := by
        rw [indexFrom, if_neg hlt.ne, if_neg (by omega), addBelow_eq_ok (by omega),
          addBelow_eq_ok (by omega)]
        rfl
      rw [hnext, ih hunits hbytes, if_pos hlt.le]
      rcases Nat.lt_or_ge column (seen + charUnits c) with hinside | hbehind
      · -- The column lies inside the character, which the pass steps over.
        rw [if_neg (by omega), byteIndex?_cons_of_lt (by omega) (by omega)]
        rfl
      · rw [if_pos hbehind, byteIndex?_cons_of_le (by omega), Option.map_map, Nat.sub_add_eq]
        congr 2
        funext rest
        exact Nat.add_assoc ..
    · rw [indexFrom, if_pos rfl, if_pos (Nat.le_refl _), Nat.sub_self, byteIndex?_zero]
      rfl
    · rw [indexFrom, if_neg hgt.ne', if_pos hgt, if_neg (by omega)]
      rfl

/-- The pass finds the position, and counts no further than to the length of the line. -/
theorem indexBelow_eq (h : byteLength line < limit) (column : Nat) :
    indexBelow limit line column = .ok (byteIndex? line column) := by
  have hunits := units_le_byteLength line
  rw [indexBelow, indexFrom_eq (by omega) (by omega), if_pos (Nat.zero_le column), Nat.sub_zero]
  simp

theorem byteIndex?_eq_some_iff_exists :
    byteIndex? line column = some position ↔
      ∃ before, before <+: line ∧ units before = column ∧ byteLength before = position := by
  rw [byteIndex?_eq_some_iff]
  constructor
  · rintro ⟨before, after, rfl, hunits, hlength⟩
    exact ⟨before, List.prefix_append before after, hunits, hlength⟩
  · rintro ⟨before, ⟨after, rfl⟩, hunits, hlength⟩
    exact ⟨before, after, rfl, hunits, hlength⟩

theorem byteIndex?_eq_some_iff_bytePrefix? :
    byteIndex? line column = some position ↔
      (bytePrefix? line position).map units = some column := by
  simp only [byteIndex?_eq_some_iff_exists, Option.map_eq_some_iff, bytePrefix?_eq_some_iff]
  exact exists_congr fun before => ⟨fun ⟨hinit, hunits, hlength⟩ => ⟨⟨hinit, hlength⟩, hunits⟩,
    fun ⟨⟨hinit, hlength⟩, hunits⟩ => ⟨hinit, hunits, hlength⟩⟩

theorem units_lt_iff_byteLength_lt (h : before <+: line) (hother : other <+: line) :
    units before < units other ↔ byteLength before < byteLength other := by
  rcases List.prefix_or_prefix_of_prefix h hother with ⟨more, rfl⟩ | ⟨more, rfl⟩
  · rw [units_append, byteLength_append]
    cases more with
    | nil => simp
    | cons c more =>
      have hunits := charUnits_pos c
      have hbytes := c.utf8Size_pos
      rw [units_cons, byteLength_cons]
      omega
  · rw [units_append, byteLength_append]
    omega

theorem byteIndex?_eq_none_iff :
    byteIndex? line column = none ↔ SplitsPair line column ∨ units line < column := by
  constructor
  · intro hnone
    by_contra hcon
    rw [not_or, Nat.not_lt] at hcon
    obtain ⟨position, hsome⟩ :=
      ((isBoundary_or_splitsPair hcon.2).resolve_right hcon.1).exists_byteIndex?
    rw [hnone] at hsome
    cases hsome
  · intro h
    rw [Option.eq_none_iff_forall_ne_some]
    intro position hsome
    have hboundary := isBoundary_of_byteIndex? hsome
    rcases h with hsplit | hlt
    · exact hsplit.not_isBoundary hboundary
    · exact absurd hboundary.le_units (Nat.not_le.mpr hlt)

/-- The columns between whole characters of a line are those with a byte position, which is that of
the same place. -/
structure IndexesBoundaries (line : List Char) : Prop where
  some_iff : ∀ column position, byteIndex? line column = some position ↔
    ∃ before, before <+: line ∧ units before = column ∧ byteLength before = position
  /-- From a position, the units before it lead back to the column. -/
  inverse_iff : ∀ column position, byteIndex? line column = some position ↔
    (bytePrefix? line position).map units = some column
  lt_iff : ∀ column column' position position', byteIndex? line column = some position →
    byteIndex? line column' = some position' → (column < column' ↔ position < position')
  last : byteIndex? line (units line) = some (byteLength line)
  none_iff : ∀ column, byteIndex? line column = none ↔
    SplitsPair line column ∨ units line < column
  /-- One pass finds them, and counts no further than to the length of the line. -/
  onePass : ∀ limit column, byteLength line < limit →
    indexBelow limit line column = .ok (byteIndex? line column)

/-- Between whole characters, columns and byte positions of a line determine each other. -/
theorem indexesBoundaries (line : List Char) : IndexesBoundaries line where
  some_iff _ _ := byteIndex?_eq_some_iff_exists
  inverse_iff _ _ := byteIndex?_eq_some_iff_bytePrefix?
  lt_iff column column' position position' h h' := by
    obtain ⟨before, hbefore, rfl, rfl⟩ := byteIndex?_eq_some_iff_exists.mp h
    obtain ⟨other, hother, rfl, rfl⟩ := byteIndex?_eq_some_iff_exists.mp h'
    exact units_lt_iff_byteLength_lt hbefore hother
  last := byteIndex?_eq_some_iff_exists.mpr ⟨line, List.prefix_rfl, rfl, rfl⟩
  none_iff _ := byteIndex?_eq_none_iff
  onePass _ column h := indexBelow_eq h column

/-- The first character takes two units and four bytes. -/
example : (List.range 5).map (byteIndex? ['😀', 'x']) = [some 0, none, some 4, some 5, none] := by
  decide

end Text

end CodeNav
