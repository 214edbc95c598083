import Mathlib.Data.List.Infix
import CodeNav.Proofs.Text.Columns

/-! # Columns and byte positions

A column within a line either lies between whole characters or splits a character of two units.
Between whole characters it has a byte position, and the bytes between two such positions are those
of a text.
-/

namespace CodeNav.Text

variable {text before after inside : List Char} {column start stop position : Nat}

/-- Some prefix of whole characters ends at the column. -/
def IsBoundary (text : List Char) (column : Nat) : Prop :=
  ∃ before after, text = before ++ after ∧ units before = column

def SplitsPair (text : List Char) (column : Nat) : Prop :=
  ∃ before c after, text = before ++ c :: after ∧ charUnits c = 2 ∧ column = units before + 1

theorem charUnits_eq (c : Char) : charUnits c = 1 ∨ charUnits c = 2 := by
  unfold charUnits
  split
  · exact Or.inl rfl
  · exact Or.inr rfl

theorem isBoundary_zero (text : List Char) : IsBoundary text 0 := ⟨[], text, rfl, rfl⟩

theorem IsBoundary.cons (c : Char) (h : IsBoundary text column) :
    IsBoundary (c :: text) (charUnits c + column) := by
  obtain ⟨before, after, rfl, rfl⟩ := h
  exact ⟨c :: before, after, rfl, rfl⟩

theorem SplitsPair.cons (c : Char) (h : SplitsPair text column) :
    SplitsPair (c :: text) (charUnits c + column) := by
  obtain ⟨before, d, after, rfl, hd, rfl⟩ := h
  exact ⟨c :: before, d, after, rfl, hd, by rw [units_cons, Nat.add_assoc]⟩

theorem IsBoundary.le_units (h : IsBoundary text column) : column ≤ units text := by
  obtain ⟨before, after, rfl, rfl⟩ := h
  rw [units_append]
  omega

theorem isBoundary_or_splitsPair (h : column ≤ units text) :
    IsBoundary text column ∨ SplitsPair text column := by
  induction text generalizing column with
  | nil =>
    obtain rfl : column = 0 := Nat.le_zero.mp h
    exact Or.inl (isBoundary_zero [])
  | cons c text ih =>
    rw [units_cons] at h
    rcases Nat.lt_or_ge column (charUnits c) with hlt | hge
    · -- The column is the start of the first character or splits it.
      rcases Nat.eq_zero_or_pos column with rfl | hpos
      · exact Or.inl (isBoundary_zero _)
      · rcases charUnits_eq c with hc | hc
        · omega
        · exact Or.inr ⟨[], c, text, rfl, hc, by rw [units_nil]; omega⟩
    · obtain ⟨rest, rfl⟩ := Nat.exists_eq_add_of_le hge
      exact (ih (by omega)).imp (·.cons c) (·.cons c)

theorem SplitsPair.not_isBoundary (h : SplitsPair text column) : ¬ IsBoundary text column := by
  obtain ⟨before, c, after, rfl, hc, rfl⟩ := h
  rintro ⟨front, back, heq, hunits⟩
  -- A prefix that ends inside the character neither ends before it nor holds it.
  rcases List.append_eq_append_iff.mp heq with ⟨more, rfl, hmore⟩ | ⟨more, rfl, -⟩
  · cases more with
    | nil => simp at hunits
    | cons d more =>
      obtain ⟨rfl, -⟩ := List.cons.inj hmore
      rw [units_append, units_cons] at hunits
      omega
  · rw [units_append] at hunits
    omega

theorem isBoundary_iff_exists_cutAt? :
    IsBoundary text column ↔ ∃ before after, cutAt? text column = some (before, after) := by
  simp only [IsBoundary, cutAt?_eq_some_iff]

@[simp] theorem byteLength_nil : byteLength [] = 0 := rfl

@[simp] theorem byteLength_cons (c : Char) (text : List Char) :
    byteLength (c :: text) = c.utf8Size + byteLength text := rfl

@[simp] theorem byteLength_append (a b : List Char) :
    byteLength (a ++ b) = byteLength a + byteLength b := by
  induction a with
  | nil => simp
  | cons c a ih => rw [List.cons_append, byteLength_cons, byteLength_cons, ih, Nat.add_assoc]

theorem eq_of_byteLength_eq {other : List Char} (h : before <+: text) (hother : other <+: text)
    (hlength : byteLength before = byteLength other) : before = other := by
  have hempty : ∀ a b : List Char, byteLength (a ++ b) = byteLength a → b = [] := by
    intro a b hab
    cases b with
    | nil => rfl
    | cons c b =>
      have hc := c.utf8Size_pos
      rw [byteLength_append, byteLength_cons] at hab
      omega
  rcases List.prefix_or_prefix_of_prefix h hother with ⟨more, rfl⟩ | ⟨more, rfl⟩
  · rw [hempty before more hlength.symm, List.append_nil]
  · rw [hempty other more hlength, List.append_nil]

theorem byteIndex?_eq_some_iff :
    byteIndex? text column = some position ↔
      ∃ before after, text = before ++ after ∧ units before = column ∧
        byteLength before = position := by
  simp only [byteIndex?, Option.map_eq_some_iff, Prod.exists, cutAt?_eq_some_iff, and_assoc]

theorem isBoundary_of_byteIndex? (h : byteIndex? text column = some position) :
    IsBoundary text column := by
  obtain ⟨before, after, htext, hunits, -⟩ := byteIndex?_eq_some_iff.mp h
  exact ⟨before, after, htext, hunits⟩

theorem IsBoundary.exists_byteIndex? (h : IsBoundary text column) :
    ∃ position, byteIndex? text column = some position := by
  obtain ⟨before, after, htext, hunits⟩ := h
  exact ⟨byteLength before, byteIndex?_eq_some_iff.mpr ⟨before, after, htext, hunits, rfl⟩⟩

/-- A text lies between two positions, which are measured by the text before them. -/
def Between (size : List Char → Nat) (text : List Char) (start stop : Nat) (inside : List Char) :
    Prop :=
  ∃ before after, text = before ++ inside ++ after ∧ size before = start ∧
    size (before ++ inside) = stop

theorem Between.isBoundary (h : Between units text start stop inside) :
    IsBoundary text start ∧ IsBoundary text stop := by
  obtain ⟨before, after, rfl, rfl, rfl⟩ := h
  exact ⟨⟨before, inside ++ after, List.append_assoc _ _ _, rfl⟩, before ++ inside, after, rfl, rfl⟩

/-- Between two columns with byte positions lies the same text as between these positions. -/
theorem exists_between {first last : Nat} (hstart : byteIndex? text start = some first)
    (hstop : byteIndex? text stop = some last) (hle : start ≤ stop) :
    ∃ inside, Between units text start stop inside ∧ Between byteLength text first last inside := by
  obtain ⟨before, rest, rfl, rfl, rfl⟩ := byteIndex?_eq_some_iff.mp hstart
  obtain ⟨front, after, heq, rfl, rfl⟩ := byteIndex?_eq_some_iff.mp hstop
  obtain ⟨inside, rfl⟩ := prefix_of_units_le heq hle
  exact ⟨inside, ⟨before, after, heq, rfl, rfl⟩, ⟨before, after, heq, rfl, rfl⟩⟩

/-- Two byte positions that bound no slice: they are out of order, or one of them lies inside a
character or past the end. -/
structure BadSlice where
  start : Nat
  stop : Nat
  deriving DecidableEq, Repr

/-- The prefix that takes up so many bytes. -/
def bytePrefix? (text : List Char) (position : Nat) : Option (List Char) :=
  text.inits.find? (byteLength · == position)

def byteSlice (text : List Char) (start stop : Nat) : Except BadSlice (List Char) :=
  match bytePrefix? text stop with
  | none => .error ⟨start, stop⟩
  | some front =>
    match bytePrefix? front start with
    | none => .error ⟨start, stop⟩
    | some before => .ok (front.drop before.length)

theorem bytePrefix?_eq_some_iff :
    bytePrefix? text position = some before ↔
      before <+: text ∧ byteLength before = position := by
  constructor
  · intro h
    have hmem : before ∈ text.inits := List.mem_of_find?_eq_some h
    have hlength := List.find?_some h
    exact ⟨(List.mem_inits _ _).mp hmem, by simpa using hlength⟩
  · rintro ⟨hinit, rfl⟩
    have hsome : (bytePrefix? text (byteLength before)).isSome := by
      rw [bytePrefix?, List.find?_isSome]
      exact ⟨before, (List.mem_inits _ _).mpr hinit, by simp⟩
    obtain ⟨other, hother⟩ := Option.isSome_iff_exists.mp hsome
    have hmem : other ∈ text.inits := List.mem_of_find?_eq_some hother
    have hlength : byteLength other = byteLength before := by
      simpa using List.find?_some hother
    rw [hother, eq_of_byteLength_eq ((List.mem_inits _ _).mp hmem) hinit hlength]

/-- A slice is there exactly if both of its ends lie between whole characters, in order. -/
theorem byteSlice_eq_ok_iff :
    byteSlice text start stop = .ok inside ↔ Between byteLength text start stop inside := by
  constructor
  · intro h
    simp only [byteSlice] at h
    split at h
    · cases h
    · rename_i front hfront
      split at h
      · cases h
      · rename_i before hbefore
        obtain ⟨⟨after, rfl⟩, rfl⟩ := bytePrefix?_eq_some_iff.mp hfront
        obtain ⟨⟨rest, rfl⟩, rfl⟩ := bytePrefix?_eq_some_iff.mp hbefore
        rw [List.drop_left] at h
        obtain rfl := Except.ok.inj h
        exact ⟨before, after, rfl, rfl, rfl⟩
  · rintro ⟨before, after, rfl, rfl, rfl⟩
    have hfront : bytePrefix? (before ++ inside ++ after) (byteLength (before ++ inside)) =
        some (before ++ inside) :=
      bytePrefix?_eq_some_iff.mpr ⟨List.prefix_append _ _, rfl⟩
    have hbefore : bytePrefix? (before ++ inside) (byteLength before) = some before :=
      bytePrefix?_eq_some_iff.mpr ⟨List.prefix_append _ _, rfl⟩
    simp only [byteSlice, hfront, hbefore, List.drop_left]

end CodeNav.Text
