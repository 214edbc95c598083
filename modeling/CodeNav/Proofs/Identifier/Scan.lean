import Mathlib.Data.List.DropRight
import CodeNav.Proofs.Identifier
import CodeNav.Proofs.Text.Boundaries

/-! # The scan around a column

The identifier at a column is the longest run of letters that ends there, followed by the longest
run of letters and digits that starts there. A scan that counts bytes in both directions cuts the
line at the ends of this text and never within a character.
-/

namespace CodeNav

variable {line word before after text run : List Char} {column : Nat} {p : Char → Bool}

namespace Text

/-- Of the parts of a text that consist of certain characters, a run is the longest one. -/
structure IsLongest (part : List Char → Prop) (p : Char → Bool) (run : List Char) : Prop where
  isPart : part run
  all : ∀ c ∈ run, p c
  longest : ∀ other, part other → (∀ c ∈ other, p c) → other.length ≤ run.length

theorem isLongest_takeWhile (p : Char → Bool) (text : List Char) :
    IsLongest (· <+: text) p (text.takeWhile p) where
  isPart := List.takeWhile_prefix p
  all _ hc := List.mem_takeWhile_imp hc
  longest := by
    rintro other ⟨rest, rfl⟩ hall
    rw [List.takeWhile_append_of_pos hall, List.length_append]
    exact Nat.le_add_right _ _

theorem isLongest_prefix_iff : IsLongest (· <+: text) p run ↔ run = text.takeWhile p := by
  constructor
  · intro h
    have hlongest := isLongest_takeWhile p text
    have hle := h.longest _ hlongest.isPart hlongest.all
    have hge := hlongest.longest _ h.isPart h.all
    have hpart := List.prefix_of_prefix_length_le h.isPart hlongest.isPart hge
    exact hpart.eq_of_length (le_antisymm hge hle)
  · rintro rfl
    exact isLongest_takeWhile p text

theorem isLongest_reverse_iff :
    IsLongest (· <:+ text) p run ↔ IsLongest (· <+: text.reverse) p run.reverse := by
  constructor
  · rintro ⟨hpart, hall, hlongest⟩
    refine ⟨List.reverse_prefix.mpr hpart, by simpa using hall, fun other hother hc => ?_⟩
    have hsuffix : other.reverse <:+ text := by
      rw [← List.reverse_prefix, List.reverse_reverse]
      exact hother
    simpa using hlongest other.reverse hsuffix (by simpa using hc)
  · rintro ⟨hpart, hall, hlongest⟩
    refine ⟨List.reverse_prefix.mp hpart, by simpa using hall, fun other hother hc => ?_⟩
    simpa using hlongest other.reverse (List.reverse_prefix.mpr hother) (by simpa using hc)

theorem isLongest_suffix_iff : IsLongest (· <:+ text) p run ↔ run = text.rtakeWhile p := by
  rw [isLongest_reverse_iff, isLongest_prefix_iff, List.reverse_eq_iff, List.rtakeWhile]

theorem head?_dropWhile_any (p : Char → Bool) (text : List Char) :
    (text.dropWhile p).head?.any p = false := by
  have h := List.head?_dropWhile_not p text
  cases hhead : (text.dropWhile p).head? with
  | none => rfl
  | some c => simpa [hhead] using h

theorem getLast?_rdropWhile_any (p : Char → Bool) (text : List Char) :
    (text.rdropWhile p).getLast?.any p = false := by
  rw [List.rdropWhile, List.getLast?_reverse]
  exact head?_dropWhile_any p text.reverse

end Text

theorem identifierAt?_of_cut (hcomment : isLineComment line = false)
    (hline : line = before ++ after) (hunits : Text.units before = min column (Text.units line)) :
    identifierAt? line column =
      if before.rtakeWhile Text.isLetter ++ after.takeWhile Text.isLetterOrDigit = [] then none
      else some (before.rtakeWhile Text.isLetter ++ after.takeWhile Text.isLetterOrDigit) := by
  have hcut := Text.cutAt?_eq_some_iff.mpr ⟨hline, hunits⟩
  simp only [identifierAt?, hcomment, Bool.false_eq_true, if_false, hcut, List.isEmpty_iff]
  rfl

theorem identifierAt?_of_not_isBoundary
    (h : ¬ Text.IsBoundary line (min column (Text.units line))) :
    identifierAt? line column = none := by
  cases hcut : Text.cutAt? line (min column (Text.units line)) with
  | none => simp [identifierAt?, hcut]
  | some parts => exact absurd (Text.isBoundary_iff_exists_cutAt?.mpr ⟨_, _, hcut⟩) h

/-- What there is to find at a column: nothing on the line of a comment, within a character of two
units and away from letters and digits, and else the letters that end at the column with the letters
and digits that start there. -/
inductive Finds (line : List Char) (column : Nat) : Option (List Char) → Prop where
  | comment : Text.commentMarker <+: Text.trimStart line → Finds line column none
  | within : ¬ Text.commentMarker <+: Text.trimStart line →
      Text.SplitsPair line (min column (Text.units line)) → Finds line column none
  | apart {before after : List Char} : ¬ Text.commentMarker <+: Text.trimStart line →
      line = before ++ after → Text.units before = min column (Text.units line) →
      Text.IsLongest (· <:+ before) Text.isLetter [] →
      Text.IsLongest (· <+: after) Text.isLetterOrDigit [] → Finds line column none
  | word {before after letters rest : List Char} : ¬ Text.commentMarker <+: Text.trimStart line →
      line = before ++ after → Text.units before = min column (Text.units line) →
      Text.IsLongest (· <:+ before) Text.isLetter letters →
      Text.IsLongest (· <+: after) Text.isLetterOrDigit rest →
      letters ++ rest ≠ [] → Finds line column (some (letters ++ rest))

theorem isLineComment_eq_false_iff :
    isLineComment line = false ↔ ¬ Text.commentMarker <+: Text.trimStart line := by
  rw [← isLineComment_iff_trimStart, Bool.not_eq_true]

theorem finds_identifierAt? (line : List Char) (column : Nat) :
    Finds line column (identifierAt? line column) := by
  cases hcomment : isLineComment line with
  | true =>
    rw [identifierAt?, if_pos hcomment]
    exact .comment (isLineComment_iff_trimStart.mp hcomment)
  | false =>
    have hcode := isLineComment_eq_false_iff.mp hcomment
    rcases Text.isBoundary_or_splitsPair (min_le_right column (Text.units line)) with hcut | hsplit
    · obtain ⟨before, after, hline, hunits⟩ := hcut
      have hletters := Text.isLongest_suffix_iff.mpr (Eq.refl (before.rtakeWhile Text.isLetter))
      have hrest := Text.isLongest_takeWhile Text.isLetterOrDigit after
      rw [identifierAt?_of_cut hcomment hline hunits]
      split
      · rename_i hempty
        obtain ⟨hnone, hnone'⟩ := List.append_eq_nil_iff.mp hempty
        exact .apart hcode hline hunits (hnone ▸ hletters) (hnone' ▸ hrest)
      · rename_i hword
        exact .word hcode hline hunits hletters hrest hword
    · rw [identifierAt?_of_not_isBoundary hsplit.not_isBoundary]
      exact .within hcode hsplit

theorem Finds.eq_identifierAt? {found : Option (List Char)} (h : Finds line column found) :
    identifierAt? line column = found := by
  cases h with
  | comment hmarker => rw [identifierAt?, if_pos (isLineComment_iff_trimStart.mpr hmarker)]
  | within hcode hsplit => exact identifierAt?_of_not_isBoundary hsplit.not_isBoundary
  | apart hcode hline hunits hletters hrest =>
    rw [identifierAt?_of_cut (isLineComment_eq_false_iff.mpr hcode) hline hunits,
      ← Text.isLongest_suffix_iff.mp hletters, ← Text.isLongest_prefix_iff.mp hrest]
    rfl
  | word hcode hline hunits hletters hrest hword =>
    rw [identifierAt?_of_cut (isLineComment_eq_false_iff.mpr hcode) hline hunits,
      ← Text.isLongest_suffix_iff.mp hletters, ← Text.isLongest_prefix_iff.mp hrest,
      if_neg hword]

theorem Text.append_eq_runs (p q : Char → Bool) (before after : List Char) :
    before ++ after =
      before.rdropWhile p ++ (before.rtakeWhile p ++ after.takeWhile q) ++ after.dropWhile q := by
  rw [← List.append_assoc (before.rdropWhile p), List.rdropWhile_append_rtakeWhile,
    List.append_assoc, List.takeWhile_append_dropWhile]

/-- The identifier touches the column, and no letter comes before it and no letter or digit after
it. -/
theorem exists_apart_of_identifierAt? (h : identifierAt? line column = some word) :
    ∃ front back, line = front ++ word ++ back ∧
      Text.units front ≤ min column (Text.units line) ∧
      min column (Text.units line) ≤ Text.units (front ++ word) ∧
      front.getLast?.any Text.isLetter = false ∧ back.head?.any Text.isLetterOrDigit = false := by
  obtain ⟨-, -, before, after, hcut, rfl⟩ := identifierAt?_eq_some_iff.mp h
  obtain ⟨hline, hunits⟩ := Text.cutAt?_eq_some_iff.mp hcut
  have hruns := Text.append_eq_runs Text.isLetter Text.isLetterOrDigit before after
  have hbefore : before.rdropWhile Text.isLetter ++ before.rtakeWhile Text.isLetter = before :=
    List.rdropWhile_append_rtakeWhile
  refine ⟨before.rdropWhile Text.isLetter, after.dropWhile Text.isLetterOrDigit,
    hline.trans hruns, ?_, ?_, Text.getLast?_rdropWhile_any _ before,
    Text.head?_dropWhile_any _ after⟩
  · rw [← hunits, ← congrArg Text.units hbefore, Text.units_append]
    exact Nat.le_add_right _ _
  · change _ ≤ Text.units (_ ++ (before.rtakeWhile Text.isLetter ++ _))
    rw [← List.append_assoc, hbefore, Text.units_append, hunits]
    exact Nat.le_add_right _ _

def Text.indexed (position : Nat) : List Char → List (Nat × Char)
  | [] => []
  | c :: text => (position, c) :: indexed (position + c.utf8Size) text

/-- Scans back over letters and forward over letters and digits, in bytes, and cuts the line where
the scans end. -/
def identifierInBytes (line : List Char) (column : Nat) :
    Except Text.BadSlice (Option (List Char)) :=
  if isLineComment line then return none
  else
    match Text.byteIndex? line (min column (Text.units line)) with
    | none => return none
    | some position => do
      let before ← Text.byteSlice line 0 position
      let after ← Text.byteSlice line position (Text.byteLength line)
      let letters := (Text.indexed 0 before).reverse.takeWhile fun entry => Text.isLetter entry.2
      let ending := (Text.indexed 0 after).find? fun entry => !Text.isLetterOrDigit entry.2
      let start := letters.getLast?.elim position (·.1)
      let stop := ending.elim (Text.byteLength line) (position + ·.1)
      let word ← Text.byteSlice line start stop
      return if word.isEmpty then none else some word

namespace Text

theorem indexed_concat (position : Nat) (text : List Char) (c : Char) :
    indexed position (text ++ [c]) =
      indexed position text ++ [(position + byteLength text, c)] := by
  induction text generalizing position with
  | nil => rfl
  | cons d text ih => rw [List.cons_append, indexed, indexed, ih, byteLength_cons, Nat.add_assoc,
      List.cons_append]

theorem start_indexed (p : Char → Bool) (position : Nat) (text : List Char) :
    (((indexed position text).reverse.takeWhile fun entry => p entry.2).getLast?.elim
      (position + byteLength text) (·.1)) = position + byteLength (text.rdropWhile p) := by
  induction text using List.reverseRecOn with
  | nil => rfl
  | append_singleton text c ih =>
    rw [indexed_concat, List.reverse_append, List.reverse_singleton, List.singleton_append]
    by_cases hc : p c
    · rw [List.takeWhile_cons_of_pos (by exact hc), List.getLast?_cons, Option.elim_some,
        List.rdropWhile_concat_pos _ _ _ hc, ← ih]
      cases ((indexed position text).reverse.takeWhile fun entry => p entry.2).getLast? <;> rfl
    · rw [List.takeWhile_cons_of_neg (by exact hc), List.rdropWhile_concat_neg _ _ _ hc]
      rfl

theorem stop_indexed (p : Char → Bool) (base position : Nat) (text : List Char) :
    (((indexed position text).find? fun entry => !p entry.2).elim
      (base + (position + byteLength text)) (base + ·.1)) =
        base + (position + byteLength (text.takeWhile p)) := by
  induction text generalizing position with
  | nil => rfl
  | cons c text ih =>
    by_cases hc : p c
    · rw [indexed, List.find?_cons_of_neg (by simp [hc]), List.takeWhile_cons_of_pos hc,
        byteLength_cons, byteLength_cons, ← Nat.add_assoc position, ← Nat.add_assoc position, ih]
    · rw [indexed, List.find?_cons_of_pos (by simp [hc]), List.takeWhile_cons_of_neg hc]
      rfl

end Text

theorem identifierInBytes_eq (line : List Char) (column : Nat) :
    identifierInBytes line column = .ok (identifierAt? line column) := by
  cases hcomment : isLineComment line with
  | true => rw [identifierInBytes, identifierAt?, if_pos hcomment, if_pos hcomment]; rfl
  | false =>
    rw [identifierInBytes, if_neg (by simp [hcomment])]
    cases hindex : Text.byteIndex? line (min column (Text.units line)) with
    | none =>
      rw [identifierAt?_of_not_isBoundary]
      · rfl
      · intro hcut
        obtain ⟨position, hposition⟩ := hcut.exists_byteIndex?
        cases hindex.symm.trans hposition
    | some position =>
      obtain ⟨before, after, hline, hunits, rfl⟩ := Text.byteIndex?_eq_some_iff.mp hindex
      have hbefore : Text.byteSlice line 0 (Text.byteLength before) = .ok before :=
        Text.byteSlice_eq_ok_iff.mpr ⟨[], after, hline, rfl, rfl⟩
      have hafter : Text.byteSlice line (Text.byteLength before) (Text.byteLength line) =
          .ok after :=
        Text.byteSlice_eq_ok_iff.mpr ⟨before, [], by simp [hline], rfl, by rw [hline]⟩
      have hword : Text.byteSlice line (Text.byteLength (before.rdropWhile Text.isLetter))
          (Text.byteLength before + Text.byteLength (after.takeWhile Text.isLetterOrDigit)) =
            .ok (before.rtakeWhile Text.isLetter ++ after.takeWhile Text.isLetterOrDigit) := by
        apply Text.byteSlice_eq_ok_iff.mpr
        refine ⟨_, _, hline.trans (Text.append_eq_runs _ _ before after), rfl, ?_⟩
        rw [← List.append_assoc, List.rdropWhile_append_rtakeWhile, Text.byteLength_append]
      have hstart := Text.start_indexed Text.isLetter 0 before
      have hstop := Text.stop_indexed Text.isLetterOrDigit (Text.byteLength before) 0 after
      simp only [Nat.zero_add] at hstart hstop
      rw [← Text.byteLength_append, ← hline] at hstop
      simp only [hbefore, hafter, hstart, hstop, hword, bind, Except.bind, pure, Except.pure,
        List.isEmpty_iff, identifierAt?_of_cut hcomment hline hunits]

structure ScansExactly (line : List Char) (column : Nat) : Prop where
  finds_iff : ∀ found, identifierAt? line column = found ↔ Finds line column found
  /-- No slice of the line cuts a character. -/
  inBytes : identifierInBytes line column = .ok (identifierAt? line column)
  apart : ∀ word, identifierAt? line column = some word →
    ∃ front back, line = front ++ word ++ back ∧
      Text.units front ≤ min column (Text.units line) ∧
      min column (Text.units line) ≤ Text.units (front ++ word) ∧
      front.getLast?.any Text.isLetter = false ∧ back.head?.any Text.isLetterOrDigit = false

/-- At every column of every line the scan finds what there is to find, within whole characters. -/
theorem scans_exactly (line : List Char) (column : Nat) : ScansExactly line column where
  finds_iff found := by
    constructor
    · rintro rfl
      exact finds_identifierAt? line column
    · exact Finds.eq_identifierAt?
  inBytes := identifierInBytes_eq line column
  apart _ := exists_apart_of_identifierAt?

end CodeNav
