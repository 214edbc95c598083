import CodeNav.Proofs.Criterion
import CodeNav.Proofs.Text.Boundaries

/-! # Candidates and their bytes

Acceptance asks for two columns between whole characters and for a text between them that fits the
filter. A check that cuts the line by byte positions never cuts within a character and gives the
same answer.
-/

namespace CodeNav.Criterion

variable {c : Criterion} {line inside : List Char} {column length : Nat} {accepted : Accepted}

/-- Checks a candidate by the bytes at which it starts and stops. -/
def acceptInBytes (c : Criterion) (line : List Char) (column length : Nat) :
    Except Text.BadSlice (Option Accepted) :=
  if isLineComment line then return none
  else if column + length < wordLimit then
    let stop := min (column + length) (Text.units line)
    match Text.byteIndex? line column, Text.byteIndex? line stop with
    | some first, some last => do
      let inside ← Text.byteSlice line first last
      return if c.fits inside then some ⟨stop, c.shown line inside⟩ else none
    | _, _ => return none
  else return none

theorem acceptInBytes_eq (c : Criterion) (line : List Char) (column length : Nat) :
    c.acceptInBytes line column length = .ok (c.accept line column length) := by
  unfold acceptInBytes accept
  split
  · rfl
  split
  · dsimp only
    split
    · rename_i first last hfirst hlast
      have hcolumn : column ≤ Text.units line := (Text.isBoundary_of_byteIndex? hfirst).le_units
      obtain ⟨inside, hunits, hbytes⟩ := Text.exists_between hfirst hlast (by omega)
      rw [Text.byteSlice_eq_ok_iff.mpr hbytes, Text.slice?_eq_some_iff.mpr hunits]
      rfl
    · rename_i hnone
      -- Without both byte positions there is no text between the columns either.
      cases hslice : Text.slice? line column (min (column + length) (Text.units line)) with
      | none => rfl
      | some inside =>
        have hbetween : Text.Between Text.units line column _ inside :=
          Text.slice?_eq_some_iff.mp hslice
        obtain ⟨first, hfirst⟩ := hbetween.isBoundary.1.exists_byteIndex?
        obtain ⟨last, hlast⟩ := hbetween.isBoundary.2.exists_byteIndex?
        exact absurd hlast (hnone first last hfirst)
  · rfl

/-- The text of a candidate that lies within code: its end is a word, and both of its columns, the
second one cut at the end of the line, lie between whole characters. -/
structure IsCandidate (line : List Char) (column length : Nat) (inside : List Char) : Prop where
  code : ¬ Text.commentMarker <+: Text.trimStart line
  inRange : column + length < wordLimit
  starts : Text.IsBoundary line column
  stops : Text.IsBoundary line (min (column + length) (Text.units line))
  between : Text.Between Text.units line column (min (column + length) (Text.units line)) inside

theorem accept_eq_some_iff_isCandidate :
    c.accept line column length = some accepted ↔
      ∃ inside, IsCandidate line column length inside ∧ c.fits inside = true ∧
        accepted = ⟨min (column + length) (Text.units line), c.shown line inside⟩ := by
  rw [accept_eq_some_iff, ← isLineComment_iff, isLineComment_iff_trimStart]
  constructor
  · rintro ⟨hcode, hrange, before, inside, after, hline, hstart, hstop, hfits, haccepted⟩
    have hbetween : Text.Between Text.units line column _ inside :=
      ⟨before, after, hline, hstart, hstop⟩
    obtain ⟨hstarts, hstops⟩ := hbetween.isBoundary
    exact ⟨inside, ⟨hcode, hrange, hstarts, hstops, hbetween⟩, hfits, haccepted⟩
  · rintro ⟨inside, h, hfits, haccepted⟩
    obtain ⟨before, after, hline, hstart, hstop⟩ := h.between
    exact ⟨h.code, h.inRange, before, inside, after, hline, hstart, hstop, hfits, haccepted⟩

theorem fits_of_exact (h : { c with exact := true }.fits inside = true) :
    { c with exact := false }.fits inside = true := by
  obtain rfl : inside = c.filter := (fits_iff.mp h).1 rfl
  exact fits_iff.mpr ⟨by simp, fun _ => List.prefix_rfl⟩

theorem accept_of_exact (h : { c with exact := true }.accept line column length = some accepted) :
    { c with exact := false }.accept line column length = some accepted := by
  obtain ⟨inside, hcandidate, hfits, haccepted⟩ := accept_eq_some_iff_isCandidate.mp h
  exact accept_eq_some_iff_isCandidate.mpr ⟨inside, hcandidate, fits_of_exact hfits, haccepted⟩

structure AcceptsExactly (c : Criterion) (line : List Char) (column length : Nat) : Prop where
  accept_iff : ∀ accepted, c.accept line column length = some accepted ↔
    ∃ inside, IsCandidate line column length inside ∧
      (if c.exact then inside = c.filter
        else c.filter.flatMap Text.lower <+: inside.flatMap Text.lower) ∧
      accepted.endColumn = min (column + length) (Text.units line) ∧
      accepted.text = if c.kind.isReferences then Text.trim line else inside
  column_le : ∀ accepted, c.accept line column length = some accepted → column ≤ Text.units line
  /-- No slice of the line cuts a character. -/
  inBytes : c.acceptInBytes line column length = .ok (c.accept line column length)
  prefix_of_exact : ∀ accepted, { c with exact := true }.accept line column length = some accepted →
    { c with exact := false }.accept line column length = some accepted

/-- A candidate is accepted exactly if it is one of the line and its text fits the filter. It ends
where it was cut, and shows the trimmed line or its own text. -/
theorem accepts_exactly (filter : List Char) (exact : Bool) (kind : Query.Kind) (line : List Char)
    (column length : Nat) : AcceptsExactly ⟨filter, exact, kind⟩ line column length where
  accept_iff accepted := by
    rw [accept_eq_some_iff_isCandidate]
    refine exists_congr fun inside => and_congr_right fun _ => and_congr ?_ ?_
    · rw [fits_iff]
      cases exact <;> simp
    · obtain ⟨endColumn, text⟩ := accepted
      rw [Accepted.mk.injEq, shown]
  column_le _ h := by
    obtain ⟨inside, hcandidate, -, -⟩ := accept_eq_some_iff_isCandidate.mp h
    exact hcandidate.starts.le_units
  inBytes := acceptInBytes_eq _ line column length
  prefix_of_exact _ := accept_of_exact

end CodeNav.Criterion
