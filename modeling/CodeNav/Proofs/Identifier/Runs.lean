import CodeNav.Proofs.Identifier.Scan

/-! # Identifiers and runs

Letters and digits stand together in runs. The scan goes back over letters only, so what it finds
is the run around the column without everything up to the last digit before the column: the whole
run, if no digit of the run comes before the column.
-/

namespace CodeNav

variable {line word run front left right back before after : List Char} {column : Nat}
  {p : Char → Bool}

namespace Text

theorem rtakeWhile_append_of_getLast? (hfront : front.getLast?.any p = false) :
    (front ++ left).rtakeWhile p = left.rtakeWhile p := by
  have hnil : front.reverse.takeWhile p = [] := by
    apply takeWhile_eq_nil
    rwa [List.head?_reverse]
  rw [List.rtakeWhile, List.rtakeWhile, List.reverse_append, List.takeWhile_append, hnil,
    List.append_nil]
  split
  · rename_i hlength
    rw [(List.takeWhile_prefix p).eq_of_length hlength]
  · rfl

theorem rtakeWhile_append_of_all (hall : ∀ c ∈ right, p c) :
    (left ++ right).rtakeWhile p = left.rtakeWhile p ++ right := by
  have hreverse : ∀ c ∈ right.reverse, p c := fun c hc => hall c (List.mem_reverse.mp hc)
  rw [List.rtakeWhile, List.rtakeWhile, List.reverse_append,
    List.takeWhile_append_of_pos hreverse, List.reverse_append, List.reverse_reverse]

theorem rtakeWhile_eq_nil_iff_getLast? :
    left.rtakeWhile p = [] ↔ left.getLast?.any p = false := by
  constructor
  · intro h
    have hself : left.rdropWhile p ++ left.rtakeWhile p = left :=
      List.rdropWhile_append_rtakeWhile
    rw [h, List.append_nil] at hself
    rw [← hself]
    exact getLast?_rdropWhile_any p left
  · intro h
    have happend : (left ++ []).rtakeWhile p = [].rtakeWhile p :=
      rtakeWhile_append_of_getLast? h
    rwa [List.append_nil] at happend

theorem getLast?_any_isLetter (h : front.getLast?.any isLetterOrDigit = false) :
    front.getLast?.any isLetter = false := by
  cases hlast : front.getLast? with
  | none => rfl
  | some c =>
    rw [hlast, Option.any_some, isLetterOrDigit, Bool.or_eq_false_iff] at h
    exact h.1

end Text

/-- A stretch of letters and digits, empty or not, that no letter or digit continues. -/
structure IsStretch (line front run back : List Char) : Prop where
  line_eq : line = front ++ run ++ back
  isLetterOrDigit : ∀ c ∈ run, Text.isLetterOrDigit c
  front_end : front.getLast?.any Text.isLetterOrDigit = false
  back_start : back.head?.any Text.isLetterOrDigit = false

/-- A maximal run of letters and digits between what stands before and after it. -/
structure IsRun (line front run back : List Char) : Prop extends
    IsStretch line front run back where
  ne_nil : run ≠ []

structure Touches (line : List Char) (column : Nat) (front run back : List Char) : Prop extends
    IsRun line front run back where
  start_le : Text.units front ≤ column
  le_stop : column ≤ Text.units (front ++ run)

theorem IsStretch.line_eq_append (h : IsStretch line front (left ++ right) back) :
    line = front ++ left ++ (right ++ back) := by
  rw [h.line_eq]
  simp only [List.append_assoc]

theorem IsStretch.takeWhile_eq (h : IsStretch line front (left ++ right) back) :
    (right ++ back).takeWhile Text.isLetterOrDigit = right :=
  Text.takeWhile_append_of_apart
    (fun c hc => h.isLetterOrDigit c (List.mem_append_right left hc)) h.back_start

theorem IsStretch.rtakeWhile_eq (h : IsStretch line front (left ++ right) back) :
    (front ++ left).rtakeWhile Text.isLetterOrDigit = left := by
  rw [Text.rtakeWhile_append_of_getLast? h.front_end, List.rtakeWhile_eq_self_iff]
  exact fun c hc => h.isLetterOrDigit c (List.mem_append_left right hc)

theorem isStretch_of_cut (hline : line = before ++ after) :
    IsStretch line (before.rdropWhile Text.isLetterOrDigit)
      (before.rtakeWhile Text.isLetterOrDigit ++ after.takeWhile Text.isLetterOrDigit)
      (after.dropWhile Text.isLetterOrDigit) where
  line_eq := hline.trans (Text.append_eq_runs _ _ before after)
  isLetterOrDigit c hc := by
    rcases List.mem_append.mp hc with hc | hc
    · exact List.mem_rtakeWhile_imp hc
    · exact List.mem_takeWhile_imp hc
  front_end := Text.getLast?_rdropWhile_any _ before
  back_start := Text.head?_dropWhile_any _ after

theorem IsStretch.eq_of_cut (h : IsStretch line front (left ++ right) back)
    (hline : line = before ++ after) (hunits : Text.units (front ++ left) = Text.units before) :
    front = before.rdropWhile Text.isLetterOrDigit ∧
      left = before.rtakeWhile Text.isLetterOrDigit ∧
      right = after.takeWhile Text.isLetterOrDigit := by
  obtain ⟨rfl, rfl⟩ := Text.append_eq_of_units_eq (h.line_eq_append.symm.trans hline) hunits
  have hfront : (front ++ left).rdropWhile Text.isLetterOrDigit ++
      (front ++ left).rtakeWhile Text.isLetterOrDigit = front ++ left :=
    List.rdropWhile_append_rtakeWhile
  rw [h.rtakeWhile_eq] at hfront
  exact ⟨(List.append_cancel_right hfront).symm, h.rtakeWhile_eq.symm, h.takeWhile_eq.symm⟩

theorem Touches.exists_eq_append (h : Touches line column front run back)
    (hcut : Text.IsBoundary line column) :
    ∃ left right, run = left ++ right ∧ Text.units (front ++ left) = column := by
  obtain ⟨before, after, hline, rfl⟩ := hcut
  have heq : front ++ (run ++ back) = before ++ after := by
    rw [← List.append_assoc, ← h.line_eq, hline]
  obtain ⟨left, rfl⟩ := Text.prefix_of_units_le heq h.start_le
  have heq' : front ++ left ++ after = front ++ run ++ back := by
    rw [← hline, h.line_eq]
  obtain ⟨right, hright⟩ := Text.prefix_of_units_le heq' h.le_stop
  rw [List.append_assoc] at hright
  exact ⟨left, right, (List.append_cancel_left hright).symm, rfl⟩

/-- One run at most touches a column between whole characters. -/
theorem Touches.unique {front' run' back' : List Char} (h : Touches line column front run back)
    (h' : Touches line column front' run' back') (hcut : Text.IsBoundary line column) :
    front = front' ∧ run = run' := by
  obtain ⟨left, right, rfl, hunits⟩ := h.exists_eq_append hcut
  obtain ⟨left', right', rfl, hunits'⟩ := h'.exists_eq_append hcut
  obtain ⟨before, after, hline, hcolumn⟩ := hcut
  obtain ⟨rfl, rfl, rfl⟩ := h.eq_of_cut hline (hunits.trans hcolumn.symm)
  obtain ⟨rfl, rfl, rfl⟩ := h'.eq_of_cut hline (hunits'.trans hcolumn.symm)
  exact ⟨rfl, rfl⟩

/-- Of the stretch around a column the scan finds the part after the last digit before it. -/
theorem identifierAt?_of_isStretch (hcomment : isLineComment line = false)
    (h : IsStretch line front (left ++ right) back)
    (hunits : Text.units (front ++ left) = min column (Text.units line)) :
    identifierAt? line column =
      if left.rtakeWhile Text.isLetter ++ right = [] then none
      else some (left.rtakeWhile Text.isLetter ++ right) := by
  rw [identifierAt?_of_cut hcomment h.line_eq_append hunits,
    Text.rtakeWhile_append_of_getLast? (Text.getLast?_any_isLetter h.front_end), h.takeWhile_eq]

/-- What a run holds after its last digit before a column: the letters directly before the column
and all that the run holds from the column on. -/
def IsRest (front run : List Char) (column : Nat) (word : List Char) : Prop :=
  ∃ skipped letters rest, run = skipped ++ letters ++ rest ∧ word = letters ++ rest ∧
    Text.units (front ++ skipped ++ letters) = column ∧ (∀ c ∈ letters, Text.isLetter c) ∧
    skipped.getLast?.any Text.isLetter = false

theorem isRest_iff (hunits : Text.units (front ++ left) = column) :
    IsRest front (left ++ right) column word ↔ word = left.rtakeWhile Text.isLetter ++ right := by
  constructor
  · rintro ⟨skipped, letters, rest, hrun, rfl, hcolumn, hletters, hskipped⟩
    have heq : front ++ left ++ right = front ++ skipped ++ letters ++ rest := by
      rw [List.append_assoc front left, hrun]
      simp only [List.append_assoc]
    obtain ⟨hleft, rfl⟩ := Text.append_eq_of_units_eq heq (hunits.trans hcolumn.symm)
    rw [List.append_assoc] at hleft
    obtain rfl := List.append_cancel_left hleft
    rw [Text.rtakeWhile_append_of_getLast? hskipped, List.rtakeWhile_eq_self_iff.mpr hletters]
  · rintro rfl
    have hleft : left.rdropWhile Text.isLetter ++ left.rtakeWhile Text.isLetter = left :=
      List.rdropWhile_append_rtakeWhile
    refine ⟨left.rdropWhile Text.isLetter, left.rtakeWhile Text.isLetter, right, ?_, rfl, ?_,
      fun c hc => List.mem_rtakeWhile_imp hc, Text.getLast?_rdropWhile_any _ left⟩
    · rw [hleft]
    · rw [List.append_assoc, hleft, hunits]

theorem IsStretch.touches (h : IsStretch line front (left ++ right) back)
    (hword : left.rtakeWhile Text.isLetter ++ right ≠ [])
    (hunits : Text.units (front ++ left) = column) :
    Touches line column front (left ++ right) back where
  toIsStretch := h
  ne_nil := by
    rintro hnil
    obtain ⟨rfl, rfl⟩ := List.append_eq_nil_iff.mp hnil
    exact hword rfl
  start_le := by
    rw [← hunits, Text.units_append]
    exact Nat.le_add_right _ _
  le_stop := by
    rw [← hunits, ← List.append_assoc, Text.units_append (front ++ left)]
    exact Nat.le_add_right _ _

structure ReadsRun (line : List Char) (column : Nat) : Prop where
  run_unique : ∀ front run back front' run' back',
    Touches line (min column (Text.units line)) front run back →
    Touches line (min column (Text.units line)) front' run' back' → front = front' ∧ run = run'
  some_iff : ∀ word, identifierAt? line column = some word ↔
    word ≠ [] ∧ ∃ front run back, Touches line (min column (Text.units line)) front run back ∧
      IsRest front run (min column (Text.units line)) word
  /-- The whole run is found exactly if none of its digits comes before the column. -/
  whole_iff : ∀ front left right back,
    Touches line (min column (Text.units line)) front (left ++ right) back →
    Text.units (front ++ left) = min column (Text.units line) →
      (identifierAt? line column = some (left ++ right) ↔ ∀ c ∈ left, Text.isLetter c)
  /-- Two columns of one run with letters only between them find the same. -/
  same : ∀ column' front left between right back,
    IsRun line front (left ++ between ++ right) back →
    Text.units (front ++ left) = min column (Text.units line) →
    Text.units (front ++ left ++ between) = min column' (Text.units line) →
    (∀ c ∈ between, Text.isLetter c) → identifierAt? line column' = identifierAt? line column
  /-- Nothing is found away from runs, and at the end of a run that ends in a digit. -/
  none_iff : identifierAt? line column = none ↔
    ∀ front run back, Touches line (min column (Text.units line)) front run back →
      Text.units (front ++ run) = min column (Text.units line) ∧
        run.getLast?.any Text.isLetter = false

theorem identifierAt?_eq_some_iff_isRest (hcomment : isLineComment line = false)
    (hcut : Text.IsBoundary line (min column (Text.units line))) :
    identifierAt? line column = some word ↔
      word ≠ [] ∧ ∃ front run back, Touches line (min column (Text.units line)) front run back ∧
        IsRest front run (min column (Text.units line)) word := by
  constructor
  · intro h
    obtain ⟨before, after, hline, hunits⟩ := hcut
    have hstretch := isStretch_of_cut hline
    have hstart : Text.units (before.rdropWhile Text.isLetterOrDigit ++
        before.rtakeWhile Text.isLetterOrDigit) = min column (Text.units line) := by
      rw [List.rdropWhile_append_rtakeWhile, hunits]
    rw [identifierAt?_of_isStretch hcomment hstretch hstart] at h
    split at h
    · cases h
    · rename_i hword
      obtain rfl := Option.some.inj h
      exact ⟨hword, _, _, _, hstretch.touches hword hstart, (isRest_iff hstart).mpr rfl⟩
  · rintro ⟨hword, front, run, back, htouches, hrest⟩
    obtain ⟨left, right, rfl, hunits⟩ := htouches.exists_eq_append hcut
    obtain rfl := (isRest_iff hunits).mp hrest
    rw [identifierAt?_of_isStretch hcomment htouches.toIsStretch hunits, if_neg hword]

theorem identifierAt?_eq_run_iff (hcomment : isLineComment line = false)
    (h : Touches line (min column (Text.units line)) front (left ++ right) back)
    (hunits : Text.units (front ++ left) = min column (Text.units line)) :
    identifierAt? line column = some (left ++ right) ↔ ∀ c ∈ left, Text.isLetter c := by
  rw [identifierAt?_of_isStretch hcomment h.toIsStretch hunits, ← List.rtakeWhile_eq_self_iff]
  constructor
  · intro hfound
    split at hfound
    · cases hfound
    · exact List.append_cancel_right (Option.some.inj hfound)
  · intro hletters
    rw [hletters, if_neg h.ne_nil]

theorem identifierAt?_eq_none_iff_touches (hcomment : isLineComment line = false)
    (hcut : Text.IsBoundary line (min column (Text.units line))) :
    identifierAt? line column = none ↔
      ∀ front run back, Touches line (min column (Text.units line)) front run back →
        Text.units (front ++ run) = min column (Text.units line) ∧
          run.getLast?.any Text.isLetter = false := by
  constructor
  · intro hnone front run back htouches
    obtain ⟨left, right, rfl, hunits⟩ := htouches.exists_eq_append hcut
    rw [identifierAt?_of_isStretch hcomment htouches.toIsStretch hunits] at hnone
    split at hnone
    · rename_i hnil
      obtain ⟨hletters, rfl⟩ := List.append_eq_nil_iff.mp hnil
      rw [List.append_nil]
      exact ⟨hunits, Text.rtakeWhile_eq_nil_iff_getLast?.mp hletters⟩
    · cases hnone
  · intro hdigit
    cases hfound : identifierAt? line column with
    | none => rfl
    | some word =>
      obtain ⟨hword, front, run, back, htouches, hrest⟩ :=
        (identifierAt?_eq_some_iff_isRest hcomment hcut).mp hfound
      obtain ⟨hstop, hlast⟩ := hdigit front run back htouches
      rw [← List.append_nil run] at hrest
      obtain rfl := (isRest_iff hstop).mp hrest
      rw [List.append_nil, Text.rtakeWhile_eq_nil_iff_getLast?.mpr hlast] at hword
      exact absurd rfl hword

theorem identifierAt?_eq_of_letters_between {between : List Char} {column' : Nat}
    (hcomment : isLineComment line = false)
    (h : IsRun line front (left ++ between ++ right) back)
    (hunits : Text.units (front ++ left) = min column (Text.units line))
    (hunits' : Text.units (front ++ left ++ between) = min column' (Text.units line))
    (hletters : ∀ c ∈ between, Text.isLetter c) :
    identifierAt? line column' = identifierAt? line column := by
  have hstretch : IsStretch line front (left ++ (between ++ right)) back := by
    rw [← List.append_assoc]
    exact h.toIsStretch
  rw [List.append_assoc] at hunits'
  rw [identifierAt?_of_isStretch hcomment h.toIsStretch hunits',
    identifierAt?_of_isStretch hcomment hstretch hunits,
    Text.rtakeWhile_append_of_all hletters, List.append_assoc]

/-- At every column between whole characters of a line of code, the scan finds what the run around
the column holds after its last digit before the column. -/
theorem readsRun (line : List Char) (column : Nat) (code : isLineComment line = false)
    (cut : Text.IsBoundary line (min column (Text.units line))) : ReadsRun line column where
  run_unique _ _ _ _ _ _ h h' := h.unique h' cut
  some_iff _ := identifierAt?_eq_some_iff_isRest code cut
  whole_iff _ _ _ _ htouches hunits := identifierAt?_eq_run_iff code htouches hunits
  same _ _ _ _ _ _ hrun hunits hunits' hletters :=
    identifierAt?_eq_of_letters_between code hrun hunits hunits' hletters
  none_iff := identifierAt?_eq_none_iff_touches code cut

/-- Within `x1y2` and behind its first digit, only the second half is found. -/
theorem readsRun_second_half :
    isLineComment "x1y2".toList = false ∧
      Text.IsBoundary "x1y2".toList (min 3 (Text.units "x1y2".toList)) ∧
      identifierAt? "x1y2".toList 3 = some "y2".toList := by
  have hcode : isLineComment "x1y2".toList = false := by decide
  have hcut : Text.IsBoundary "x1y2".toList (min 3 (Text.units "x1y2".toList)) :=
    ⟨"x1y".toList, "2".toList, by decide, by decide⟩
  have hrun : Touches "x1y2".toList 3 [] "x1y2".toList [] :=
    ⟨⟨⟨by decide, List.all_eq_true.mp (by decide), by decide, by decide⟩, by decide⟩,
      by decide, by decide⟩
  have hrest : IsRest [] "x1y2".toList 3 "y2".toList :=
    ⟨"x1".toList, "y".toList, "2".toList, by decide, by decide, by decide,
      List.all_eq_true.mp (by decide), by decide⟩
  exact ⟨hcode, hcut,
    ((readsRun "x1y2".toList 3 hcode hcut).some_iff _).mpr ⟨by decide, _, _, _, hrun, hrest⟩⟩

/-- What is found at a column is the whole run that touches it, if the run begins with a letter. -/
def FindsWholeRun (line : List Char) (column : Nat) : Prop :=
  ∀ word, identifierAt? line column = some word ↔
    (∃ front back, Touches line (min column (Text.units line)) front word back) ∧
      word.head?.any Text.isLetter = true

/-- Nothing is found at the end of `Widget2`, though it begins with a letter, and all of `2x` is
found at its start, though it does not. -/
theorem not_findsWholeRun :
    ¬ (∀ (line : List Char) (column : Nat), isLineComment line = false →
      Text.IsBoundary line (min column (Text.units line)) → FindsWholeRun line column) ∧
    ¬ FindsWholeRun "Widget2".toList 7 ∧ ¬ FindsWholeRun "2x".toList 0 := by
  have hwidget : ¬ FindsWholeRun "Widget2".toList 7 := by
    intro h
    have hrun : Touches "Widget2".toList 7 [] "Widget2".toList [] :=
      ⟨⟨⟨by decide, List.all_eq_true.mp (by decide), by decide, by decide⟩, by decide⟩,
        by decide, by decide⟩
    have hfound := (h "Widget2".toList).mpr ⟨⟨_, _, hrun⟩, by decide⟩
    exact absurd hfound (by decide)
  have hdigit : ¬ FindsWholeRun "2x".toList 0 := by
    intro h
    have hfound : identifierAt? "2x".toList 0 = some "2x".toList := by decide
    exact absurd ((h _).mp hfound).2 (by decide)
  refine ⟨fun h => hwidget (h _ _ (by decide) ?_), hwidget, hdigit⟩
  exact ⟨"Widget2".toList, [], by decide, by decide⟩

end CodeNav
