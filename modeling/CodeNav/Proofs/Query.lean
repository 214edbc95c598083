import CodeNav.Query

/-! # Queries with one key

The key of a query is its pattern: a qualifier, the filter and perhaps a star, with nothing between
them. A filter that itself holds a qualifier or ends in a star makes the key of another query.
-/

namespace CodeNav.Query

variable {q r : Query}

/-- Two queries that agree in all that their results depend on, the number of files apart. -/
structure SameQuestion (q r : Query) : Prop where
  kind : q.kind = r.kind
  filter : q.filter = r.filter
  exact : q.exact = r.exact

/-- The filter of a query writes out what another query has as its qualifier or its star. -/
inductive Mimics (q r : Query) : Prop where
  | star (hkind : q.kind = r.kind) (hq : q.exact = true) (hr : r.exact = false)
      (hfilter : q.filter = r.filter ++ "*")
  | qualifier (hq : q.kind = .references) (hr : r.kind = .definitions) (hexact : q.exact = r.exact)
      (hfilter : q.filter = "def:" ++ r.filter)
  | both (hq : q.kind = .references ∧ q.exact = true) (hr : r.kind = .definitions ∧ r.exact = false)
      (hfilter : q.filter = "def:" ++ r.filter ++ "*")
  | crossed (middle : String) (hq : q.kind = .references ∧ q.exact = false)
      (hr : r.kind = .definitions ∧ r.exact = true) (hfilter : q.filter = "def:" ++ middle)
      (hfilter' : r.filter = middle ++ "*")

theorem SameQuestion.cacheKey_eq (h : SameQuestion q r) : q.cacheKey = r.cacheKey := by
  rw [cacheKey, cacheKey, pattern, pattern, h.kind, h.filter, h.exact]

theorem Mimics.cacheKey_eq (h : Mimics q r) : q.cacheKey = r.cacheKey := by
  simp only [cacheKey, pattern]
  cases h with
  | star hkind hq hr hfilter => simp [hkind, hq, hr, hfilter, String.append_assoc]
  | qualifier hq hr hexact hfilter =>
    simp [hq, hr, hexact, hfilter, Kind.qualifier, String.append_assoc]
  | both hq hr hfilter =>
    simp [hq.1, hq.2, hr.1, hr.2, hfilter, Kind.qualifier, String.append_assoc]
  | crossed middle hq hr hfilter hfilter' =>
    simp [hq.1, hq.2, hr.1, hr.2, hfilter, hfilter', Kind.qualifier, String.append_assoc]

theorem Mimics.not_sameQuestion (h : Mimics q r) : ¬ SameQuestion q r := by
  intro hsame
  cases h with
  | star _ hq hr _ => simp [hsame.exact, hr] at hq
  | qualifier hq hr _ _ => simp [hsame.kind, hr] at hq
  | both hq hr _ => simp [hsame.kind, hr.1] at hq
  | crossed _ hq hr _ _ => simp [hsame.kind, hr.1] at hq

theorem of_kind_eq (hkind : q.kind = r.kind) (h : q.cacheKey = r.cacheKey) :
    SameQuestion q r ∨ Mimics q r ∨ Mimics r q := by
  simp only [cacheKey, pattern, hkind, String.append_assoc, String.append_right_inj] at h
  cases hq : q.exact <;> cases hr : r.exact
  · left
    rw [hq, hr] at h
    exact ⟨hkind, (String.append_left_inj _).mp h, hq.trans hr.symm⟩
  · right; right
    rw [hq, hr] at h
    exact .star hkind.symm hr hq (by simpa using h.symm)
  · right; left
    rw [hq, hr] at h
    exact .star hkind hq hr (by simpa using h)
  · left
    rw [hq, hr] at h
    exact ⟨hkind, (String.append_left_inj _).mp h, hq.trans hr.symm⟩

theorem exists_middle {a b : String} (h : a ++ "*" = "def:" ++ b) :
    ∃ middle, a = "def:" ++ middle ∧ b = middle ++ "*" := by
  simp only [← String.toList_inj, String.toList_append] at h ⊢
  rcases List.append_eq_append_iff.mp h with ⟨rest, hqualifier, hstar⟩ | ⟨middle, ha, hb⟩
  · cases rest with
    | nil => exact ⟨"", by simpa using hqualifier.symm, by simpa using hstar.symm⟩
    | cons c rest =>
      obtain ⟨rfl, -⟩ : '*' = c ∧ [] = rest ++ b.toList := by simpa using hstar
      have hmem : '*' ∈ "def:".toList := by simp [hqualifier]
      exact absurd hmem (by decide)
  · exact ⟨String.ofList middle, by simpa using ha, by simpa using hb⟩

theorem mimics_of_kind_ne (hq : q.kind = .references) (hr : r.kind = .definitions)
    (h : q.cacheKey = r.cacheKey) : Mimics q r := by
  simp only [cacheKey, pattern, hq, hr, Kind.qualifier, String.empty_append] at h
  cases hqe : q.exact <;> cases hre : r.exact <;> rw [hqe, hre] at h
  · refine .qualifier hq hr (hqe.trans hre.symm) ((String.append_left_inj _).mp h)
  · obtain ⟨middle, ha, hb⟩ := exists_middle (a := q.filter) (b := r.filter) (by simpa using h)
    exact .crossed middle ⟨hq, hqe⟩ ⟨hr, hre⟩ ha hb
  · exact .both ⟨hq, hqe⟩ ⟨hr, hre⟩ (by simpa using h)
  · exact .qualifier hq hr (hqe.trans hre.symm) (by simpa using h)

/-- Two queries share a key exactly if they are the same question or one mimics the other. -/
theorem cacheKey_eq_iff :
    q.cacheKey = r.cacheKey ↔ SameQuestion q r ∨ Mimics q r ∨ Mimics r q := by
  constructor
  · intro h
    cases hq : q.kind <;> cases hr : r.kind
    · exact of_kind_eq (hq.trans hr.symm) h
    · exact .inr (.inr (mimics_of_kind_ne hr hq h.symm))
    · exact .inr (.inl (mimics_of_kind_ne hq hr h))
    · exact of_kind_eq (hq.trans hr.symm) h
  · rintro (h | h | h)
    · exact h.cacheKey_eq
    · exact h.cacheKey_eq
    · exact h.cacheKey_eq.symm

end CodeNav.Query
