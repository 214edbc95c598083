import Mathlib
import CodeNav.Placement
import CodeNav.Proofs.StableSort

/-! # Search for one hit at a time

A hit has a place of its own: the first line on which some convention accepts it, under the first
such convention. Placing the hits of a file together gives each hit that place, and lists the places
by line and, within a line, by offset.
-/

namespace CodeNav.Placement

def lineStart (lines : List (List Char)) (ending : LineEnding) (k : Nat) : Nat :=
  ((lines.take k).map fun line => Text.units line + ending.width).sum

/-- The window of a line under a convention holds the offset of a hit, and the candidate at that
offset is accepted. -/
def FitsAt (criterion : Criterion) (lines : List (List Char)) (hit : Hit) (k : Nat)
    (ending : LineEnding) (accepted : Accepted) : Prop :=
  ∃ line, lines[k]? = some line ∧ lineStart lines ending k ≤ hit.offset ∧
    hit.offset < lineStart lines ending k + Text.units line ∧
    criterion.accept line (hit.offset - lineStart lines ending k) hit.length = some accepted

def symbolOf (path : String) (lines : List (List Char)) (hit : Hit) (k : Nat)
    (ending : LineEnding) (accepted : Accepted) : Symbol :=
  Symbol.onLine path k (hit.offset - lineStart lines ending k) accepted.endColumn
    (String.ofList accepted.text)

/-- A symbol is the place of a hit: no convention accepts the hit on an earlier line, and no earlier
convention does on the same line. -/
def IsPlaceOf (endings : List LineEnding) (criterion : Criterion) (path : String)
    (lines : List (List Char)) (hit : Hit) (symbol : Symbol) : Prop :=
  ∃ k before ending after accepted,
    endings = before ++ ending :: after ∧
    FitsAt criterion lines hit k ending accepted ∧
    (∀ other ∈ before, ∀ a, ¬ FitsAt criterion lines hit k other a) ∧
    (∀ j < k, ∀ other ∈ endings, ∀ a, ¬ FitsAt criterion lines hit j other a) ∧
    symbol = symbolOf path lines hit k ending accepted

def symbolAt? (criterion : Criterion) (path : String) (lines : List (List Char)) (hit : Hit)
    (k : Nat) (ending : LineEnding) : Option Symbol := do
  let line ← lines[k]?
  let start := lineStart lines ending k
  if start ≤ hit.offset ∧ hit.offset < start + Text.units line then
    (criterion.accept line (hit.offset - start) hit.length).map
      (symbolOf path lines hit k ending)
  else none

/-- The symbol of a hit on one line, under the first convention that accepts it there. -/
def placeOn? (endings : List LineEnding) (criterion : Criterion) (path : String)
    (lines : List (List Char)) (hit : Hit) (k : Nat) : Option Symbol :=
  endings.findSome? (symbolAt? criterion path lines hit k)

/-- The place of a hit, searched for without regard to any other hit. -/
def place? (endings : List LineEnding) (criterion : Criterion) (path : String)
    (lines : List (List Char)) (hit : Hit) : Option Symbol :=
  (List.range lines.length).findSome? (placeOn? endings criterion path lines hit)

structure Located where
  hit : Hit
  symbol : Symbol

def Located.position (located : Located) : Nat ×ₗ Nat :=
  toLex (located.symbol.startLine, located.hit.offset)

variable {endings : List LineEnding} {criterion : Criterion} {path : String}
  {lines : List (List Char)} {hit : Hit} {k : Nat}

theorem lineStart_succ {line : List Char} (h : lines[k]? = some line) (ending : LineEnding) :
    lineStart lines ending (k + 1) =
      lineStart lines ending k + (Text.units line + ending.width) := by
  obtain ⟨hk, rfl⟩ := List.getElem?_eq_some_iff.mp h
  rw [lineStart, List.take_succ_eq_append_getElem hk, List.map_append, List.sum_append]
  simp [lineStart]

theorem symbolAt?_eq_some_iff {ending : LineEnding} {symbol : Symbol} :
    symbolAt? criterion path lines hit k ending = some symbol ↔
      ∃ accepted, FitsAt criterion lines hit k ending accepted ∧
        symbol = symbolOf path lines hit k ending accepted := by
  unfold symbolAt? FitsAt
  cases hk : lines[k]? with
  | none => simp
  | some line =>
    simp only [Option.bind_eq_bind, Option.bind_some, Option.some.injEq]
    split
    · rename_i hw
      simp only [Option.map_eq_some_iff]
      constructor
      · rintro ⟨accepted, ha, rfl⟩
        exact ⟨accepted, ⟨line, rfl, hw.1, hw.2, ha⟩, rfl⟩
      · rintro ⟨accepted, ⟨_, rfl, _, _, ha⟩, rfl⟩
        exact ⟨accepted, ha, rfl⟩
    · rename_i hw
      simp only [reduceCtorEq, false_iff]
      rintro ⟨_, ⟨_, rfl, h₁, h₂, _⟩, _⟩
      exact hw ⟨h₁, h₂⟩

theorem symbolAt?_eq_none_iff {ending : LineEnding} :
    symbolAt? criterion path lines hit k ending = none ↔
      ∀ a, ¬ FitsAt criterion lines hit k ending a := by
  rw [Option.eq_none_iff_forall_ne_some]
  simp only [ne_eq, symbolAt?_eq_some_iff, not_exists, not_and]
  exact ⟨fun h a ha => h _ a ha rfl, fun h _ a ha => absurd ha (h a)⟩

theorem placeOn?_eq_none_iff :
    placeOn? endings criterion path lines hit k = none ↔
      ∀ ending ∈ endings, ∀ a, ¬ FitsAt criterion lines hit k ending a := by
  simp only [placeOn?, List.findSome?_eq_none_iff, symbolAt?_eq_none_iff]

theorem startLine_of_placeOn? {symbol : Symbol}
    (h : placeOn? endings criterion path lines hit k = some symbol) : symbol.startLine = k := by
  obtain ⟨ending, -, h⟩ := List.exists_of_findSome?_eq_some h
  obtain ⟨accepted, -, rfl⟩ := symbolAt?_eq_some_iff.mp h
  rfl

/-- The search finds exactly the place of a hit. -/
theorem place?_eq_some_iff {symbol : Symbol} :
    place? endings criterion path lines hit = some symbol ↔
      IsPlaceOf endings criterion path lines hit symbol := by
  constructor
  · intro h
    obtain ⟨l₁, k, l₂, hr, hk, hbefore⟩ := List.findSome?_eq_some_iff.mp h
    obtain ⟨before, ending, after, he, hs, hothers⟩ := List.findSome?_eq_some_iff.mp hk
    obtain ⟨accepted, hfit, rfl⟩ := symbolAt?_eq_some_iff.mp hs
    refine ⟨k, before, ending, after, accepted, he, hfit,
      fun other ho => symbolAt?_eq_none_iff.mp (hothers other ho), fun j hj => ?_, rfl⟩
    apply placeOn?_eq_none_iff.mp
    apply hbefore
    have hj' : j ∈ l₁ ++ k :: l₂ := by
      have hk' : k ∈ List.range lines.length := by rw [hr]; simp
      rw [← hr]
      exact List.mem_range.mpr (hj.trans (List.mem_range.mp hk'))
    have hp : (l₁ ++ k :: l₂).Pairwise (· < ·) := hr ▸ List.pairwise_lt_range
    rcases List.mem_append.mp hj' with hj' | hj'
    · exact hj'
    · have hle : k ≤ j := by
        rcases List.mem_cons.mp hj' with rfl | hj'
        · exact le_rfl
        · exact (List.rel_of_pairwise_cons (List.pairwise_append.mp hp).2.1 hj').le
      exact absurd hj (Nat.not_lt.mpr hle)
  · rintro ⟨k, before, ending, after, accepted, he, hfit, hothers, hearlier, rfl⟩
    have hk : k < lines.length := by
      obtain ⟨line, hl, -⟩ := hfit
      exact (List.getElem?_eq_some_iff.mp hl).1
    apply List.findSome?_eq_some_iff.mpr
    refine ⟨List.range k, k, List.range' (k + 1) (lines.length - (k + 1)), ?_, ?_, ?_⟩
    · have hr := List.range'_append_1 (s := 0) (m := k) (n := lines.length - (k + 1) + 1)
      rw [Nat.zero_add] at hr
      rw [← List.range'_succ, List.range_eq_range', List.range_eq_range', hr]
      congr 1
      omega
    · apply List.findSome?_eq_some_iff.mpr
      exact ⟨before, ending, after, he, symbolAt?_eq_some_iff.mpr ⟨accepted, hfit, rfl⟩,
        fun other ho => symbolAt?_eq_none_iff.mpr (hothers other ho)⟩
    · intro j hj
      exact placeOn?_eq_none_iff.mpr (hearlier j (List.mem_range.mp hj))

end CodeNav.Placement
