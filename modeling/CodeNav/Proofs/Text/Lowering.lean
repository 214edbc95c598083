import CodeNav.Proofs.Text.Case

/-! # Texts that are lowered while they are read

Two texts are compared in lower case by reading both of them character by character, and one
character may lower to several. Wherever the reading stops, it has compared the lowered texts.
-/

namespace CodeNav.Text

variable {table : Char → List Char} {text text' start start' : List Char}

/-- A text that is lowered while it is read: what is still to come of the last character, and the
characters after it. -/
structure Lowering where
  expansion : List Char
  rest : List Char
  deriving DecidableEq, Repr

/-- The next lowered character, for which characters that lower to none are passed over. -/
def nextLowered? (table : Char → List Char) : List Char → List Char → Option (Char × Lowering)
  | c :: expansion, rest => some (c, ⟨expansion, rest⟩)
  | [], [] => none
  | [], c :: rest => nextLowered? table (table c) rest

namespace Lowering

def remaining (table : Char → List Char) (reading : Lowering) : List Char :=
  reading.expansion ++ reading.rest.flatMap table

/-- Reads the next lowered character, which has to be the given one. -/
def read? (table : Char → List Char) (reading : Lowering) (c : Char) : Option Lowering :=
  match nextLowered? table reading.expansion reading.rest with
  | some (d, next) => if d = c then some next else none
  | none => none

def readText? (table : Char → List Char) (reading : Lowering) (text : List Char) :
    Option Lowering :=
  text.foldlM (fun reading c => (table c).foldlM (read? table) reading) reading

end Lowering

/-- Steps that agree before and after what they leave out agree when they are repeated. -/
theorem map_foldlM {α β γ : Type} {f : β → α → Option β} {g : γ → α → Option γ} {view : β → γ}
    (h : ∀ state a, (f state a).map view = g (view state) a) (items : List α) (state : β) :
    (items.foldlM f state).map view = items.foldlM g (view state) := by
  induction items generalizing state with
  | nil => rfl
  | cons a items ih =>
    simp only [List.foldlM_cons, Option.bind_eq_bind, ← h state a]
    cases f state a with
    | none => rfl
    | some next => exact ih next

theorem nextLowered?_spec (table : Char → List Char) (expansion rest : List Char) :
    expansion ++ rest.flatMap table =
      match nextLowered? table expansion rest with
      | some (c, next) => c :: next.remaining table
      | none => [] := by
  fun_induction nextLowered? table expansion rest with
  | case1 => rfl
  | case2 => rfl
  | case3 c rest ih => exact ih

theorem map_remaining_read? (reading : Lowering) (c : Char) :
    (reading.read? table c).map (Lowering.remaining table) =
      match reading.remaining table with
      | [] => none
      | d :: rest => if d = c then some rest else none := by
  rw [Lowering.read?, Lowering.remaining, nextLowered?_spec]
  cases nextLowered? table reading.expansion reading.rest with
  | none => rfl
  | some pair => by_cases h : pair.1 = c <;> simp [h]

theorem map_remaining_readText? (reading : Lowering) (text : List Char) :
    (reading.readText? table text).map (Lowering.remaining table) =
      dropLowered? table (reading.remaining table) text :=
  map_foldlM (fun reading c => map_foldlM map_remaining_read? (table c) reading) text reading

/-- Lowering a text while it is read makes no difference to what it starts with. -/
theorem isSome_readText? (table : Char → List Char) (text start : List Char) :
    (Lowering.readText? table ⟨[], text⟩ start).isSome = startsWithLowered table text start := by
  rw [startsWithLowered, ← Option.isSome_map, map_remaining_readText?]
  rfl

theorem startsWithLowered_of_isPrefix (h : start <+: text) :
    startsWithLowered table text start = true := by
  obtain ⟨more, rfl⟩ := h
  rw [startsWithLowered_iff, List.flatMap_append]
  exact List.prefix_append _ _

theorem startsWithLowered_trans (h : startsWithLowered table text start = true)
    (h' : startsWithLowered table start start' = true) :
    startsWithLowered table text start' = true := by
  rw [startsWithLowered_iff] at h h' ⊢
  exact h'.trans h

theorem startsWithLowered_congr (htext : text.flatMap table = text'.flatMap table)
    (hstart : start.flatMap table = start'.flatMap table) :
    startsWithLowered table text start = startsWithLowered table text' start' := by
  rw [Bool.eq_iff_iff, startsWithLowered_iff, startsWithLowered_iff, htext, hstart]

structure ComparesLowered (table : Char → List Char) : Prop where
  prefix_iff : ∀ text start, startsWithLowered table text start = true ↔
    start.flatMap table <+: text.flatMap table
  /-- This is found by reading both texts character by character. -/
  inSteps : ∀ text start,
    (Lowering.readText? table ⟨[], text⟩ start).isSome = startsWithLowered table text start
  refl : ∀ text, startsWithLowered table text text = true
  trans : ∀ text middle start, startsWithLowered table text middle = true →
    startsWithLowered table middle start = true → startsWithLowered table text start = true
  of_prefix : ∀ text start, start <+: text → startsWithLowered table text start = true
  append : ∀ text start more, startsWithLowered table text start = true →
    startsWithLowered table (text ++ more) start = true
  congr : ∀ text text' start start', text.flatMap table = text'.flatMap table →
    start.flatMap table = start'.flatMap table →
      startsWithLowered table text start = startsWithLowered table text' start'

/-- This holds for every table, also if characters lower to none or to several. -/
theorem comparesLowered (table : Char → List Char) : ComparesLowered table where
  prefix_iff _ _ := startsWithLowered_iff
  inSteps := isSome_readText? table
  refl _ := startsWithLowered_of_isPrefix List.prefix_rfl
  trans _ _ _ := startsWithLowered_trans
  of_prefix _ _ := startsWithLowered_of_isPrefix
  append text _ more h :=
    startsWithLowered_trans (startsWithLowered_of_isPrefix (List.prefix_append text more)) h
  congr _ _ _ _ := startsWithLowered_congr

/-- The second text ends in the middle of what the first one lowers to. -/
example : startsWithIgnoringCase ['İ'] ['I'] = true ∧
    startsWithIgnoringCase ['I'] ['İ'] = false := by
  decide

end CodeNav.Text
