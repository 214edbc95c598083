import CodeNav.Proofs.Json.Records

/-! # How deep a value is nested

A value fits into a depth if its objects are ordered and no more containers than that stand one in
the other.
-/

namespace CodeNav.Json

inductive IsOrdered : Json → Prop where
  | null : IsOrdered .null
  | bool (b : Bool) : IsOrdered (.bool b)
  | number (n : Number) : IsOrdered (.number n)
  | string (s : String) : IsOrdered (.string s)
  | array {items : List Json} (h : ∀ item ∈ items, IsOrdered item) : IsOrdered (.array items)
  | object {members : List (String × Json)} (hsorted : IsSorted members)
      (h : ∀ member ∈ members, IsOrdered member.2) : IsOrdered (.object members)

mutual

/-- The number of containers that stand one in the other, at the deepest place. -/
def nesting : Json → Nat
  | array items => itemNesting items + 1
  | object members => memberNesting members + 1
  | _ => 0

def itemNesting : List Json → Nat
  | [] => 0
  | item :: items => max item.nesting (itemNesting items)

def memberNesting : List (String × Json) → Nat
  | [] => 0
  | (_, value) :: members => max value.nesting (memberNesting members)

end

variable {json : Json} {items : List Json} {members : List (String × Json)} {depth : Nat}

theorem itemNesting_le_iff :
    itemNesting items ≤ depth ↔ ∀ item ∈ items, item.nesting ≤ depth := by
  induction items with
  | nil => simp [itemNesting]
  | cons item items ih => rw [itemNesting, Nat.max_le, ih, List.forall_mem_cons]

theorem memberNesting_le_iff :
    memberNesting members ≤ depth ↔ ∀ member ∈ members, member.2.nesting ≤ depth := by
  induction members with
  | nil => simp [memberNesting]
  | cons member members ih => rw [memberNesting, Nat.max_le, ih, List.forall_mem_cons]

theorem nesting_object_le_iff :
    (object members).nesting ≤ depth + 1 ↔ ∀ member ∈ members, member.2.nesting ≤ depth := by
  rw [nesting, Nat.add_le_add_iff_right, memberNesting_le_iff]

theorem Fits.isOrdered (h : Fits depth json) : json.IsOrdered := by
  induction h with
  | null => exact .null
  | bool _ b => exact .bool b
  | number _ n => exact .number n
  | string _ s => exact .string s
  | array _ ih => exact .array ih
  | object hsorted _ ih => exact .object hsorted ih

theorem Fits.nesting_le (h : Fits depth json) : json.nesting ≤ depth := by
  induction h with
  | null => exact Nat.zero_le _
  | bool => exact Nat.zero_le _
  | number => exact Nat.zero_le _
  | string => exact Nat.zero_le _
  | array _ ih =>
    rw [nesting]
    exact Nat.succ_le_succ (itemNesting_le_iff.mpr ih)
  | object _ _ ih => exact nesting_object_le_iff.mpr ih

theorem IsOrdered.fits (h : json.IsOrdered) (hdepth : json.nesting ≤ depth) : Fits depth json := by
  induction h generalizing depth with
  | null => exact .null depth
  | bool b => exact .bool depth b
  | number n => exact .number depth n
  | string s => exact .string depth s
  | array _ ih =>
    cases depth with
    | zero => exact absurd hdepth (Nat.not_succ_le_zero _)
    | succ depth =>
      have hitems := itemNesting_le_iff.mp (Nat.le_of_succ_le_succ hdepth)
      exact .array fun item hitem => ih item hitem (hitems item hitem)
  | object hsorted _ ih =>
    cases depth with
    | zero => exact absurd hdepth (Nat.not_succ_le_zero _)
    | succ depth =>
      have hmembers := nesting_object_le_iff.mp hdepth
      exact .object hsorted fun member hmember => ih member hmember (hmembers member hmember)

theorem fits_iff : Fits depth json ↔ json.IsOrdered ∧ json.nesting ≤ depth :=
  ⟨fun h => ⟨h.isOrdered, h.nesting_le⟩, fun ⟨hordered, hdepth⟩ => hordered.fits hdepth⟩

end CodeNav.Json
