import Mathlib.Data.List.Induction
import Mathlib.Data.List.Nodup
import CodeNav.Json.Decoder
import CodeNav.Word

/-! # Values and records read from documents

A value that is not too deep and has its members in order is read from its document as it is. The
fields of a record are found by their names, in whatever order they stand.
-/

namespace CodeNav.Json

variable {json : Json} {items : List Json} {members : List (String × Json)} {depth : Nat}
  {name : String} {value : Json}

def IsSorted (members : List (String × Json)) : Prop :=
  (members.map Prod.fst).Pairwise fun name other => compare other name = .gt

theorem insertMember_of_gt (h : ∀ other ∈ members, compare name other.1 = .gt) (value : Json) :
    insertMember name value members = members ++ [(name, value)] := by
  induction members with
  | nil => rfl
  | cons other members ih =>
    have hother := h other List.mem_cons_self
    simp only [insertMember, hother, List.cons_append]
    rw [ih fun member hmember => h member (List.mem_cons_of_mem _ hmember)]

theorem sortMembers_of_isSorted (h : IsSorted members) : sortMembers members = members := by
  induction members using List.reverseRecOn with
  | nil => rfl
  | append_singleton members member ih =>
    rw [IsSorted, List.map_append, List.pairwise_append] at h
    obtain ⟨hbefore, -, hlast⟩ := h
    have hgt : ∀ other ∈ members, compare member.1 other.1 = .gt := fun other hother =>
      hlast other.1 (List.mem_map_of_mem hother) member.1 (by simp)
    rw [sortMembers, List.foldl_append, ← sortMembers, ih hbefore]
    exact insertMember_of_gt hgt member.2

/-- The value opens at most so many containers, one in the other, and its objects are sorted. -/
inductive Fits : Nat → Json → Prop where
  | null (depth : Nat) : Fits depth .null
  | bool (depth : Nat) (b : Bool) : Fits depth (.bool b)
  | number (depth : Nat) (n : Number) : Fits depth (.number n)
  | string (depth : Nat) (s : String) : Fits depth (.string s)
  | array {depth : Nat} {items : List Json} (h : ∀ item ∈ items, Fits depth item) :
      Fits (depth + 1) (.array items)
  | object {depth : Nat} {members : List (String × Json)} (hsorted : IsSorted members)
      (h : ∀ member ∈ members, Fits depth member.2) : Fits (depth + 1) (.object members)

namespace Document

theorem values?_ofItems (h : ∀ item ∈ items, (ofJson item).value? depth = some item) :
    values? depth (ofItems items) = some items := by
  induction items with
  | nil => rfl
  | cons item items ih =>
    have hitem := h item List.mem_cons_self
    have hitems := ih fun other hother => h other (List.mem_cons_of_mem _ hother)
    simp [ofItems, values?, hitem, hitems]

theorem memberValues?_ofMembers
    (h : ∀ member ∈ members, (ofJson member.2).value? depth = some member.2) :
    memberValues? depth (ofMembers members) = some members := by
  induction members with
  | nil => rfl
  | cons member members ih =>
    have hmember := h member List.mem_cons_self
    have hmembers := ih fun other hother => h other (List.mem_cons_of_mem _ hother)
    simp [ofMembers, memberValues?, hmember, hmembers]

theorem value?_ofJson (h : Fits depth json) : (ofJson json).value? depth = some json := by
  induction h with
  | null => rfl
  | bool => rfl
  | number => rfl
  | string => rfl
  | array _ ih => simp [ofJson, value?, values?_ofItems ih]
  | object hsorted _ ih =>
    simp [ofJson, value?, memberValues?_ofMembers ih, sortMembers_of_isSorted hsorted]

end Document

theorem exactInteger_of_lt {n : Nat} (h : n < wordLimit) : ExactInteger n :=
  ⟨by omega, Int.ofNat_lt.mpr h⟩

theorem natural_of_lt {n : Nat} (h : n < wordLimit) :
    natural n = .number (.integer n (exactInteger_of_lt h)) :=
  dif_pos _

namespace Decoder

theorem integerFrom_integer {least greatest n : Int} (exact : ExactInteger n) (hleast : least ≤ n)
    (hgreatest : n ≤ greatest) (depth : Nat) :
    integerFrom least greatest depth (.number (some (.integer n exact))) = some n :=
  if_pos ⟨hleast, hgreatest⟩

theorem natural_ofJson {n : Nat} (h : n < wordLimit) (depth : Nat) :
    natural depth (.ofJson (.natural n)) = some n := by
  have hgreatest : (n : Int) ≤ (1 <<< 64 : Nat) - 1 := Int.le_sub_one_of_lt (Int.ofNat_lt.mpr h)
  rw [natural_of_lt h, natural, Document.ofJson,
    integerFrom_integer _ (Int.natCast_nonneg n) hgreatest]
  rfl

def IsInt64 (n : Int) : Prop := -(1 <<< 63 : Nat) ≤ n ∧ n ≤ (1 <<< 63 : Nat) - 1

theorem IsInt64.exactInteger {n : Int} (h : IsInt64 n) : ExactInteger n :=
  ⟨h.1, by have hlt := h.2; omega⟩

theorem integer_ofJson {n : Int} (exact : ExactInteger n) (h : IsInt64 n) (depth : Nat) :
    integer depth (.ofJson (.number (.integer n exact))) = some n :=
  integerFrom_integer exact h.1 h.2 depth

theorem filter_eq_lookup {entries : List (String × α)} (h : (entries.map Prod.fst).Nodup)
    (name : String) :
    entries.filter (·.1 = name) =
      ((entries.lookup name).map fun value => (name, value)).toList := by
  induction entries with
  | nil => rfl
  | cons entry entries ih =>
    obtain ⟨other, value⟩ := entry
    rw [List.map_cons, List.nodup_cons] at h
    by_cases hname : other = name
    · subst hname
      have hnone : entries.filter (·.1 = other) = [] := by
        refine List.filter_eq_nil_iff.mpr fun entry hentry heq => h.1 ?_
        exact List.mem_map.mpr ⟨entry, hentry, by simpa using heq⟩
      simp [hnone]
    · have hbeq : (name == other) = false := by simpa using Ne.symm hname
      simp [hname, List.lookup_cons, hbeq, ih h.2]

theorem mapM_ofMembers {read : Option String × Document → Option (String × Document)}
    (h : ∀ name item, read (some name, item) = some (name, item))
    (members : List (String × Json)) :
    (Document.ofMembers members).mapM read =
      some (members.map fun member => (member.1, Document.ofJson member.2)) := by
  induction members with
  | nil => rfl
  | cons member members ih => simp [Document.ofMembers, h, ih]

theorem mapM_eq_some {α β : Type} {read : α → Option β} {result : α → β} {entries : List α}
    (h : ∀ entry ∈ entries, read entry = some (result entry)) :
    entries.mapM read = some (entries.map result) := by
  induction entries with
  | nil => rfl
  | cons entry entries ih =>
    have hentries := ih fun other hother => h other (List.mem_cons_of_mem _ hother)
    simp [h entry List.mem_cons_self, hentries]

theorem lookup_map_ofJson (members : List (String × Json)) (name : String) :
    (members.map fun member => (member.1, Document.ofJson member.2)).lookup name =
      (members.lookup name).map .ofJson := by
  induction members with
  | nil => rfl
  | cons member members ih =>
    rw [List.map_cons, List.lookup_cons, List.lookup_cons]
    split <;> simp [ih]

theorem fields_ofJson (names : List String) (depth : Nat)
    (h : (members.map Prod.fst).Nodup) :
    fields names (depth + 1) (.ofJson (.object members)) =
      some (depth, names.map fun name => (members.lookup name).map .ofJson) := by
  have hnodup : ((members.map fun member => (member.1, Document.ofJson member.2)).map
      Prod.fst).Nodup := by simpa [Function.comp_def] using h
  simp only [Document.ofJson, fields]
  rw [mapM_ofMembers fun name item => rfl, Option.bind_eq_bind, Option.bind_some,
    mapM_eq_some fun name _ => ?_]
  · rfl
  · rw [filter_eq_lookup hnodup, lookup_map_ofJson]
    cases members.lookup name <;> rfl

theorem ofItems_eq_map (items : List Json) : Document.ofItems items = items.map .ofJson := by
  induction items with
  | nil => rfl
  | cons item items ih => simp [Document.ofItems, ih]

/-- A list is read item by item. -/
theorem list_ofJson {α : Type} {decoder : Decoder α} {write : α → Json} {values : List α}
    (h : ∀ value ∈ values, decoder depth (.ofJson (write value)) = some value) :
    list decoder (depth + 1) (.ofJson (.array (values.map write))) = some values := by
  rw [Document.ofJson, list, ofItems_eq_map, List.map_map, List.mapM_map]
  exact (mapM_eq_some h).trans (by rw [List.map_id'])

end Decoder

end CodeNav.Json
