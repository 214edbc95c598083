import Mathlib.Data.String.Basic
import CodeNav.Proofs.StableSort
import CodeNav.Supplement

/-! # The merged list

The order in which remote symbols are merged compares whole symbols in the end, so equal symbols
stand next to each other once they are sorted. The merged list then holds each symbol once, and only
the sets of local paths and of remote symbols decide it.
-/

namespace CodeNav

namespace Symbol

/-- All fields of a symbol, in the order in which they are compared. -/
def key (symbol : Symbol) : String ×ₗ Nat ×ₗ Nat ×ₗ Nat ×ₗ Nat ×ₗ String :=
  toLex (symbol.path, toLex (symbol.startLine, toLex (symbol.endLine,
    toLex (symbol.startColumn, toLex (symbol.endColumn, symbol.text)))))

def positionKey (symbol : Symbol) :
    String ×ₗ Nat ×ₗ Nat ×ₗ String ×ₗ Nat ×ₗ Nat ×ₗ Nat ×ₗ Nat ×ₗ String :=
  toLex (symbol.path, toLex (symbol.startLine, toLex (symbol.startColumn, symbol.key)))

theorem positionKey_injective : Function.Injective positionKey := by
  rintro ⟨⟩ ⟨⟩ h
  simp_all [positionKey, key]

/-- Comparing by one field and then by others is comparing the pairs of them. -/
theorem isLE_then_iff {α β : Type*} [LinearOrder α] [LE β] {a c : α} {b d : β} {rest : Ordering}
    (h : rest.isLE ↔ b ≤ d) :
    ((compare a c).then rest).isLE ↔ toLex (a, b) ≤ toLex (c, d) := by
  rw [Prod.Lex.toLex_le_toLex]
  rcases lt_trichotomy a c with hlt | rfl | hgt
  · simp [compare_lt_iff_lt.mpr hlt, hlt]
  · simp [h]
  · simp [compare_gt_iff_gt.mpr hgt, hgt.not_gt, hgt.ne']

theorem isLE_order_iff {a b : Symbol} : (order a b).isLE ↔ a.key ≤ b.key := by
  have htext : (compare a.text b.text).isLE ↔ a.text ≤ b.text := by
    rw [← Ordering.ne_gt_iff_isLE]
    exact compare_le_iff_le
  simp only [order, Ordering.then_assoc]
  exact isLE_then_iff (isLE_then_iff (isLE_then_iff (isLE_then_iff (isLE_then_iff htext))))

theorem isLE_positionOrder_iff {a b : Symbol} :
    (positionOrder a b).isLE ↔ a.positionKey ≤ b.positionKey := by
  simp only [positionOrder, Ordering.then_assoc]
  exact isLE_then_iff (isLE_then_iff (isLE_then_iff isLE_order_iff))

end Symbol

section Repeats

variable {α κ : Type*} [DecidableEq α] {xs : List α} {a : α}

theorem dropRepeats_cons (a : α) (xs : List α) :
    dropRepeats (a :: xs) =
      if (dropRepeats xs).head? = some a then dropRepeats xs else a :: dropRepeats xs := by
  rw [dropRepeats]
  cases dropRepeats xs with
  | nil => rfl
  | cons b kept => simp [eq_comm]

theorem mem_dropRepeats : a ∈ dropRepeats xs ↔ a ∈ xs := by
  induction xs with
  | nil => simp [dropRepeats]
  | cons b xs ih =>
    rw [dropRepeats_cons, List.mem_cons, ← ih]
    split
    · rename_i hhead
      have hb : b ∈ dropRepeats xs := List.mem_of_head? hhead
      constructor
      · exact Or.inr
      · rintro (rfl | h)
        · exact hb
        · exact h
    · rw [List.mem_cons]

theorem pairwise_lt_dropRepeats [LinearOrder κ] {key : α → κ} (hkey : Function.Injective key)
    (hxs : xs.Pairwise fun a b => key a ≤ key b) :
    (dropRepeats xs).Pairwise fun a b => key a < key b := by
  induction xs with
  | nil => exact .nil
  | cons a xs ih =>
    have hkept := ih hxs.tail
    rw [dropRepeats_cons]
    split
    · exact hkept
    · rename_i hhead
      refine List.pairwise_cons.mpr ⟨?_, hkept⟩
      intro b hb
      have hab : key a ≤ key b := List.rel_of_pairwise_cons hxs (mem_dropRepeats.mp hb)
      refine lt_of_le_of_ne hab fun heq => ?_
      obtain rfl := hkey heq
      -- The head of what is kept lies between two equal elements, so it equals them.
      cases hxs' : dropRepeats xs with
      | nil => simp [hxs'] at hb
      | cons c kept =>
        rw [hxs'] at hb hkept hhead
        have hac : key a ≤ key c := by
          apply List.rel_of_pairwise_cons hxs
          apply mem_dropRepeats.mp
          rw [hxs']
          exact List.mem_cons_self
        rcases List.mem_cons.mp hb with rfl | hb
        · exact hhead rfl
        · exact absurd hac (not_le.mpr (List.rel_of_pairwise_cons hkept hb))

end Repeats

variable {workspace remote merged : List Symbol}

/-- A list holds the remote symbols of files without local ones, in ascending order. -/
structure IsSupplement (workspace remote merged : List Symbol) : Prop where
  mem_iff : ∀ symbol, symbol ∈ merged ↔
    symbol ∈ remote ∧ ∀ known ∈ workspace, known.path ≠ symbol.path
  ascending : merged.Pairwise fun a b => a.positionKey < b.positionKey

theorem IsSupplement.nodup (h : IsSupplement workspace remote merged) : merged.Nodup := by
  refine h.ascending.imp ?_
  rintro a _ hlt rfl
  exact lt_irrefl _ hlt

/-- An ascending list is determined by its elements. -/
theorem IsSupplement.unique {merged' : List Symbol} (h : IsSupplement workspace remote merged)
    (h' : IsSupplement workspace remote merged') : merged = merged' := by
  have hperm : merged.Perm merged' :=
    (List.perm_ext_iff_of_nodup h.nodup h'.nodup).mpr fun symbol =>
      (h.mem_iff symbol).trans (h'.mem_iff symbol).symm
  apply hperm.eq_of_pairwise _ h.ascending h'.ascending
  intro a b _ _ hab hba
  exact absurd hab hba.not_gt

theorem isSupplement_supplement (workspace remote : List Symbol) :
    IsSupplement workspace remote (supplement workspace remote) := by
  have hle : ∀ a b : Symbol, (a.positionOrder b).isLE = decide (a.positionKey ≤ b.positionKey) :=
    fun a b => Bool.eq_iff_iff.mpr (Symbol.isLE_positionOrder_iff.trans decide_eq_true_iff.symm)
  simp only [supplement, hle]
  constructor
  · intro symbol
    rw [mem_dropRepeats, (List.mergeSort_perm _ _).mem_iff, List.mem_filter]
    simp
  · apply pairwise_lt_dropRepeats Symbol.positionKey_injective
    exact StableSort.pairwise_mergeSort Symbol.positionKey _

theorem supplement_eq_iff :
    supplement workspace remote = merged ↔ IsSupplement workspace remote merged := by
  constructor
  · rintro rfl
    exact isSupplement_supplement workspace remote
  · exact (isSupplement_supplement workspace remote).unique

/-- Merging gives the one ascending list of the remote symbols of files without local ones. No
symbol is in it twice, no order and no repetition among the merged lists changes it, and merging it
once more gives it again. -/
theorem supplement_isCanonical (workspace remote : List Symbol) :
    (∀ merged, supplement workspace remote = merged ↔ IsSupplement workspace remote merged) ∧
    (supplement workspace remote).Nodup ∧
    (∀ workspace' remote' : List Symbol, (∀ symbol, symbol ∈ workspace' ↔ symbol ∈ workspace) →
      (∀ symbol, symbol ∈ remote' ↔ symbol ∈ remote) →
        supplement workspace' remote' = supplement workspace remote) ∧
    supplement workspace (supplement workspace remote) = supplement workspace remote := by
  have hmerged := isSupplement_supplement workspace remote
  refine ⟨fun merged => supplement_eq_iff, hmerged.nodup, ?_, ?_⟩
  · intro workspace' remote' hworkspace hremote
    apply supplement_eq_iff.mpr
    refine ⟨fun symbol => ?_, hmerged.ascending⟩
    rw [hmerged.mem_iff, hremote]
    simp only [hworkspace]
  · apply supplement_eq_iff.mpr
    refine ⟨fun symbol => ?_, hmerged.ascending⟩
    rw [hmerged.mem_iff]
    tauto

end CodeNav
