import Mathlib.Data.Prod.Lex
import Mathlib.Data.List.Basic

/-! # Stable sorting by a key

Merge sort keeps the elements of every key in their order, and a sorted list is determined by its
elements of every key. So a list that is sorted and has the elements of every key in their order is
the sorted one.
-/

namespace CodeNav.StableSort

variable {α κ : Type*} [LinearOrder κ] (key : α → κ)

theorem decide_le_trans (a b c : α) (hab : decide (key a ≤ key b) = true)
    (hbc : decide (key b ≤ key c) = true) : decide (key a ≤ key c) = true := by
  simp only [decide_eq_true_eq] at hab hbc ⊢
  exact hab.trans hbc

theorem decide_le_total (a b : α) : (decide (key a ≤ key b) || decide (key b ≤ key a)) = true := by
  simpa using le_total (key a) (key b)

theorem pairwise_mergeSort (xs : List α) :
    (xs.mergeSort fun a b => decide (key a ≤ key b)).Pairwise fun a b => key a ≤ key b := by
  have h := List.pairwise_mergeSort (decide_le_trans key) (decide_le_total key) xs
  simpa only [decide_eq_true_eq] using h

/-- Sorting keeps the elements of one key in their order. -/
theorem filter_mergeSort (xs : List α) (k : κ) :
    (xs.mergeSort fun a b => decide (key a ≤ key b)).filter (key · = k) =
      xs.filter (key · = k) := by
  have hs : (xs.filter (key · = k)).Sublist
      (xs.mergeSort fun a b => decide (key a ≤ key b)) := by
    apply List.sublist_mergeSort (decide_le_trans key) (decide_le_total key)
    · apply List.pairwise_of_forall_mem_list
      intro a ha b hb
      have hak : key a = k := by simpa using List.of_mem_filter ha
      have hbk : key b = k := by simpa using List.of_mem_filter hb
      simp [hak, hbk]
    · exact List.filter_sublist
  have hf := hs.filter (key · = k)
  rw [List.filter_filter] at hf
  simp only [Bool.and_self] at hf
  exact (hf.eq_of_length ((List.mergeSort_perm _ _).filter _).length_eq.symm).symm

theorem le_head_of_filter_eq {a : α} {xs ys : List α}
    (hy : ys.Pairwise fun a b => key a ≤ key b)
    (h : ∀ k, (a :: xs).filter (key · = k) = ys.filter (key · = k)) :
    ∃ b zs, ys = b :: zs ∧ key b ≤ key a := by
  have ha : a ∈ ys := by
    have : a ∈ ys.filter (key · = key a) := by rw [← h]; simp
    exact List.mem_of_mem_filter this
  cases ys with
  | nil => simp at ha
  | cons b zs =>
    refine ⟨b, zs, rfl, ?_⟩
    rcases List.mem_cons.mp ha with rfl | ha
    · exact le_rfl
    · exact List.rel_of_pairwise_cons hy ha

theorem eq_of_filter_eq {xs ys : List α} (hx : xs.Pairwise fun a b => key a ≤ key b)
    (hy : ys.Pairwise fun a b => key a ≤ key b)
    (h : ∀ k, xs.filter (key · = k) = ys.filter (key · = k)) : xs = ys := by
  induction xs generalizing ys with
  | nil =>
    cases ys with
    | nil => rfl
    | cons b ys => simpa using h (key b)
  | cons a xs ih =>
    obtain ⟨b, zs, rfl, hba⟩ := le_head_of_filter_eq key hy h
    obtain ⟨_, _, hc, hab⟩ := le_head_of_filter_eq key hx fun k => (h k).symm
    obtain ⟨rfl, rfl⟩ := List.cons.inj hc
    have hk : key a = key b := le_antisymm hab hba
    have he := h (key a)
    simp only [hk, List.filter_cons_of_pos, decide_true] at he
    obtain ⟨rfl, _⟩ := List.cons.inj he
    congr 1
    apply ih hx.tail hy.tail
    intro k
    have hf := h k
    simp only [List.filter_cons] at hf
    split at hf
    · exact (List.cons.inj hf).2
    · exact hf

theorem mergeSort_eq_of_filter_eq {xs ys : List α} (hy : ys.Pairwise fun a b => key a ≤ key b)
    (h : ∀ k, ys.filter (key · = k) = xs.filter (key · = k)) :
    (xs.mergeSort fun a b => decide (key a ≤ key b)) = ys :=
  eq_of_filter_eq key (pairwise_mergeSort key xs) hy fun k =>
    (filter_mergeSort key xs k).trans (h k).symm

theorem flatMap_range_single (n k : ℕ) (xs : List α) :
    ((List.range n).flatMap fun j => if j = k then xs else []) = if k < n then xs else [] := by
  induction n with
  | zero => simp
  | succ n ih =>
    rw [List.range_succ, List.flatMap_append, ih, List.flatMap_singleton]
    rcases lt_trichotomy n k with h | rfl | h
    · simp [h.ne, show ¬ k < n by omega, show ¬ k < n + 1 by omega]
    · simp
    · simp [h.ne', h, show k < n + 1 by omega]

/-- Collecting the elements key by key sorts them. -/
theorem mergeSort_eq_flatMap_filter (key : α → ℕ) {n : ℕ} {xs : List α}
    (h : ∀ x ∈ xs, key x < n) :
    (xs.mergeSort fun a b => decide (key a ≤ key b)) =
      (List.range n).flatMap fun k => xs.filter (key · = k) := by
  have hkey : ∀ {k a}, a ∈ xs.filter (key · = k) → key a = k := fun ha => by
    simpa using List.of_mem_filter ha
  apply mergeSort_eq_of_filter_eq
  · apply List.pairwise_flatMap.mpr
    constructor
    · intro k _
      apply List.pairwise_of_forall_mem_list
      intro a ha b hb
      rw [hkey ha, hkey hb]
    · apply List.pairwise_lt_range.imp
      intro j k hjk a ha b hb
      rw [hkey ha, hkey hb]
      exact hjk.le
  · intro k
    have hf : ∀ j, (xs.filter (key · = j)).filter (key · = k) =
        if j = k then xs.filter (key · = k) else [] := by
      intro j
      split
      · rename_i hjk
        simp [hjk, List.filter_filter]
      · rename_i hjk
        apply List.filter_eq_nil_iff.mpr
        intro a ha
        simpa [hkey ha] using hjk
    rw [List.filter_flatMap]
    simp only [hf, flatMap_range_single]
    split
    · rfl
    · rename_i hk
      refine (List.filter_eq_nil_iff.mpr fun a ha => ?_).symm
      have hn := h a ha
      simp only [decide_eq_true_eq]
      omega

theorem filterMap_mergeSort {β : Type*} {f : α → Option β} (key' : β → κ)
    (hf : ∀ a b, f a = some b → key' b = key a) (xs : List α) :
    (xs.mergeSort fun a b => decide (key a ≤ key b)).filterMap f =
      (xs.filterMap f).mergeSort fun a b => decide (key' a ≤ key' b) := by
  refine (mergeSort_eq_of_filter_eq key' ?_ fun k => ?_).symm
  · rw [List.pairwise_filterMap]
    apply (pairwise_mergeSort key xs).imp
    intro a b hab c hc d hd
    rwa [hf a c hc, hf b d hd]
  · have hk : ∀ ys : List α, (ys.filterMap f).filter (key' · = k) =
        (ys.filter (key · = k)).filterMap f := by
      intro ys
      rw [List.filter_filterMap, List.filterMap_filter]
      congr 1
      funext a
      cases ha : f a with
      | none => simp
      | some b => simp [Option.filter, hf a b ha]
    rw [hk, hk, filter_mergeSort]

theorem pairwise_toLex {κ' : Type*} [LinearOrder κ'] {key' : α → κ'} {xs : List α}
    (h : xs.Pairwise fun a b => key a ≤ key b)
    (h' : ∀ k, (xs.filter (key · = k)).Pairwise fun a b => key' a ≤ key' b) :
    xs.Pairwise fun a b => toLex (key a, key' a) ≤ toLex (key b, key' b) := by
  rw [List.pairwise_iff_forall_sublist] at h ⊢
  intro a b hs
  rw [Prod.Lex.toLex_le_toLex]
  rcases (h hs).lt_or_eq with hlt | heq
  · exact Or.inl hlt
  · refine Or.inr ⟨heq, ?_⟩
    have hf := hs.filter (key · = key b)
    simp only [heq, List.filter_cons_of_pos, List.filter_nil, decide_true] at hf
    exact List.pairwise_iff_forall_sublist.mp (h' (key b)) hf

/-- Sorting by a second key and then by a first one sorts by both. -/
theorem mergeSort_mergeSort {κ' : Type*} [LinearOrder κ'] (key' : α → κ') (xs : List α) :
    ((xs.mergeSort fun a b => decide (key' a ≤ key' b)).mergeSort
      fun a b => decide (key a ≤ key b)) =
      xs.mergeSort fun a b => decide (toLex (key a, key' a) ≤ toLex (key b, key' b)) := by
  have hsplit : ∀ (ys : List α) (k : κ) (k' : κ'),
      ys.filter (fun a => toLex (key a, key' a) = toLex (k, k')) =
        (ys.filter (key · = k)).filter (key' · = k') := by
    intro ys k k'
    rw [List.filter_filter]
    apply List.filter_congr
    intro a _
    simp [Bool.and_comm]
  refine (mergeSort_eq_of_filter_eq (fun a => toLex (key a, key' a)) ?_ fun k => ?_).symm
  · apply pairwise_toLex key (pairwise_mergeSort key _)
    intro k
    rw [filter_mergeSort]
    exact (pairwise_mergeSort key' xs).filter _
  · obtain ⟨k, k'⟩ := k
    calc _ = (((xs.mergeSort fun a b => decide (key' a ≤ key' b)).mergeSort
            fun a b => decide (key a ≤ key b)).filter (key · = k)).filter (key' · = k') :=
          hsplit _ k k'
      _ = ((xs.mergeSort fun a b => decide (key' a ≤ key' b)).filter (key' · = k')).filter
            (key · = k) := by rw [filter_mergeSort, List.filter_comm]
      _ = (xs.filter (key · = k)).filter (key' · = k') := by
          rw [filter_mergeSort, List.filter_comm]
      _ = _ := (hsplit xs k k').symm

end CodeNav.StableSort
