import Mathlib.Data.List.Induction
import CodeNav.Checkout.Scan

/-! # Groups of hits

Grouping keeps every hit. There is one group for each path of a hit, and it holds the hits of that
path in their order.
-/

namespace CodeNav

theorem nodup_append_new {α : Type} [DecidableEq α] {names : List α} (h : names.Nodup) (name : α) :
    (if name ∈ names then names else names ++ [name]).Nodup := by
  split
  · exact h
  · rename_i hnew
    refine List.nodup_append.mpr ⟨h, by simp, ?_⟩
    intro other hother last hlast heq
    rw [List.mem_singleton.mp hlast] at heq
    exact hnew (heq ▸ hother)

namespace Checkout

variable {groups : List Group} {group : Group} {hits : List Hit} {hit : Hit} {path : String}

theorem flatMap_hits_addToGroups (groups : List Group) (hit : Hit) :
    ((addToGroups groups hit).flatMap Group.hits).Perm (groups.flatMap Group.hits ++ [hit]) := by
  induction groups with
  | nil => simp [addToGroups]
  | cons group groups ih =>
    simp only [addToGroups]
    split
    · simp only [List.flatMap_cons, List.append_assoc]
      exact List.perm_append_comm.append_left _
    · simp only [List.flatMap_cons, List.append_assoc]
      exact ih.append_left _

theorem hits_ne_nil_of_mem_addToGroups (h : ∀ group ∈ groups, group.hits ≠ []) :
    ∀ group ∈ addToGroups groups hit, group.hits ≠ [] := by
  induction groups with
  | nil => simp [addToGroups]
  | cons first groups ih =>
    simp only [List.forall_mem_cons] at h
    simp only [addToGroups]
    split
    · simp only [List.forall_mem_cons]
      exact ⟨by simp, h.2⟩
    · simp only [List.forall_mem_cons]
      exact ⟨h.1, ih h.2⟩

theorem paths_addToGroups (groups : List Group) (hit : Hit) :
    (addToGroups groups hit).map Group.path =
      if hit.path ∈ groups.map Group.path then groups.map Group.path
      else groups.map Group.path ++ [hit.path] := by
  induction groups with
  | nil => rfl
  | cons first groups ih =>
    rw [addToGroups]
    by_cases hfirst : first.path = hit.path
    · simp [hfirst]
    · rw [if_neg hfirst, List.map_cons, ih]
      have hne : hit.path ≠ first.path := Ne.symm hfirst
      by_cases hmem : hit.path ∈ groups.map Group.path
      · simp only [List.map_cons, List.mem_cons, hmem, or_true, if_true]
      · simp only [List.map_cons, List.mem_cons, hne, hmem, or_self, if_false, List.cons_append]

/-- The hits in the first group of a path. -/
def hitsAt? (groups : List Group) (path : String) : Option (List Hit) :=
  (groups.find? (·.path = path)).map Group.hits

theorem hitsAt?_addToGroups (groups : List Group) (hit : Hit) (path : String) :
    hitsAt? (addToGroups groups hit) path =
      if hit.path = path then some ((hitsAt? groups path).getD [] ++ [hit])
      else hitsAt? groups path := by
  induction groups with
  | nil => by_cases h : hit.path = path <;> simp [addToGroups, hitsAt?, h]
  | cons first groups ih =>
    rw [hitsAt?] at ih ⊢
    rw [addToGroups]
    by_cases hfirst : first.path = hit.path
    · -- The hit goes into the first group, which is that of its path.
      rw [if_pos hfirst]
      by_cases h : hit.path = path
      · simp [hitsAt?, hfirst, h]
      · simp [hitsAt?, hfirst, h]
    · rw [if_neg hfirst]
      by_cases h : first.path = path
      · have hother : hit.path ≠ path := fun heq => hfirst (h.trans heq.symm)
        simp [hitsAt?, h, hother]
      · simpa [hitsAt?, h] using ih

theorem groupByPath_append_singleton (hits : List Hit) (hit : Hit) :
    groupByPath (hits ++ [hit]) = addToGroups (groupByPath hits) hit := by
  simp [groupByPath]

theorem flatMap_hits_groupByPath (hits : List Hit) :
    ((groupByPath hits).flatMap Group.hits).Perm hits := by
  induction hits using List.reverseRecOn with
  | nil => exact List.Perm.nil
  | append_singleton hits hit ih =>
    rw [groupByPath_append_singleton]
    exact (flatMap_hits_addToGroups _ _).trans (ih.append_right _)

theorem hits_ne_nil_of_mem_group {hits : List Hit} :
    ∀ group ∈ groupByPath hits, group.hits ≠ [] := by
  induction hits using List.reverseRecOn with
  | nil => simp [groupByPath]
  | append_singleton hits hit ih =>
    rw [groupByPath_append_singleton]
    exact hits_ne_nil_of_mem_addToGroups ih

theorem nodup_paths_groupByPath (hits : List Hit) :
    ((groupByPath hits).map Group.path).Nodup := by
  induction hits using List.reverseRecOn with
  | nil => exact List.nodup_nil
  | append_singleton hits hit ih =>
    rw [groupByPath_append_singleton, paths_addToGroups]
    exact nodup_append_new ih hit.path

theorem getD_hitsAt?_groupByPath (hits : List Hit) (path : String) :
    (hitsAt? (groupByPath hits) path).getD [] = hits.filter (·.path = path) := by
  induction hits using List.reverseRecOn with
  | nil => rfl
  | append_singleton hits hit ih =>
    rw [groupByPath_append_singleton, hitsAt?_addToGroups, List.filter_append, ← ih]
    by_cases h : hit.path = path <;> simp [h]

theorem hitsAt?_eq_some_of_mem (hnodup : (groups.map Group.path).Nodup) (hmem : group ∈ groups) :
    hitsAt? groups group.path = some group.hits := by
  induction groups with
  | nil => cases hmem
  | cons first groups ih =>
    rw [List.map_cons, List.nodup_cons] at hnodup
    rcases List.mem_cons.mp hmem with rfl | hmem
    · simp [hitsAt?]
    · have hne : first.path ≠ group.path := fun heq =>
        hnodup.1 (heq ▸ List.mem_map_of_mem hmem)
      simpa [hitsAt?, hne] using ih hnodup.2 hmem

/-- A group holds all hits of its path, and there is none without hits. -/
theorem mem_groupByPath_iff :
    group ∈ groupByPath hits ↔
      group.hits = hits.filter (·.path = group.path) ∧ group.hits ≠ [] := by
  constructor
  · intro hmem
    refine ⟨?_, hits_ne_nil_of_mem_group group hmem⟩
    rw [← getD_hitsAt?_groupByPath, hitsAt?_eq_some_of_mem (nodup_paths_groupByPath hits) hmem]
    rfl
  · rintro ⟨hhits, hne⟩
    rw [hhits, ← getD_hitsAt?_groupByPath] at hne
    cases hfind : (groupByPath hits).find? (·.path = group.path) with
    | none => simp [hitsAt?, hfind] at hne
    | some found =>
      have hpath : found.path = group.path := by simpa using List.find?_some hfind
      have heq : found.hits = group.hits := by
        rw [hhits, ← getD_hitsAt?_groupByPath, hitsAt?, hfind]
        rfl
      obtain rfl : found = group := by
        cases found
        cases group
        exact congrArg₂ Group.mk hpath heq
      exact List.mem_of_find?_eq_some hfind

theorem mem_paths_groupByPath_iff :
    path ∈ (groupByPath hits).map Group.path ↔ hits.filter (·.path = path) ≠ [] := by
  constructor
  · intro hmem
    obtain ⟨group, hgroup, rfl⟩ := List.mem_map.mp hmem
    obtain ⟨hhits, hne⟩ := mem_groupByPath_iff.mp hgroup
    exact hhits ▸ hne
  · intro hne
    have hgroup : ⟨path, hits.filter (·.path = path)⟩ ∈ groupByPath hits :=
      mem_groupByPath_iff.mpr ⟨rfl, hne⟩
    exact List.mem_map.mpr ⟨_, hgroup, rfl⟩

theorem path_of_mem_group {hits : List Hit} :
    ∀ group ∈ groupByPath hits, ∀ member ∈ group.hits, member.path = group.path := by
  intro group hgroup member hmember
  rw [(mem_groupByPath_iff.mp hgroup).1] at hmember
  exact of_decide_eq_true (List.mem_filter.mp hmember).2

theorem mem_of_mem_group {hits : List Hit} {group : Group} {hit : Hit}
    (hg : group ∈ groupByPath hits) (h : hit ∈ group.hits) : hit ∈ hits :=
  (flatMap_hits_groupByPath hits).subset (List.mem_flatMap.mpr ⟨group, hg, h⟩)

end Checkout

end CodeNav
