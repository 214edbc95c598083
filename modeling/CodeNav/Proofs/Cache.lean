import Mathlib.Data.List.Basic
import CodeNav.Cache

/-! # What a cache holds

Evictions only take entries away, and a value that is stored comes under its own key.
-/

namespace CodeNav.Cache

variable {α : Type} {cache cache' : Cache α} {key : String} {value : α} {now : Instant}
  {ttl : Duration} {item : String × Entry α}

theorem mem_of_entry?_eq_some {entry : Entry α} (h : cache.entry? key = some entry) :
    (key, entry) ∈ cache.entries := by
  obtain ⟨before, after, hentries, -⟩ := List.lookup_eq_some_iff.mp h
  simp [hentries]

/-- In a cache without two entries of one key, a key stands for each of its entries. -/
theorem entry?_eq_of_mem {entry : Entry α} (hkeys : (cache.entries.map Prod.fst).Nodup)
    (h : (key, entry) ∈ cache.entries) : cache.entry? key = some entry := by
  obtain ⟨before, after, hentries⟩ := List.append_of_mem h
  refine List.lookup_eq_some_iff.mpr ⟨before, after, hentries, ?_⟩
  intro other hother
  rw [hentries, List.map_append, List.map_cons, List.nodup_append] at hkeys
  exact bne_iff_ne.mpr (hkeys.2.2 _ (List.mem_map_of_mem hother) key List.mem_cons_self).symm

theorem look_eq_hit_iff :
    cache.look key now = .hit value ↔
      ∃ entry, cache.entry? key = some entry ∧ now < entry.expiry ∧ entry.value = value := by
  rw [look]
  cases cache.entry? key with
  | none => simp
  | some entry =>
    by_cases hfresh : now < entry.expiry
    · simp [Entry.isFresh, hfresh]
    · simp [Entry.isFresh, hfresh]

theorem mem_erase : item ∈ (cache.erase key).entries ↔ item ∈ cache.entries ∧ item.1 ≠ key := by
  simp [erase]

theorem mem_of_mem_evict (h : item ∈ (cache.evict key now).entries) : item ∈ cache.entries := by
  rw [evict] at h
  split at h
  · split at h
    · exact h
    · exact (mem_erase.mp h).1
  · exact h

theorem mem_insert {entry : Entry α} :
    item ∈ (cache.insert key entry).entries ↔
      item = (key, entry) ∨ item ∈ cache.entries ∧ item.1 ≠ key := by
  simp only [insert, List.mem_cons, mem_erase]

theorem nodup_insert {entry : Entry α} (hkeys : (cache.entries.map Prod.fst).Nodup) :
    ((cache.insert key entry).entries.map Prod.fst).Nodup := by
  have herase : ((cache.erase key).entries.map Prod.fst).Nodup :=
    hkeys.sublist (List.filter_sublist.map _)
  rw [insert, List.map_cons, List.nodup_cons]
  refine ⟨?_, herase⟩
  simp [erase]

theorem nodup_evict (hkeys : (cache.entries.map Prod.fst).Nodup) :
    ((cache.evict key now).entries.map Prod.fst).Nodup := by
  rw [evict]
  split
  · split
    · exact hkeys
    · exact hkeys.sublist (List.filter_sublist.map _)
  · exact hkeys

/-- An eviction takes out the entry of its key if that has expired, and nothing else. -/
theorem mem_evict_iff (hkeys : (cache.entries.map Prod.fst).Nodup) :
    item ∈ (cache.evict key now).entries ↔
      item ∈ cache.entries ∧ ¬ (item.1 = key ∧ item.2.expiry ≤ now) := by
  obtain ⟨other, entry⟩ := item
  have hentry : other = key → (other, entry) ∈ cache.entries → cache.entry? key = some entry := by
    rintro rfl hmem
    exact entry?_eq_of_mem hkeys hmem
  rw [evict]
  cases hkey : cache.entry? key with
  | none =>
    refine ⟨fun hmem => ⟨hmem, ?_⟩, And.left⟩
    rintro ⟨hother, -⟩
    simp [hentry hother hmem] at hkey
  | some found =>
    by_cases hfresh : now < found.expiry
    · simp only [Entry.isFresh, hfresh, decide_true, if_true]
      refine ⟨fun hmem => ⟨hmem, ?_⟩, And.left⟩
      rintro ⟨hother, hexpired⟩
      obtain rfl : entry = found := by simpa [hentry hother hmem] using hkey
      exact Instant.not_lt.mpr hexpired hfresh
    · simp only [Entry.isFresh, hfresh, decide_false, Bool.false_eq_true, if_false, mem_erase]
      refine and_congr_right fun hmem => not_congr ⟨fun hother => ⟨hother, ?_⟩, And.left⟩
      obtain rfl : entry = found := by simpa [hentry hother hmem] using hkey
      exact Instant.not_lt.mp hfresh

variable {other : String} {entry : Entry α}

theorem entry?_erase_self : Cache.entry? (cache.erase key) key = none := by
  refine List.lookup_eq_none_iff.mpr fun item hitem => ?_
  exact bne_iff_ne.mpr (mem_erase.mp hitem).2.symm

theorem entry?_erase_of_ne (h : other ≠ key) :
    Cache.entry? (cache.erase key) other = cache.entry? other := by
  obtain ⟨entries⟩ := cache
  unfold entry? erase
  induction entries with
  | nil => rfl
  | cons item entries ih =>
    obtain ⟨name, held⟩ := item
    rw [List.lookup_cons, ← ih]
    by_cases hname : name = key
    · have hbeq : (other == name) = false := by simpa [hname] using h
      rw [List.filter_cons_of_neg (by simpa using hname), hbeq]
    · rw [List.filter_cons_of_pos (by simpa using hname), List.lookup_cons]

theorem entry?_insert_self : Cache.entry? (cache.insert key entry) key = some entry := by
  simp [Cache.entry?, insert]

theorem entry?_insert_of_ne (h : other ≠ key) :
    Cache.entry? (cache.insert key entry) other = cache.entry? other := by
  have hbeq : (other == key) = false := by simpa using h
  refine Eq.trans ?_ (entry?_erase_of_ne h)
  rw [Cache.entry?, insert, List.lookup_cons, hbeq]
  rfl

theorem entry?_evict_self :
    Cache.entry? (cache.evict key now) key = (cache.entry? key).filter (·.isFresh now) := by
  unfold evict
  cases hkey : cache.entry? key with
  | none => simpa using hkey
  | some found =>
    cases hfresh : found.isFresh now with
    | true => simpa [hfresh, Option.filter] using hkey
    | false => simp [hfresh, Option.filter, entry?_erase_self]

theorem entry?_evict_of_ne (h : other ≠ key) :
    Cache.entry? (cache.evict key now) other = cache.entry? other := by
  unfold evict
  split
  · split
    · rfl
    · exact entry?_erase_of_ne h
  · rfl

theorem entry?_evict_eq_some_iff :
    Cache.entry? (cache.evict key now) other = some entry ↔
      cache.entry? other = some entry ∧ ¬ (other = key ∧ entry.expiry ≤ now) := by
  by_cases h : other = key
  · subst h
    rw [entry?_evict_self, Option.filter_eq_some_iff]
    simp [Entry.isFresh, ← Instant.not_lt]
  · simp [entry?_evict_of_ne h, h]

theorem set_eq_ok_iff :
    cache.set key value now ttl = .ok cache' ↔
      ∃ expiry, now.add ttl = .ok expiry ∧ cache' = cache.insert key ⟨value, expiry⟩ := by
  rw [set]
  cases now.add ttl with
  | error cause => simp [bind, Except.bind]
  | ok expiry => simp [bind, Except.bind, pure, Except.pure, eq_comm]

theorem set_eq_error_iff {cause : ClockError} :
    cache.set key value now ttl = .error cause ↔ now.add ttl = .error cause := by
  rw [set]
  cases now.add ttl with
  | error cause => simp [bind, Except.bind]
  | ok expiry => simp [bind, Except.bind, pure, Except.pure]

end CodeNav.Cache
