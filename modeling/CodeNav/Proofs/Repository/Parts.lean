import Mathlib
import CodeNav.Repository.Remote

/-! # How an address is cut

Whatever cut of an address counts, the parts stand in the address in their order: a scheme of eight
characters, the account, a dot, the domain and a slash.
-/

namespace CodeNav.Repository.RemoteParts

theorem eq_of_toLower_eq {p c : Char} (hp : p.isLower = false) (h : c.toLower = p) : c = p := by
  have halpha : c.isAlpha = false := by rw [← Char.isLower_toLower_eq_isAlpha, h, hp]
  have hupper : ¬ c.isUpper = true := by
    rw [Char.isAlpha, Bool.or_eq_false_iff] at halpha
    simp [halpha.1]
  rw [← h, Char.toLower_eq_of_not_isUpper hupper]

theorem eq_of_matchesLetter {p c : Char} (hp : p.isLower = false) (h : matchesLetter p c = true) :
    c = p := by
  have hs : p ≠ 's' := by rintro rfl; simp at hp
  have hk : p ≠ 'k' := by rintro rfl; simp at hp
  exact eq_of_toLower_eq hp (by simpa [matchesLetter, hs, hk] using h)

theorem matchesLetter_iff_eq {p c : Char} (hlower : c.toLower = c) (hascii : c.toNat < 128) :
    matchesLetter p c = true ↔ p = c := by
  have hs : c.toNat ≠ 0x17F := by omega
  have hk : c.toNat ≠ 0x212A := by omega
  simp only [matchesLetter, hlower, hs, hk, beq_iff_eq, Bool.or_eq_true, Bool.and_eq_true,
    and_false, or_false]
  exact eq_comm

/-- A text that a pattern matches, character by character. -/
def Matches (pattern text : List Char) : Prop :=
  List.Forall₂ (fun p c => matchesLetter p c = true) pattern text

instance : DecidableRel Matches := fun pattern text =>
  inferInstanceAs (Decidable (List.Forall₂ _ pattern text))

theorem Matches.eq_singleton {p : Char} {text : List Char} (h : Matches [p] text)
    (hp : p.isLower = false) : text = [p] := by
  obtain ⟨c, rest, hc, hrest, rfl⟩ := List.forall₂_cons_left_iff.mp h
  obtain rfl := List.forall₂_nil_left_iff.mp hrest
  rw [eq_of_matchesLetter hp hc]

theorem Matches.count_eq {pattern text : List Char} {c : Char} (h : Matches pattern text)
    (hlower : c.toLower = c) (hnot : c.isLower = false) (hascii : c.toNat < 128) :
    text.count c = pattern.count c := by
  induction h with
  | nil => rfl
  | @cons p d pattern text hm _ ih =>
    have hiff : d = c ↔ p = c := by
      constructor
      · rintro rfl
        exact (matchesLetter_iff_eq hlower hascii).mp hm
      · rintro rfl
        exact eq_of_matchesLetter hnot hm
    simp [List.count_cons, ih, hiff]

theorem Matches.exists_append {left right text : List Char} (h : Matches (left ++ right) text) :
    ∃ before after, text = before ++ after ∧ Matches left before ∧ Matches right after := by
  refine ⟨text.take left.length, text.drop left.length, by simp, ?_, ?_⟩
  · simpa [Matches] using List.forall₂_take left.length h
  · simpa [Matches] using List.forall₂_drop left.length h

theorem count_domain {pattern : String} {domain : List Char} (hp : pattern ∈ domains)
    (h : Matches pattern.toList domain) {c : Char} (hc : c ∈ ['.', '/', '@']) :
    domain.count c = if c = '.' then 1 else 0 := by
  simp only [domains, List.mem_cons, List.not_mem_nil, or_false] at hp hc
  rcases hc with rfl | rfl | rfl <;>
    rw [h.count_eq (by decide) (by decide) (by decide)] <;>
    rcases hp with rfl | rfl <;> decide

theorem slash_notMem_domain {pattern : String} {domain : List Char} (hp : pattern ∈ domains)
    (h : Matches pattern.toList domain) : '/' ∉ domain :=
  List.count_eq_zero.mp (count_domain hp h (by decide))

theorem splitLiteral?_eq_some {pattern text before after : List Char}
    (h : splitLiteral? pattern text = some (before, after)) :
    text = before ++ after ∧ Matches pattern before := by
  fun_induction splitLiteral? pattern text generalizing before with
  | case1 text =>
    simp only [Option.some.injEq, Prod.mk.injEq] at h
    obtain ⟨rfl, rfl⟩ := h
    exact ⟨rfl, .nil⟩
  | case2 => simp at h
  | case3 p pattern c text hc ih =>
    obtain ⟨⟨inner, rest⟩, hs, he⟩ := Option.map_eq_some_iff.mp h
    simp only [Prod.mk.injEq] at he
    obtain ⟨rfl, rfl⟩ := he
    obtain ⟨rfl, hm⟩ := ih hs
    exact ⟨rfl, .cons hc hm⟩
  | case4 => simp at h

theorem dropLiteral?_eq_some {pattern : String} {text after : List Char}
    (h : dropLiteral? pattern text = some after) :
    ∃ before, text = before ++ after ∧ Matches pattern.toList before := by
  obtain ⟨⟨before, rest⟩, hs, rfl⟩ := Option.map_eq_some_iff.mp h
  obtain ⟨rfl, hm⟩ := splitLiteral?_eq_some hs
  exact ⟨before, rfl, hm⟩

theorem splitLiteral?_append {pattern before : List Char} (h : Matches pattern before)
    (after : List Char) : splitLiteral? pattern (before ++ after) = some (before, after) := by
  induction h with
  | nil => rfl
  | cons hm _ ih => simp [splitLiteral?, hm, ih]

theorem mem_cuts {text before after : List Char} (h : (before, after) ∈ cuts text) :
    text = before ++ after ∧ before ≠ [] := by
  induction text generalizing before with
  | nil => simp [cuts] at h
  | cons c text ih =>
    simp only [cuts] at h
    split at h
    · simp at h
    · rcases List.mem_append.mp h with h | h
      · obtain ⟨⟨inner, rest⟩, hm, he⟩ := List.mem_map.mp h
        simp only [Prod.mk.injEq] at he
        obtain ⟨rfl, rfl⟩ := he
        rw [(ih hm).1]
        exact ⟨rfl, by simp⟩
      · simp only [List.mem_singleton, Prod.mk.injEq] at h
        obtain ⟨rfl, rfl⟩ := h
        exact ⟨rfl, by simp⟩

theorem append_mem_cuts {before : List Char} (hne : before ≠ []) (hline : '\n' ∉ before)
    (after : List Char) : (before, after) ∈ cuts (before ++ after) := by
  induction before with
  | nil => exact absurd rfl hne
  | cons c before ih =>
    simp only [List.mem_cons, not_or] at hline
    rw [List.cons_append, cuts, if_neg (Ne.symm hline.1)]
    by_cases hnil : before = []
    · simp [hnil]
    · exact List.mem_append_left _ (List.mem_map_of_mem (ih hnil hline.2))

theorem afterAccount?_eq_some {account text : List Char} {parts : RemoteParts}
    (h : afterAccount? account text = some parts) :
    parts.account = account ∧ ∃ rest, text = '.' :: parts.domain ++ '/' :: rest ∧
      ∃ pattern ∈ domains, Matches pattern.toList parts.domain := by
  simp only [afterAccount?, Option.bind_eq_bind, Option.bind_eq_some_iff] at h
  obtain ⟨afterDot, hdot, h⟩ := h
  obtain ⟨pattern, hp, h⟩ := List.exists_of_findSome?_eq_some h
  simp only [Option.bind_eq_some_iff, Prod.exists] at h
  obtain ⟨domain, afterDomain, hdomain, rest, hslash, h⟩ := h
  split at h
  · simp at h
  · simp only [Option.bind_eq_some_iff, Prod.exists, Option.pure_def, Option.some.injEq] at h
    obtain ⟨project, name, -, rfl⟩ := h
    obtain ⟨dot, rfl, hm⟩ := dropLiteral?_eq_some hdot
    obtain ⟨rfl, hd⟩ := splitLiteral?_eq_some hdomain
    obtain ⟨slash, rfl, hm'⟩ := dropLiteral?_eq_some hslash
    obtain rfl : dot = ['.'] := hm.eq_singleton (by decide)
    obtain rfl : slash = ['/'] := hm'.eq_singleton (by decide)
    exact ⟨rfl, rest, by simp, pattern, hp, hd⟩

/-- The scheme, the account, a domain and a slash stand in the address in this order. -/
theorem ofAddress?_eq_some {text : List Char} {parts : RemoteParts}
    (h : ofAddress? text = some parts) :
    parts.account ≠ [] ∧
      (∃ scheme rest, text = scheme ++ (parts.account ++ '.' :: parts.domain ++ '/' :: rest) ∧
        Matches "https://".toList scheme) ∧
      ∃ pattern ∈ domains, Matches pattern.toList parts.domain := by
  simp only [ofAddress?, Option.bind_eq_bind, Option.bind_eq_some_iff] at h
  obtain ⟨afterScheme, hscheme, h⟩ := h
  obtain ⟨⟨account, after⟩, hcut, hafter⟩ := List.exists_of_findSome?_eq_some h
  obtain ⟨scheme, rfl, hs⟩ := dropLiteral?_eq_some hscheme
  obtain ⟨rfl, hne⟩ := mem_cuts hcut
  obtain ⟨rfl, rest, rfl, hd⟩ := afterAccount?_eq_some hafter
  exact ⟨hne, ⟨scheme, rest, by simp, hs⟩, hd⟩

end CodeNav.Repository.RemoteParts
