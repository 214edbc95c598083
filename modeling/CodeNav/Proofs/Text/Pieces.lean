import Mathlib.Data.List.Infix
import Mathlib.Logic.ExistsUnique
import Mathlib.Tactic.SplitIfs
import CodeNav.Proofs.Text.Utf8

/-! # Bytes in pieces

Bytes divide in one way into encodings of characters and gaps. A gap is the longest start of an
encoding that breaks off, or a byte that starts none. Reading leniently puts one replacement
character in its place, however many bytes it has.
-/

namespace CodeNav.Text.Utf8

/-- What is read as one character. -/
inductive Piece where
  | char (c : Char)
  | gap (bytes : List UInt8)
  deriving DecidableEq, Repr

namespace Piece

def value : Piece → Option Char
  | char c => some c
  | gap _ => none

def filled (piece : Piece) : Char := piece.value.getD replacement

def spelled : Piece → List Char
  | char c => [c]
  | gap bytes => List.replicate bytes.length replacement

end Piece

def StartsEncoding (bytes : List UInt8) : Prop := ∃ c, bytes <+: String.utf8EncodeChar c

/-- The bytes start with no encoding. -/
def IsStray (bytes : List UInt8) : Prop := ∀ c, ¬ String.utf8EncodeChar c <+: bytes

/-- A gap in front of other bytes. -/
structure IsGap (gap rest : List UInt8) : Prop where
  ne_nil : gap ≠ []
  stray : IsStray (gap ++ rest)
  starts : gap.length = 1 ∨ StartsEncoding gap
  longest : ∀ start, start <+: gap ++ rest → StartsEncoding start → start.length ≤ gap.length

inductive Divides : List UInt8 → List Piece → Prop where
  | nil : Divides [] []
  | char {rest : List UInt8} {pieces : List Piece} (c : Char) (h : Divides rest pieces) :
      Divides (String.utf8EncodeChar c ++ rest) (.char c :: pieces)
  | gap {bytes rest : List UInt8} {pieces : List Piece} (hgap : IsGap bytes rest)
      (h : Divides rest pieces) : Divides (bytes ++ rest) (.gap bytes :: pieces)

/-- The text with the character of each encoding, and with a replacement character for each byte
that is part of none. -/
inductive ByByte : List UInt8 → List Char → Prop where
  | nil : ByByte [] []
  | char {rest : List UInt8} {text : List Char} (c : Char) (h : ByByte rest text) :
      ByByte (String.utf8EncodeChar c ++ rest) (c :: text)
  | stray {b : UInt8} {rest : List UInt8} {text : List Char} (hstray : IsStray (b :: rest))
      (h : ByByte rest text) : ByByte (b :: rest) (replacement :: text)

/-- The reader is within an encoding of which it has read some bytes. -/
inductive Pends : List UInt8 → State → Prop where
  | two {a : UInt8} (hleast : 0xC2 ≤ a.toNat) (hgreatest : a.toNat < 0xE0) :
      Pends [a] (.within 0 0x80 0xBF (a.toNat - 0xC0))
  | three {a : UInt8} (hleast : 0xE0 ≤ a.toNat) (hgreatest : a.toNat < 0xF0) :
      Pends [a] (.within 1 (if a.toNat = 0xE0 then 0xA0 else 0x80)
        (if a.toNat = 0xED then 0x9F else 0xBF) (a.toNat - 0xE0))
  | four {a : UInt8} (hleast : 0xF0 ≤ a.toNat) (hgreatest : a.toNat ≤ 0xF4) :
      Pends [a] (.within 2 (if a.toNat = 0xF0 then 0x90 else 0x80)
        (if a.toNat = 0xF4 then 0x8F else 0xBF) (a.toNat - 0xF0))
  | more {read : List UInt8} {missing value : Nat} {least greatest b : UInt8}
      (h : Pends read (.within (missing + 1) least greatest value))
      (hbounds : least ≤ b ∧ b ≤ greatest) :
      Pends (read ++ [b]) (.within missing 0x80 0xBF (value * 64 + b.toNat % 64))

variable {a b : UInt8} {bytes rest read gap : List UInt8} {c d : Char} {state : State}
  {missing value : Nat} {least greatest : UInt8} {pieces : List Piece} {text : List Char}

theorem toNat_char_ofNat {n : Nat} (h : n < 0xD800 ∨ 0xE000 ≤ n ∧ n < 0x110000) :
    (Char.ofNat n).toNat = n := by
  have hvalid : n.isValidChar := by
    simp only [Nat.isValidChar]
    omega
  rw [Char.ofNat, dif_pos hvalid]
  rfl

theorem eq_ofNat {n : Nat} (h : b.toNat = n) : b = UInt8.ofNat n := by
  rw [← h, UInt8.ofNat_toNat]

theorem utf8EncodeChar_two (hleast : 0xC2 ≤ a.toNat) (hgreatest : a.toNat < 0xE0)
    (hb : 0x80 ≤ b.toNat ∧ b.toNat ≤ 0xBF) :
    String.utf8EncodeChar (Char.ofNat ((a.toNat - 0xC0) * 64 + b.toNat % 64)) = [a, b] := by
  have hvalue := toNat_char_ofNat (n := (a.toNat - 0xC0) * 64 + b.toNat % 64) (by omega)
  generalize Char.ofNat ((a.toNat - 0xC0) * 64 + b.toNat % 64) = c at hvalue
  have hval : c.val.toNat = c.toNat := rfl
  have hfirst : a = UInt8.ofNat (c.toNat / 64 % 32 + 192) := eq_ofNat (by omega)
  have hlast : b = UInt8.ofNat (c.toNat % 64 + 128) := eq_ofNat (by omega)
  simp only [String.utf8EncodeChar, hval]
  rw [if_neg (by omega), if_pos (by omega), ← hfirst, ← hlast]

theorem utf8EncodeChar_three {b' : UInt8} (hleast : 0xE0 ≤ a.toNat) (hgreatest : a.toNat < 0xF0)
    (hb : (if a.toNat = 0xE0 then 0xA0 else 0x80) ≤ b.toNat ∧
      b.toNat ≤ if a.toNat = 0xED then 0x9F else 0xBF)
    (hb' : 0x80 ≤ b'.toNat ∧ b'.toNat ≤ 0xBF) :
    String.utf8EncodeChar
        (Char.ofNat (((a.toNat - 0xE0) * 64 + b.toNat % 64) * 64 + b'.toNat % 64)) =
      [a, b, b'] := by
  have hbounds : 0x80 ≤ b.toNat ∧ b.toNat ≤ 0xBF ∧ (a.toNat = 0xE0 → 0xA0 ≤ b.toNat) ∧
      (a.toNat = 0xED → b.toNat ≤ 0x9F) := by
    split_ifs at hb <;> omega
  have hvalue := toNat_char_ofNat
    (n := ((a.toNat - 0xE0) * 64 + b.toNat % 64) * 64 + b'.toNat % 64) (by omega)
  generalize Char.ofNat (((a.toNat - 0xE0) * 64 + b.toNat % 64) * 64 + b'.toNat % 64) = c at hvalue
  have hval : c.val.toNat = c.toNat := rfl
  have hfirst : a = UInt8.ofNat (c.toNat / 4096 % 16 + 224) := eq_ofNat (by omega)
  have hsecond : b = UInt8.ofNat (c.toNat / 64 % 64 + 128) := eq_ofNat (by omega)
  have hlast : b' = UInt8.ofNat (c.toNat % 64 + 128) := eq_ofNat (by omega)
  simp only [String.utf8EncodeChar, hval]
  rw [if_neg (by omega), if_neg (by omega), if_pos (by omega), ← hfirst, ← hsecond, ← hlast]

theorem utf8EncodeChar_four {b' b'' : UInt8} (hleast : 0xF0 ≤ a.toNat)
    (hgreatest : a.toNat ≤ 0xF4)
    (hb : (if a.toNat = 0xF0 then 0x90 else 0x80) ≤ b.toNat ∧
      b.toNat ≤ if a.toNat = 0xF4 then 0x8F else 0xBF)
    (hb' : 0x80 ≤ b'.toNat ∧ b'.toNat ≤ 0xBF) (hb'' : 0x80 ≤ b''.toNat ∧ b''.toNat ≤ 0xBF) :
    String.utf8EncodeChar (Char.ofNat
        ((((a.toNat - 0xF0) * 64 + b.toNat % 64) * 64 + b'.toNat % 64) * 64 + b''.toNat % 64)) =
      [a, b, b', b''] := by
  have hbounds : 0x80 ≤ b.toNat ∧ b.toNat ≤ 0xBF ∧ (a.toNat = 0xF0 → 0x90 ≤ b.toNat) ∧
      (a.toNat = 0xF4 → b.toNat ≤ 0x8F) := by
    split_ifs at hb <;> omega
  have hvalue := toNat_char_ofNat (n := (((a.toNat - 0xF0) * 64 + b.toNat % 64) * 64 +
    b'.toNat % 64) * 64 + b''.toNat % 64) (by omega)
  generalize Char.ofNat ((((a.toNat - 0xF0) * 64 + b.toNat % 64) * 64 + b'.toNat % 64) * 64 +
    b''.toNat % 64) = c at hvalue
  have hval : c.val.toNat = c.toNat := rfl
  have hfirst : a = UInt8.ofNat (c.toNat / 262144 % 8 + 240) := eq_ofNat (by omega)
  have hsecond : b = UInt8.ofNat (c.toNat / 4096 % 64 + 128) := eq_ofNat (by omega)
  have hthird : b' = UInt8.ofNat (c.toNat / 64 % 64 + 128) := eq_ofNat (by omega)
  have hlast : b'' = UInt8.ofNat (c.toNat % 64 + 128) := eq_ofNat (by omega)
  simp only [String.utf8EncodeChar, hval]
  rw [if_neg (by omega), if_neg (by omega), if_neg (by omega), ← hfirst, ← hsecond, ← hthird,
    ← hlast]

theorem utf8EncodeChar_append_ne_nil (c : Char) (bytes : List UInt8) :
    String.utf8EncodeChar c ++ bytes ≠ [] := by
  simp only [String.utf8EncodeChar]
  split_ifs <;> simp

/-- Behind its first byte, an encoding has continuation bytes only. -/
theorem continues_of_mem_tail (h : b ∈ (String.utf8EncodeChar c).tail) :
    0x80 ≤ b.toNat ∧ b.toNat < 0xC0 := by
  have hcontinues (n : Nat) :
      0x80 ≤ (UInt8.ofNat (n % 64 + 128)).toNat ∧ (UInt8.ofNat (n % 64 + 128)).toNat < 0xC0 := by
    rw [toNat_ofNat (by omega)]
    omega
  simp only [String.utf8EncodeChar] at h
  split_ifs at h
  · simp at h
  · simp only [List.tail_cons, List.mem_cons, List.not_mem_nil, or_false] at h
    rw [h]
    exact hcontinues _
  · simp only [List.tail_cons, List.mem_cons, List.not_mem_nil, or_false] at h
    rcases h with rfl | rfl <;> exact hcontinues _
  · simp only [List.tail_cons, List.mem_cons, List.not_mem_nil, or_false] at h
    rcases h with rfl | rfl | rfl <;> exact hcontinues _

theorem utf8EncodeChar_append_inj {bytes' : List UInt8}
    (h : String.utf8EncodeChar c ++ bytes = String.utf8EncodeChar d ++ bytes') :
    c = d ∧ bytes = bytes' := by
  have hread := congrArg (readFrom .ready) h
  rw [readFrom_char, readFrom_char] at hread
  obtain rfl : c = d := Option.some_inj.mp (List.cons.inj hread).1
  exact ⟨rfl, List.append_cancel_left h⟩

theorem start_of_two (hleast : 0xC2 ≤ b.toNat) (hgreatest : b.toNat < 0xE0) :
    start b = (.within 0 0x80 0xBF (b.toNat - 0xC0), []) := by
  have hstart := start_two hleast hgreatest
  rwa [UInt8.ofNat_toNat] at hstart

theorem start_of_three (hleast : 0xE0 ≤ b.toNat) (hgreatest : b.toNat < 0xF0) :
    start b = (.within 1 (if b.toNat = 0xE0 then 0xA0 else 0x80)
      (if b.toNat = 0xED then 0x9F else 0xBF) (b.toNat - 0xE0), []) := by
  have hstart := start_three hleast hgreatest
  rwa [UInt8.ofNat_toNat] at hstart

theorem start_of_four (hleast : 0xF0 ≤ b.toNat) (hgreatest : b.toNat ≤ 0xF4) :
    start b = (.within 2 (if b.toNat = 0xF0 then 0x90 else 0x80)
      (if b.toNat = 0xF4 then 0x8F else 0xBF) (b.toNat - 0xF0), []) := by
  have hstart := start_four hleast hgreatest
  rwa [UInt8.ofNat_toNat] at hstart

theorem start_of_none (h : 0x80 ≤ b.toNat ∧ b.toNat < 0xC2 ∨ 0xF4 < b.toNat) :
    start b = (.ready, [none]) := by
  simp only [start]
  rw [if_neg (by omega)]
  rcases h with ⟨-, hcontinues⟩ | hlarge
  · rw [if_pos hcontinues]
  · rw [if_neg (by omega), if_neg (by omega), if_neg (by omega), if_neg (by omega),
      if_neg (by omega), if_neg (by omega), if_neg (by omega), if_neg (by omega)]

theorem start_cases (b : UInt8) :
    (∃ c, start b = (.ready, [some c]) ∧ String.utf8EncodeChar c = [b]) ∨
      start b = (.ready, [none]) ∨ ∃ state, start b = (state, []) ∧ Pends [b] state := by
  by_cases hone : b.toNat < 0x80
  · have hstart := start_one hone
    rw [UInt8.ofNat_toNat] at hstart
    have hvalue := toNat_char_ofNat (n := b.toNat) (by omega)
    have hval : (Char.ofNat b.toNat).val.toNat = b.toNat := hvalue
    refine .inl ⟨_, hstart, ?_⟩
    simp only [String.utf8EncodeChar, hval]
    rw [if_pos (by omega), UInt8.ofNat_toNat]
  by_cases hnone : b.toNat < 0xC2 ∨ 0xF4 < b.toNat
  · exact .inr (.inl (start_of_none (by omega)))
  right
  right
  by_cases htwo : b.toNat < 0xE0
  · exact ⟨_, start_of_two (by omega) htwo, .two (by omega) htwo⟩
  by_cases hthree : b.toNat < 0xF0
  · exact ⟨_, start_of_three (by omega) hthree, .three (by omega) hthree⟩
  · exact ⟨_, start_of_four (by omega) (by omega), .four (by omega) (by omega)⟩

theorem readFrom_ready_cons (b : UInt8) (bytes : List UInt8) :
    readFrom .ready (b :: bytes) = (start b).2 ++ readFrom (start b).1 bytes := by
  rw [readFrom]
  rfl

theorem readFrom_of_prefix (h : String.utf8EncodeChar c <+: bytes) :
    ∃ rest, readFrom .ready bytes = some c :: rest := by
  obtain ⟨rest, rfl⟩ := h
  exact ⟨_, readFrom_char c rest⟩

theorem isStray_of_start (h : start b = (.ready, [none])) (rest : List UInt8) :
    IsStray (b :: rest) := by
  intro c hprefix
  obtain ⟨others, hread⟩ := readFrom_of_prefix hprefix
  rw [readFrom_ready_cons, h] at hread
  cases (List.cons.inj hread).1

theorem Pends.ne_nil (h : Pends read state) : read ≠ [] := by
  cases h <;> simp

theorem Pends.readFrom_append (h : Pends read state) (bytes : List UInt8) :
    readFrom .ready (read ++ bytes) = readFrom state bytes := by
  induction h generalizing bytes with
  | @two a hleast hgreatest =>
    rw [List.singleton_append, readFrom_ready_cons, start_of_two hleast hgreatest]
    rfl
  | @three a hleast hgreatest =>
    rw [List.singleton_append, readFrom_ready_cons, start_of_three hleast hgreatest]
    rfl
  | @four a hleast hgreatest =>
    rw [List.singleton_append, readFrom_ready_cons, start_of_four hleast hgreatest]
    rfl
  | @more read missing value least greatest b _ hbounds ih =>
    rw [List.append_assoc, List.singleton_append, ih, readFrom, step, if_pos hbounds]
    rfl

theorem Pends.exists_within (h : Pends read state) :
    ∃ missing least greatest value, state = .within missing least greatest value := by
  cases h <;> exact ⟨_, _, _, _, rfl⟩

theorem Pends.missing_le (h : Pends read (.within missing least greatest value)) : missing ≤ 2 := by
  generalize hstate : State.within missing least greatest value = state at h
  induction h generalizing missing least greatest value with
  | two | three | four =>
    obtain ⟨rfl, -⟩ := State.within.inj hstate
    decide
  | more _ _ ih =>
    obtain ⟨rfl, -⟩ := State.within.inj hstate
    have hbefore := ih rfl
    omega

theorem Pends.complete (h : Pends read (.within 0 least greatest value))
    (hbounds : least ≤ b ∧ b ≤ greatest) :
    String.utf8EncodeChar (Char.ofNat (value * 64 + b.toNat % 64)) = read ++ [b] := by
  rw [UInt8.le_iff_toNat_le, UInt8.le_iff_toNat_le] at hbounds
  cases h with
  | two hleast hgreatest => exact utf8EncodeChar_two hleast hgreatest hbounds
  | more h hsecond =>
    rw [UInt8.le_iff_toNat_le, UInt8.le_iff_toNat_le] at hsecond
    cases h with
    | three hleast hgreatest =>
      rw [apply_ite UInt8.toNat, apply_ite UInt8.toNat] at hsecond
      exact utf8EncodeChar_three hleast hgreatest hsecond hbounds
    | more h hthird =>
      rw [UInt8.le_iff_toNat_le, UInt8.le_iff_toNat_le] at hthird
      cases h with
      | four hleast hgreatest =>
        rw [apply_ite UInt8.toNat, apply_ite UInt8.toNat] at hthird
        exact utf8EncodeChar_four hleast hgreatest hthird hsecond hbounds
      | more h _ => exact absurd h.missing_le (by omega)

theorem Pends.least_le (h : Pends read (.within missing least greatest value)) :
    least ≤ greatest := by
  cases h with
  | two => decide
  | three =>
    split_ifs with hfirst hsurrogate
    · exact absurd (hfirst.symm.trans hsurrogate) (by decide)
    all_goals decide
  | four =>
    split_ifs with hfirst hlast
    · exact absurd (hfirst.symm.trans hlast) (by decide)
    all_goals decide
  | more => decide

/-- Some encoding starts with what pends, since a byte at its lower bound always goes on. -/
theorem Pends.startsEncoding (h : Pends read (.within missing least greatest value)) :
    StartsEncoding read := by
  have hbounds : least ≤ least ∧ least ≤ greatest := ⟨UInt8.le_refl least, h.least_le⟩
  induction missing generalizing read least greatest value with
  | zero => exact ⟨_, h.complete hbounds ▸ List.prefix_append read [least]⟩
  | succ missing ih =>
    have hmore := h.more hbounds
    obtain ⟨c, hprefix⟩ := ih hmore ⟨UInt8.le_refl _, hmore.least_le⟩
    exact ⟨c, (List.prefix_append read [least]).trans hprefix⟩

theorem readFrom_broken (hbounds : ¬ (least ≤ b ∧ b ≤ greatest)) (bytes : List UInt8) :
    readFrom (.within missing least greatest value) (b :: bytes) =
      none :: readFrom .ready (b :: bytes) := by
  rw [readFrom_ready_cons, readFrom, step, if_neg hbounds]
  rfl

theorem Pends.not_startsEncoding (h : Pends read (.within missing least greatest value))
    (hbounds : ¬ (least ≤ b ∧ b ≤ greatest)) : ¬ StartsEncoding (read ++ [b]) := by
  rintro ⟨c, rest, hprefix⟩
  have hread := readFrom_char c []
  rw [List.append_nil, ← hprefix, List.append_assoc, List.singleton_append, h.readFrom_append,
    readFrom_broken hbounds] at hread
  cases (List.cons.inj hread).1

theorem Pends.isStray (h : Pends read state) : IsStray read := by
  intro c hprefix
  obtain ⟨_, _, _, _, rfl⟩ := h.exists_within
  obtain ⟨others, hread⟩ := readFrom_of_prefix hprefix
  rw [← List.append_nil read, h.readFrom_append] at hread
  cases (List.cons.inj hread).1

theorem isGap_singleton (h : start b = (.ready, [none])) (rest : List UInt8) :
    IsGap [b] rest where
  ne_nil := List.cons_ne_nil b []
  stray := isStray_of_start h rest
  starts := .inl rfl
  longest := by
    rintro (_ | ⟨first, others⟩) hprefix hstarts
    · exact Nat.zero_le _
    · obtain ⟨c, hencoding⟩ := hstarts
      obtain rfl : first = b := (List.cons_prefix_cons.mp hprefix).1
      obtain ⟨behind, hc⟩ := hencoding
      have hread := readFrom_char c []
      rw [List.append_nil, ← hc, List.cons_append, readFrom_ready_cons, h] at hread
      cases (List.cons.inj hread).1

theorem concat_prefix_cons (read : List UInt8) (b : UInt8) (rest : List UInt8) :
    read ++ [b] <+: read ++ b :: rest :=
  ⟨rest, by rw [List.append_assoc, List.singleton_append]⟩

theorem Pends.isGap (h : Pends read (.within missing least greatest value))
    (hrest : ∀ b ∈ rest.head?, ¬ (least ≤ b ∧ b ≤ greatest)) : IsGap read rest where
  ne_nil := h.ne_nil
  stray := by
    intro c hprefix
    cases rest with
    | nil => exact h.isStray c (List.append_nil read ▸ hprefix)
    | cons b rest =>
      have hnot := h.not_startsEncoding (hrest b rfl)
      have hmore := concat_prefix_cons read b rest
      rcases List.prefix_or_prefix_of_prefix hprefix hmore with hc | hread
      · rcases List.prefix_concat_iff.mp hc with heq | hc
        · exact hnot ⟨c, heq ▸ List.prefix_rfl⟩
        · exact h.isStray c hc
      · exact hnot ⟨c, hread⟩
  starts := .inr h.startsEncoding
  longest := by
    intro start hprefix hstarts
    cases rest with
    | nil => exact (List.append_nil read ▸ hprefix).length_le
    | cons b rest =>
      by_contra hlonger
      have hmore : read ++ [b] <+: start := by
        apply List.prefix_of_prefix_length_le (concat_prefix_cons read b rest) hprefix
        rw [List.length_append, List.length_singleton]
        omega
      obtain ⟨c, hc⟩ := hstarts
      exact h.not_startsEncoding (hrest b rfl) ⟨c, hmore.trans hc⟩

/-- Bytes, also behind others that pend, divide into the pieces that the reader gives. -/
theorem exists_divides_readFrom (bytes : List UInt8) :
    (∃ pieces, Divides bytes pieces ∧ readFrom .ready bytes = pieces.map Piece.value) ∧
      ∀ read state, Pends read state →
        ∃ pieces, Divides (read ++ bytes) pieces ∧
          readFrom state bytes = pieces.map Piece.value := by
  induction bytes with
  | nil =>
    refine ⟨⟨[], .nil, rfl⟩, ?_⟩
    intro read state h
    obtain ⟨missing, least, greatest, value, rfl⟩ := h.exists_within
    exact ⟨_, .gap (h.isGap (by simp)) .nil, rfl⟩
  | cons b bytes ih =>
    obtain ⟨⟨pieces, hpieces, hread⟩, hpending⟩ := ih
    have hready : ∃ pieces, Divides (b :: bytes) pieces ∧
        readFrom .ready (b :: bytes) = pieces.map Piece.value := by
      rw [readFrom_ready_cons]
      rcases start_cases b with ⟨c, hstart, hc⟩ | hstart | ⟨state, hstart, hpends⟩
      · have hdivides := Divides.char c hpieces
        rw [hc, List.singleton_append] at hdivides
        exact ⟨_, hdivides, by rw [hstart, hread]; rfl⟩
      · exact ⟨_, .gap (isGap_singleton hstart bytes) hpieces, by rw [hstart, hread]; rfl⟩
      · obtain ⟨others, hdivides, hothers⟩ := hpending [b] state hpends
        exact ⟨others, hdivides, by rw [hstart]; exact hothers⟩
    refine ⟨hready, ?_⟩
    intro read state h
    obtain ⟨missing, least, greatest, value, rfl⟩ := h.exists_within
    -- A byte out of bounds ends what pends and is read anew, as if nothing had pended.
    by_cases hbounds : least ≤ b ∧ b ≤ greatest
    · cases missing with
      | zero =>
        have hdivides := Divides.char (Char.ofNat (value * 64 + b.toNat % 64)) hpieces
        rw [h.complete hbounds, List.append_assoc, List.singleton_append] at hdivides
        refine ⟨_, hdivides, ?_⟩
        rw [readFrom, step, if_pos hbounds]
        exact congrArg (some _ :: ·) hread
      | succ missing =>
        obtain ⟨others, hdivides, hothers⟩ := hpending _ _ (h.more hbounds)
        rw [List.append_assoc, List.singleton_append] at hdivides
        refine ⟨others, hdivides, ?_⟩
        rw [readFrom, step, if_pos hbounds]
        exact hothers
    · obtain ⟨others, hdivides, hothers⟩ := hready
      have hout : ∀ first ∈ (b :: bytes).head?, ¬ (least ≤ first ∧ first ≤ greatest) := by
        simpa using hbounds
      exact ⟨_, .gap (h.isGap hout) hdivides, by rw [readFrom_broken hbounds, hothers]; rfl⟩

theorem exists_divides (bytes : List UInt8) :
    ∃ pieces, Divides bytes pieces ∧ Utf8.read bytes = pieces.map Piece.value :=
  (exists_divides_readFrom bytes).1

theorem IsGap.append_ne_nil (h : IsGap gap rest) : gap ++ rest ≠ [] :=
  List.append_ne_nil_of_left_ne_nil h.ne_nil rest

/-- Two gaps at the start of the same bytes are one. -/
theorem IsGap.unique {gap' rest' : List UInt8} (h : IsGap gap rest) (h' : IsGap gap' rest')
    (hbytes : gap ++ rest = gap' ++ rest') : gap = gap' ∧ rest = rest' := by
  have hle : ∀ {gap gap' rest rest' : List UInt8}, IsGap gap rest → IsGap gap' rest' →
      gap ++ rest = gap' ++ rest' → gap.length ≤ gap'.length := by
    intro gap gap' rest rest' h h' hbytes
    rcases h.starts with hone | hstarts
    · rw [hone]
      exact List.length_pos_iff.mpr h'.ne_nil
    · exact h'.longest gap (hbytes ▸ List.prefix_append gap rest) hstarts
  exact List.append_inj hbytes (Nat.le_antisymm (hle h h' hbytes) (hle h' h hbytes.symm))

theorem Divides.unique {pieces' : List Piece} (h : Divides bytes pieces)
    (h' : Divides bytes pieces') : pieces = pieces' := by
  induction h generalizing pieces' with
  | nil =>
    generalize hbytes : ([] : List UInt8) = bytes at h'
    cases h' with
    | nil => rfl
    | char c _ => exact absurd hbytes.symm (utf8EncodeChar_append_ne_nil c _)
    | gap hgap _ => exact absurd hbytes.symm hgap.append_ne_nil
  | @char rest pieces c h ih =>
    generalize hbytes : String.utf8EncodeChar c ++ rest = bytes at h'
    cases h' with
    | nil => exact absurd hbytes (utf8EncodeChar_append_ne_nil c _)
    | char d h' =>
      obtain ⟨rfl, rfl⟩ := utf8EncodeChar_append_inj hbytes
      rw [ih h']
    | gap hgap _ => exact absurd ⟨rest, hbytes⟩ (hgap.stray c)
  | @gap bytes rest pieces hgap h ih =>
    generalize hbytes : bytes ++ rest = others at h'
    cases h' with
    | nil => exact absurd hbytes hgap.append_ne_nil
    | char d h' => exact absurd ⟨_, hbytes.symm⟩ (hgap.stray d)
    | gap hgap' h' =>
      obtain ⟨rfl, rfl⟩ := hgap.unique hgap' hbytes
      rw [ih h']

theorem existsUnique_divides (bytes : List UInt8) : ∃! pieces, Divides bytes pieces := by
  obtain ⟨pieces, hpieces, -⟩ := exists_divides bytes
  exact ⟨pieces, hpieces, fun _ hother => hother.unique hpieces⟩

theorem Divides.lenient_eq (h : Divides bytes pieces) :
    lenient bytes = pieces.map Piece.filled := by
  obtain ⟨others, hothers, hread⟩ := exists_divides bytes
  obtain rfl := h.unique hothers
  rw [lenient, hread, List.map_map]
  rfl

theorem byByte_continues (hgap : ∀ b ∈ gap, 0x80 ≤ b.toNat ∧ b.toNat < 0xC0)
    (h : ByByte rest text) :
    ByByte (gap ++ rest) (List.replicate gap.length replacement ++ text) := by
  induction gap with
  | nil => exact h
  | cons b gap ih =>
    obtain ⟨hb, hothers⟩ := List.forall_mem_cons.mp hgap
    refine .stray (isStray_of_start (start_of_none ?_) _) (ih hothers)
    omega

theorem IsGap.continues_of_mem_tail (h : IsGap gap rest) (hb : b ∈ gap.tail) :
    0x80 ≤ b.toNat ∧ b.toNat < 0xC0 := by
  cases gap with
  | nil => exact absurd rfl h.ne_nil
  | cons first gap =>
    rcases h.starts with hone | ⟨c, behind, hbehind⟩
    · rw [List.length_cons, Nat.add_eq_right, List.length_eq_zero_iff] at hone
      rw [hone] at hb
      cases hb
    · apply Utf8.continues_of_mem_tail (c := c)
      rw [← hbehind]
      exact List.mem_append_left behind hb

theorem Divides.byByte (h : Divides bytes pieces) :
    ByByte bytes (pieces.flatMap Piece.spelled) := by
  induction h with
  | nil => exact .nil
  | char c _ ih => exact .char c ih
  | @gap bytes rest pieces hgap _ ih =>
    cases bytes with
    | nil => exact absurd rfl hgap.ne_nil
    | cons b bytes =>
      exact .stray hgap.stray (byByte_continues (fun _ => hgap.continues_of_mem_tail) ih)

theorem ByByte.unique {text' : List Char} (h : ByByte bytes text) (h' : ByByte bytes text') :
    text = text' := by
  induction h generalizing text' with
  | nil =>
    generalize hbytes : ([] : List UInt8) = bytes at h'
    cases h' with
    | nil => rfl
    | char c _ => exact absurd hbytes.symm (utf8EncodeChar_append_ne_nil c _)
    | stray _ _ => cases hbytes
  | @char rest text c _ ih =>
    generalize hbytes : String.utf8EncodeChar c ++ rest = bytes at h'
    cases h' with
    | nil => exact absurd hbytes (utf8EncodeChar_append_ne_nil c _)
    | char d h' =>
      obtain ⟨rfl, rfl⟩ := utf8EncodeChar_append_inj hbytes
      rw [ih h']
    | stray hstray _ => exact absurd ⟨rest, hbytes⟩ (hstray c)
  | @stray b rest text hstray _ ih =>
    generalize hbytes : b :: rest = bytes at h'
    cases h' with
    | nil => cases hbytes
    | char d h' => exact absurd ⟨_, hbytes.symm⟩ (hstray d)
    | stray _ h' =>
      obtain ⟨rfl, rfl⟩ := List.cons.inj hbytes
      rw [ih h']

end CodeNav.Text.Utf8
