import CodeNav.Text.Utf8

/-! # UTF-8 read back

A text is read back from its encoding without gaps, and a byte below 128 in the encoding is a
character of its own.
-/

namespace CodeNav.Text.Utf8

variable {n missing value : Nat} {least greatest : UInt8} {bytes : List UInt8} {c : Char}

theorem toNat_ofNat (h : n < 256) : (UInt8.ofNat n).toNat = n := by
  simpa using Nat.mod_eq_of_lt h

theorem step_within (hleast : least.toNat ≤ n) (hgreatest : n ≤ greatest.toNat) :
    step (.within missing least greatest value) (UInt8.ofNat n) =
      match missing with
      | 0 => (.ready, [some (Char.ofNat (value * 64 + n % 64))])
      | missing + 1 => (.within missing 0x80 0xBF (value * 64 + n % 64), []) := by
  have hbyte : n < 256 := Nat.lt_of_le_of_lt hgreatest greatest.toNat_lt
  have hbounds : least ≤ UInt8.ofNat n ∧ UInt8.ofNat n ≤ greatest := by
    rw [UInt8.le_iff_toNat_le, UInt8.le_iff_toNat_le, toNat_ofNat hbyte]
    exact ⟨hleast, hgreatest⟩
  have hvalue : (UInt8.ofNat n).toNat % 64 = n % 64 := by rw [toNat_ofNat hbyte]
  cases missing with
  | zero => simp only [step, if_pos hbounds, hvalue]
  | succ missing => simp only [step, if_pos hbounds, hvalue]

theorem readFrom_last (hleast : least.toNat ≤ n) (hgreatest : n ≤ greatest.toNat) :
    readFrom (.within 0 least greatest value) (UInt8.ofNat n :: bytes) =
      some (Char.ofNat (value * 64 + n % 64)) :: readFrom .ready bytes := by
  rw [readFrom, step_within hleast hgreatest]
  rfl

theorem readFrom_more (hleast : least.toNat ≤ n) (hgreatest : n ≤ greatest.toNat) :
    readFrom (.within (missing + 1) least greatest value) (UInt8.ofNat n :: bytes) =
      readFrom (.within missing 0x80 0xBF (value * 64 + n % 64)) bytes := by
  rw [readFrom, step_within hleast hgreatest]
  rfl

theorem start_one (h : n < 0x80) : start (UInt8.ofNat n) = (.ready, [some (Char.ofNat n)]) := by
  rw [start, toNat_ofNat (by omega)]
  exact if_pos h

theorem start_two (hleast : 0xC2 ≤ n) (hgreatest : n < 0xE0) :
    start (UInt8.ofNat n) = (.within 0 0x80 0xBF (n - 0xC0), []) := by
  rw [start, toNat_ofNat (by omega)]
  simp only [show ¬ n < 0x80 by omega, show ¬ n < 0xC2 by omega, hgreatest, if_true, if_false]

/-- After the least first byte the next byte is bounded from below, so that no shorter sequence
would do; after another one it is bounded from above, so that no surrogate is encoded. -/
theorem start_three (hleast : 0xE0 ≤ n) (hgreatest : n < 0xF0) :
    start (UInt8.ofNat n) =
      (.within 1 (if n = 0xE0 then 0xA0 else 0x80) (if n = 0xED then 0x9F else 0xBF) (n - 0xE0),
        []) := by
  rw [start, toNat_ofNat (by omega)]
  simp only [show ¬ n < 0x80 by omega, show ¬ n < 0xC2 by omega, show ¬ n < 0xE0 by omega,
    if_false]
  by_cases hfirst : n = 0xE0
  · simp [hfirst]
  · by_cases hsurrogate : n = 0xED
    · simp [hsurrogate]
    · simp [hfirst, hsurrogate, hgreatest]

theorem start_four (hleast : 0xF0 ≤ n) (hgreatest : n ≤ 0xF4) :
    start (UInt8.ofNat n) =
      (.within 2 (if n = 0xF0 then 0x90 else 0x80) (if n = 0xF4 then 0x8F else 0xBF) (n - 0xF0),
        []) := by
  rw [start, toNat_ofNat (by omega)]
  simp only [show ¬ n < 0x80 by omega, show ¬ n < 0xC2 by omega, show ¬ n < 0xE0 by omega,
    show ¬ n < 0xF0 by omega, show n ≠ 0xE0 by omega, show n ≠ 0xED by omega, if_false]
  by_cases hfirst : n = 0xF0
  · simp [hfirst]
  · by_cases hlast : n = 0xF4
    · simp [hlast]
    · have hlt : n < 0xF4 := by omega
      simp [hfirst, hlast, hlt]

theorem readFrom_start {state : State} {read : List (Option Char)}
    (h : start (UInt8.ofNat n) = (state, read)) :
    readFrom .ready (UInt8.ofNat n :: bytes) = read ++ readFrom state bytes := by
  rw [readFrom, step, h]

theorem toNat_lt (c : Char) : c.toNat < 0x110000 ∧ (c.toNat < 0xD800 ∨ 0xE000 ≤ c.toNat) := by
  have hvalid := c.valid
  simp only [UInt32.isValidChar, Nat.isValidChar] at hvalid
  change _ ∨ _ at hvalid
  have hval : c.val.toNat = c.toNat := rfl
  omega

theorem second_of_three {v : Nat} (hleast : 0x800 ≤ v) (hgreatest : v < 0x10000)
    (hsurrogate : v < 0xD800 ∨ 0xE000 ≤ v) :
    (if v / 4096 % 16 + 224 = 0xE0 then 0xA0 else 0x80 : UInt8).toNat ≤ v / 64 % 64 + 128 ∧
      v / 64 % 64 + 128 ≤ (if v / 4096 % 16 + 224 = 0xED then 0x9F else 0xBF : UInt8).toNat := by
  constructor
  · split
    · change 0xA0 ≤ _
      omega
    · change 0x80 ≤ _
      omega
  · split
    · change _ ≤ 0x9F
      omega
    · change _ ≤ 0xBF
      omega

theorem second_of_four {v : Nat} (hleast : 0x10000 ≤ v) (hgreatest : v < 0x110000) :
    (if v / 262144 % 8 + 240 = 0xF0 then 0x90 else 0x80 : UInt8).toNat ≤ v / 4096 % 64 + 128 ∧
      v / 4096 % 64 + 128 ≤ (if v / 262144 % 8 + 240 = 0xF4 then 0x8F else 0xBF : UInt8).toNat := by
  constructor
  · split
    · change 0x90 ≤ _
      omega
    · change 0x80 ≤ _
      omega
  · split
    · change _ ≤ 0x8F
      omega
    · change _ ≤ 0xBF
      omega

theorem later_of_many (v : Nat) :
    (0x80 : UInt8).toNat ≤ v % 64 + 128 ∧ v % 64 + 128 ≤ (0xBF : UInt8).toNat := by
  change 0x80 ≤ _ ∧ _ ≤ 0xBF
  omega

/-- Whatever follows, the bytes of a character are read as that character. -/
theorem readFrom_char (c : Char) (bytes : List UInt8) :
    readFrom .ready (String.utf8EncodeChar c ++ bytes) = some c :: readFrom .ready bytes := by
  obtain ⟨hlimit, hsurrogate⟩ := toNat_lt c
  have hval : c.val.toNat = c.toNat := rfl
  have hself : Char.ofNat c.toNat = c := Char.ofNat_toNat c
  have hthird := later_of_many (c.toNat / 64)
  have hlast := later_of_many c.toNat
  simp only [String.utf8EncodeChar, hval]
  split
  · rw [List.singleton_append, readFrom_start (start_one (by omega)), hself]
    rfl
  · split
    · rw [List.cons_append, readFrom_start (start_two (by omega) (by omega)), List.nil_append,
        List.singleton_append, readFrom_last hlast.1 hlast.2]
      have hvalue : (c.toNat / 64 % 32 + 192 - 0xC0) * 64 + (c.toNat % 64 + 128) % 64 =
          c.toNat := by
        omega
      rw [hvalue, hself]
    · split
      · obtain ⟨hleast, hgreatest⟩ := second_of_three (by omega) (by omega) hsurrogate
        rw [List.cons_append, readFrom_start (start_three (by omega) (by omega)), List.nil_append,
          List.cons_append, readFrom_more hleast hgreatest, List.singleton_append,
          readFrom_last hlast.1 hlast.2]
        have hvalue : ((c.toNat / 4096 % 16 + 224 - 0xE0) * 64 +
            (c.toNat / 64 % 64 + 128) % 64) * 64 + (c.toNat % 64 + 128) % 64 = c.toNat := by
          omega
        rw [hvalue, hself]
      · obtain ⟨hleast, hgreatest⟩ := second_of_four (by omega) hlimit
        rw [List.cons_append, readFrom_start (start_four (by omega) (by omega)), List.nil_append,
          List.cons_append, readFrom_more hleast hgreatest, List.cons_append,
          readFrom_more hthird.1 hthird.2, List.singleton_append, readFrom_last hlast.1 hlast.2]
        have hvalue : (((c.toNat / 262144 % 8 + 240 - 0xF0) * 64 +
            (c.toNat / 4096 % 64 + 128) % 64) * 64 + (c.toNat / 64 % 64 + 128) % 64) * 64 +
            (c.toNat % 64 + 128) % 64 = c.toNat := by
          omega
        rw [hvalue, hself]

theorem read_encode (text : List Char) : read (encode text) = text.map some := by
  induction text with
  | nil => rfl
  | cons c text ih =>
    rw [encode, List.flatMap_cons, ← encode, read, readFrom_char, ← read, ih]
    rfl

theorem strict?_encode (text : List Char) : strict? (encode text) = some text := by
  rw [strict?, read_encode]
  induction text with
  | nil => rfl
  | cons c text ih => simp only [List.map_cons, List.mapM_cons, ih, id, Option.pure_def,
      Option.bind_eq_bind, Option.bind_some]

/-- A text that is read strictly has no gaps to fill. -/
theorem lenient_of_strict? {text : List Char} (h : strict? bytes = some text) :
    lenient bytes = text := by
  have hgaps : ∀ (read : List (Option Char)) (text : List Char), read.mapM id = some text →
      read.map (·.getD replacement) = text := by
    intro read
    induction read with
    | nil =>
      rintro text ⟨⟩
      rfl
    | cons first read ih =>
      intro text hread
      simp only [List.mapM_cons, id, Option.bind_eq_bind, Option.bind_eq_some_iff, Option.pure_def,
        Option.some.injEq] at hread
      obtain ⟨c, rfl, rest, hrest, rfl⟩ := hread
      rw [List.map_cons, ih rest hrest]
      rfl
  exact hgaps (read bytes) text h

theorem toNat_eq_of_mem {byte : UInt8} (h : byte ∈ String.utf8EncodeChar c)
    (hbyte : byte.toNat < 0x80) : c.toNat = byte.toNat := by
  obtain ⟨hlimit, -⟩ := toNat_lt c
  have hval : c.val.toNat = c.toNat := rfl
  simp only [String.utf8EncodeChar, hval] at h
  split at h
  · rw [List.mem_singleton.mp h, toNat_ofNat (by omega)]
  · exfalso
    split at h
    · simp only [List.mem_cons, List.not_mem_nil, or_false] at h
      rcases h with rfl | rfl
      all_goals rw [toNat_ofNat (by omega)] at hbyte; omega
    · split at h
      · simp only [List.mem_cons, List.not_mem_nil, or_false] at h
        rcases h with rfl | rfl | rfl
        all_goals rw [toNat_ofNat (by omega)] at hbyte; omega
      · simp only [List.mem_cons, List.not_mem_nil, or_false] at h
        rcases h with rfl | rfl | rfl | rfl
        all_goals rw [toNat_ofNat (by omega)] at hbyte; omega

end CodeNav.Text.Utf8
