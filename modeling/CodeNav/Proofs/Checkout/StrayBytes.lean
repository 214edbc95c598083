import Mathlib
import CodeNav.Proofs.Checkout.HitByHit
import CodeNav.Proofs.Placement.Inverse
import CodeNav.Proofs.Text.Expansion

/-! # Offsets in files with stray bytes

The index counts each byte that is part of no character as a character of its own. A scan reads a
gap as one character, however many bytes it has. So offsets of the index fall on their own lines and
columns exactly if every gap is a single byte.
-/

namespace CodeNav

namespace Text.Utf8

variable {bytes gap rest : List UInt8} {pieces : List Piece} {text : List Char}

/-- Every gap is a single byte. -/
def HasSingleGaps (bytes : List UInt8) : Prop :=
  ∀ pieces, Divides bytes pieces → ∀ gap, .gap gap ∈ pieces → gap.length = 1

theorem IsGap.length_le (h : IsGap gap rest) : gap.length ≤ 3 := by
  rcases h.starts with hone | ⟨c, hc⟩
  · omega
  · have hlength : gap.length ≤ c.utf8Size := String.length_utf8EncodeChar c ▸ hc.length_le
    have hfour := c.utf8Size_le_four
    by_contra hlong
    have hall : gap = String.utf8EncodeChar c := by
      apply hc.eq_of_length
      rw [String.length_utf8EncodeChar]
      omega
    exact h.stray c (hall ▸ List.prefix_append gap rest)

theorem Divides.isGap_of_mem (h : Divides bytes pieces) (hmem : .gap gap ∈ pieces) :
    ∃ rest, IsGap gap rest := by
  induction h with
  | nil => cases hmem
  | char c _ ih =>
    rcases List.mem_cons.mp hmem with heq | hmem
    · cases heq
    · exact ih hmem
  | gap hgap _ ih =>
    rcases List.mem_cons.mp hmem with heq | hmem
    · exact ⟨_, Piece.gap.inj heq ▸ hgap⟩
    · exact ih hmem

/-- A gap has as many replacement characters as bytes, and so more than one if it is longer. -/
theorem expands_gap {longer : List Char} (hgap : gap ≠ []) (h : Expands text longer) :
    Expands (replacement :: text) (List.replicate gap.length replacement ++ longer) := by
  induction gap with
  | nil => exact absurd rfl hgap
  | cons b gap ih =>
    cases gap with
    | nil => exact .same replacement h
    | cons next gap => exact .again (ih (List.cons_ne_nil next gap))

theorem Divides.expands (h : Divides bytes pieces) :
    Expands (pieces.map Piece.filled) (pieces.flatMap Piece.spelled) := by
  induction h with
  | nil => exact .nil
  | char c _ ih => exact .same c ih
  | gap hgap _ ih => exact expands_gap hgap.ne_nil ih

theorem Divides.spelled_eq_filled_iff (h : Divides bytes pieces) :
    pieces.flatMap Piece.spelled = pieces.map Piece.filled ↔
      ∀ gap, .gap gap ∈ pieces → gap.length = 1 := by
  induction h with
  | nil => simp
  | @char rest pieces c _ ih =>
    have hcons : ((Piece.char c :: pieces).flatMap Piece.spelled =
        (Piece.char c :: pieces).map Piece.filled) ↔
          pieces.flatMap Piece.spelled = pieces.map Piece.filled := List.cons_inj_right c
    rw [hcons, ih]
    simp
  | @gap bytes rest pieces hgap hrest ih =>
    have hpositive := List.length_pos_iff.mpr hgap.ne_nil
    constructor
    · intro heq
      -- The rest spelled out has at least a character for each piece, so this gap has one only.
      have hone : bytes.length = 1 := by
        have hlength := congrArg List.length heq
        have hle := hrest.expands.length_le
        simp only [List.flatMap_cons, Piece.spelled, List.length_append, List.length_replicate,
          List.map_cons, List.length_cons] at hlength
        omega
      rw [List.flatMap_cons, Piece.spelled, hone] at heq
      intro gap hmem
      rcases List.mem_cons.mp hmem with hfirst | hmem
      · rw [Piece.gap.inj hfirst, hone]
      · exact ih.mp (List.cons.inj heq).2 gap hmem
    · intro hsingle
      have hone := hsingle bytes List.mem_cons_self
      have hothers := ih.mpr fun gap hmem => hsingle gap (List.mem_cons_of_mem _ hmem)
      rw [List.flatMap_cons, Piece.spelled, hone, hothers]
      rfl

theorem hasSingleGaps_iff (h : Divides bytes pieces) :
    HasSingleGaps bytes ↔ ∀ gap, .gap gap ∈ pieces → gap.length = 1 := by
  constructor
  · intro hsingle
    exact hsingle pieces h
  · intro hsingle others hothers
    rwa [hothers.unique h]

theorem byByte_iff (h : Divides bytes pieces) :
    ByByte bytes text ↔ text = pieces.flatMap Piece.spelled := by
  constructor
  · intro htext
    exact htext.unique h.byByte
  · rintro rfl
    exact h.byByte

end Text.Utf8

namespace Placement

variable {text longer : List Char} {ending : LineEnding}

theorem liesAt_of_expands_iff (h : Text.Expands text longer) :
    (∀ offset number column, LiesAt (Text.lines longer) ending offset number column →
      LiesAt (Text.lines text) ending offset number column) ↔ longer = text := by
  constructor
  · intro hlies
    apply h.eq_of_lines
    intro k line longerLine hline hlonger
    by_contra hunits
    -- The first column past the shorter line is one of the longer line.
    have hcolumn := hlies _ k (Text.units line) ⟨longerLine, hlonger, Nat.not_le.mp hunits, rfl⟩
    obtain ⟨other, hother, hlt, -⟩ := hcolumn
    obtain rfl : line = other := Option.some.inj (hline.symm.trans hother)
    exact lt_irrefl _ hlt
  · rintro rfl offset number column hlies
    exact hlies

end Placement

namespace Checkout

open Text.Utf8

/-- How the bytes of a file are read, and where the offsets of the index fall in what is read. -/
structure FillsGaps (bytes : List UInt8) : Prop where
  divides : ∃! pieces, Divides bytes pieces
  short : ∀ pieces, Divides bytes pieces → ∀ gap, .gap gap ∈ pieces → gap.length ≤ 3
  filled : ∀ pieces, Divides bytes pieces → lenient bytes = pieces.map Piece.filled
  unit : Text.charUnits replacement = 1
  counted : ∀ pieces, Divides bytes pieces → ∀ text,
    ByByte bytes text ↔ text = pieces.flatMap Piece.spelled
  byByte : ByByte bytes (lenient bytes) ↔ HasSingleGaps bytes
  placed : ∀ text ending, ByByte bytes text →
    ((∀ offset number column,
        Placement.LiesAt (Text.lines text) ending offset number column →
          Placement.LiesAt (Text.lines (lenient bytes)) ending offset number column) ↔
      HasSingleGaps bytes)
  scanned : ∀ (scanner : Scanner) (tree : FileTree) (group : Group) (path : String),
    localPath? scanner.root group.path = some path → tree.read path = .ok bytes →
      scanner.found tree group =
        (Placement.ofText scanner.endings scanner.criterion path group.hits
          (lenient bytes)).symbols

variable {bytes : List UInt8} {pieces : List Piece} {text : List Char}

theorem eq_lenient_iff (h : Divides bytes pieces) (htext : ByByte bytes text) :
    text = lenient bytes ↔ HasSingleGaps bytes := by
  rw [(byByte_iff h).mp htext, h.lenient_eq, h.spelled_eq_filled_iff, hasSingleGaps_iff h]

theorem byByte_lenient_iff (bytes : List UInt8) :
    ByByte bytes (lenient bytes) ↔ HasSingleGaps bytes := by
  obtain ⟨pieces, hpieces, -⟩ := exists_divides bytes
  rw [← eq_lenient_iff hpieces hpieces.byByte, byByte_iff hpieces, eq_comm]

theorem liesAt_lenient_iff {ending : LineEnding} (htext : ByByte bytes text) :
    (∀ offset number column, Placement.LiesAt (Text.lines text) ending offset number column →
      Placement.LiesAt (Text.lines (lenient bytes)) ending offset number column) ↔
        HasSingleGaps bytes := by
  obtain ⟨pieces, hpieces, -⟩ := exists_divides bytes
  have hexpands : Text.Expands (lenient bytes) text := by
    rw [hpieces.lenient_eq, (byByte_iff hpieces).mp htext]
    exact hpieces.expands
  rw [Placement.liesAt_of_expands_iff hexpands, eq_lenient_iff hpieces htext]

/-- Each character of a file is read as itself, and each gap as one replacement character. Counting
one character for each byte of the gaps comes to the same text, lines and columns exactly if every
gap is a single byte. -/
theorem lenient_fillsGaps (bytes : List UInt8) : FillsGaps bytes where
  divides := existsUnique_divides bytes
  short pieces hpieces gap hmem := by
    obtain ⟨rest, hgap⟩ := hpieces.isGap_of_mem hmem
    exact hgap.length_le
  filled pieces hpieces := hpieces.lenient_eq
  unit := Text.charUnits_replacement
  counted pieces hpieces text := byByte_iff hpieces
  byByte := byByte_lenient_iff bytes
  placed text ending htext := liesAt_lenient_iff htext
  scanned scanner tree group path hlocal hread := Scanner.found_of_read hlocal hread

/-- Three of the four bytes of a character, a line feed and a letter. -/
def cutShort : List UInt8 := [0xF0, 0x9F, 0x98, 10, 87]

theorem byByte_cutShort :
    ByByte cutShort [replacement, replacement, replacement, '\n', 'W'] := by
  have hstart : start 0x9F = (.ready, [none]) := by decide
  have hstart' : start 0x98 = (.ready, [none]) := by decide
  have hstray : IsStray cutShort := by
    intro c hprefix
    obtain ⟨rest, hread⟩ := readFrom_of_prefix hprefix
    rw [show readFrom .ready cutShort = [none, some '\n', some 'W'] by decide] at hread
    cases (List.cons.inj hread).1
  refine .stray hstray (.stray (isStray_of_start hstart _) (.stray (isStray_of_start hstart' _) ?_))
  exact .char '\n' (.char 'W' .nil)

/-- Counted byte by byte, the letter lies at offset 4; in what is read, it lies at offset 2. -/
theorem not_liesAt_cutShort :
    (¬ ∀ bytes, ByByte bytes (lenient bytes)) ∧
      ¬ ∀ bytes text offset number column, ByByte bytes text →
        Placement.LiesAt (Text.lines text) .lf offset number column →
          Placement.LiesAt (Text.lines (lenient bytes)) .lf offset number column := by
  have hlenient : lenient cutShort = [replacement, '\n', 'W'] := by decide
  constructor
  · intro h
    have heq := (h cutShort).unique byByte_cutShort
    rw [hlenient] at heq
    exact absurd heq (by decide)
  · intro h
    have hlies := h cutShort _ 4 1 0 byByte_cutShort ⟨['W'], rfl, by decide, rfl⟩
    have hoffset := hlies.offset_eq
    rw [hlenient] at hoffset
    exact absurd hoffset (by decide)

end Checkout

end CodeNav
