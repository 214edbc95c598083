import CodeNav.Proofs.Criterion
import CodeNav.Proofs.Placement.Inverse

/-! # Symbols as hits

A symbol of a scan can be turned back into a hit, whose offset counts one unit for the end of a
line. Scanning for these hits under that convention alone finds the same symbols, now by position.
-/

namespace CodeNav

def Symbol.position (symbol : Symbol) : Nat ×ₗ Nat := toLex (symbol.startLine, symbol.startColumn)

theorem Criterion.accept_cut {criterion : Criterion} {line : List Char} {column length : Nat}
    {accepted : Accepted} (h : criterion.accept line column length = some accepted) :
    criterion.accept line column (accepted.endColumn - column) = some accepted := by
  rw [accept_eq_some_iff] at h ⊢
  obtain ⟨hcomment, hlimit, before, inside, after, hline, hbefore, hstop, hfits, rfl⟩ := h
  dsimp only
  have hcolumn : column ≤ min (column + length) (Text.units line) := by
    rw [← hstop, Text.units_append]
    omega
  have hcut : min (column + (min (column + length) (Text.units line) - column))
      (Text.units line) = min (column + length) (Text.units line) := by
    omega
  refine ⟨hcomment, by omega, before, inside, after, hline, hbefore, ?_, hfits, ?_⟩
  · rw [hcut, hstop]
  · rw [hcut]

namespace Placement

variable {endings : List LineEnding} {criterion : Criterion} {path : String}
  {lines : List (List Char)} {hit : Hit} {symbol : Symbol} {symbols : List Symbol}

/-- The hit for a symbol, whose offset counts one unit for the end of a line. -/
def hitOf (lines : List (List Char)) (symbol : Symbol) : Hit :=
  ⟨symbol.path, lineStart lines .lf symbol.startLine + symbol.startColumn,
    symbol.endColumn - symbol.startColumn⟩

/-- Under any conventions, the place of a hit is also that of the hit made from it. -/
theorem IsPlaceOf.hitOf (h : IsPlaceOf endings criterion path lines hit symbol) :
    IsPlaceOf [.lf] criterion path lines (hitOf lines symbol) symbol := by
  obtain ⟨number, -, ending, -, accepted, -, hfit, -, -, rfl⟩ := h
  obtain ⟨column, ⟨line, hline, hcolumn, hoffset⟩, other, hother, haccept⟩ := fitsAt_iff.mp hfit
  rw [symbolOf_of_offset hoffset]
  refine isPlaceOf_singleton_iff.mpr ⟨number, column, accepted, ?_, ?_, rfl⟩
  · exact ⟨line, hline, hcolumn, rfl⟩
  · exact ⟨other, hother, Criterion.accept_cut haccept⟩

theorem locate?_hitOf (h : IsPlaceOf [.lf] criterion path lines (hitOf lines symbol) symbol) :
    locate? [.lf] criterion path lines (hitOf lines symbol) =
      some ⟨hitOf lines symbol, symbol⟩ := by
  rw [locate?, place?_eq_some_iff.mpr h, Option.map_some]

theorem position_hitOf_le_iff {a b : Symbol} :
    Located.position ⟨hitOf lines a, a⟩ ≤ Located.position ⟨hitOf lines b, b⟩ ↔
      a.position ≤ b.position := by
  simp only [Located.position, Symbol.position, Prod.Lex.toLex_le_toLex, hitOf]
  refine or_congr_right (and_congr_right fun hline => ?_)
  rw [hline, Nat.add_le_add_iff_left]

/-- The hits made from symbols are placed at the symbols. -/
theorem symbols_ofLines_hitOf
    (h : ∀ symbol ∈ symbols, IsPlaceOf [.lf] criterion path lines (hitOf lines symbol) symbol) :
    (ofLines [.lf] criterion path (symbols.map (hitOf lines)) lines).symbols =
      symbols.mergeSort fun a b => decide (a.position ≤ b.position) := by
  have hlocated : (symbols.map (hitOf lines)).filterMap (locate? [.lf] criterion path lines) =
      symbols.map fun symbol => ⟨hitOf lines symbol, symbol⟩ := by
    rw [List.filterMap_map, ← List.filterMap_eq_map]
    exact List.filterMap_congr fun symbol hmem => locate?_hitOf (h symbol hmem)
  rw [symbols_ofLines, hlocated, ← List.map_mergeSort, List.map_map]
  · exact List.map_id _
  · intro a _ b _
    simp only [position_hitOf_le_iff]

/-- Whatever hits and conventions led to the symbols of a scan, the hits made from the symbols are
reported as these symbols under the convention of one unit. So scanning for them gives the same
symbols in the order of their positions, and scanning once more changes nothing. -/
theorem ofLines_hitOf (endings : List LineEnding) (criterion : Criterion) (path : String)
    (hits : List Hit) (lines : List (List Char)) :
    let symbols := (ofLines endings criterion path hits lines).symbols
    let again := (ofLines [.lf] criterion path (symbols.map (hitOf lines)) lines).symbols
    (∀ symbol ∈ symbols,
      IsReportedAs [.lf] criterion path lines (hitOf lines symbol) symbol) ∧
    again.Perm symbols ∧
    again.Pairwise (fun a b => a.position ≤ b.position) ∧
    (ofLines [.lf] criterion path (again.map (hitOf lines)) lines).symbols = again := by
  intro symbols again
  have hplace : ∀ symbol ∈ symbols,
      IsPlaceOf [.lf] criterion path lines (hitOf lines symbol) symbol := by
    intro symbol hmem
    obtain ⟨hit, -, h⟩ := exists_isPlaceOf_of_mem hmem
    exact h.hitOf
  have hagain : again = symbols.mergeSort fun a b => decide (a.position ≤ b.position) :=
    symbols_ofLines_hitOf hplace
  have hperm : again.Perm symbols := hagain ▸ List.mergeSort_perm _ _
  have hsorted : again.Pairwise fun a b => a.position ≤ b.position :=
    hagain ▸ StableSort.pairwise_mergeSort Symbol.position symbols
  refine ⟨fun symbol hmem => (hplace symbol hmem).isReportedAs, hperm, hsorted, ?_⟩
  rw [symbols_ofLines_hitOf fun symbol hmem => hplace symbol (hperm.mem_iff.mp hmem)]
  exact List.mergeSort_of_pairwise (hsorted.imp fun h => decide_eq_true h)

end Placement

end CodeNav
