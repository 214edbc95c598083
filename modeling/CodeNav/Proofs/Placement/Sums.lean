import CodeNav.Proofs.Criterion.Acceptance
import CodeNav.Proofs.Placement.Scan
import CodeNav.Proofs.Text.Lines
import CodeNav.Proofs.Text.Positions
import CodeNav.Word

/-! # Sums in a scan

The running offsets of a scan grow faster than the text, since an empty line adds two to them and
may take a single byte. Still no sum in a scan is greater than twice the bytes of the text and one,
which is a word for every text that is less than half as long as words can count.
-/

namespace CodeNav

namespace Text

variable {text line : List Char} {lines : List (List Char)}

/-- The units of the lines of a text, with two for the end of each, are bounded by its bytes. The
last line may have two for an end that it lacks. -/
theorem Holds.sum_units_le (h : Holds text lines) :
    (lines.map fun line => units line + 2).sum ≤ 2 * byteLength text + 1 := by
  induction h with
  | nil => exact Nat.zero_le 1
  | @unended line hne =>
    have hle := units_le_byteLength line
    have hpos : 0 < byteLength line := by
      obtain ⟨c, line, rfl⟩ := List.exists_cons_of_ne_nil hne
      have hc := c.utf8Size_pos
      rw [byteLength_cons]
      omega
    simp only [List.map_cons, List.map_nil, List.sum_cons, List.sum_nil]
    omega
  | @cons line terminator text lines hend _ ih =>
    have hle := units_le_byteLength line
    have hpos : 0 < byteLength terminator := by
      simp only [terminators, List.mem_cons, List.not_mem_nil, or_false] at hend
      rcases hend with rfl | rfl <;> decide
    simp only [List.map_cons, List.sum_cons, byteLength_append]
    omega

theorem Holds.byteLength_le (h : Holds text lines) (hline : line ∈ lines) :
    byteLength line ≤ byteLength text := by
  induction h with
  | nil => cases hline
  | unended _ => rw [List.mem_singleton.mp hline]
  | @cons first terminator text lines _ _ ih =>
    rw [byteLength_append, byteLength_append]
    rcases List.mem_cons.mp hline with rfl | hline
    · omega
    · have hrest := ih hline
      omega

end Text

namespace Criterion

/-- Checks a candidate with sums below a limit. The end of the candidate is a sum that may fail to
be a word, whatever the limit is. -/
def acceptBelow (limit : Nat) (c : Criterion) (line : List Char) (column length : Nat) :
    Except SumOverflow (Option Accepted) :=
  if isLineComment line then return none
  else if column + length < wordLimit then do
    let units ← Text.unitsBelow limit line
    let stop := min (column + length) units
    match ← Text.indexBelow limit line column with
    | none => return none
    | some first =>
      match ← Text.indexBelow limit line stop with
      | none => return none
      | some last =>
        match Text.byteSlice line first last with
        | .error _ => return none
        | .ok inside => return if c.fits inside then some ⟨stop, c.shown line inside⟩ else none
  else return none

theorem acceptBelow_eq {limit : Nat} {line : List Char} (h : Text.byteLength line < limit)
    (c : Criterion) (column length : Nat) :
    c.acceptBelow limit line column length = .ok (c.accept line column length) := by
  have hunits := Text.units_le_byteLength line
  have hbytes := c.acceptInBytes_eq line column length
  unfold acceptInBytes at hbytes
  unfold acceptBelow
  by_cases hcomment : isLineComment line = true
  · rw [if_pos hcomment] at hbytes ⊢
    rw [← Except.ok.inj hbytes]
    rfl
  by_cases hrange : column + length < wordLimit
  · rw [if_neg hcomment, if_pos hrange] at hbytes ⊢
    simp only [Text.unitsBelow_eq (hunits.trans_lt h), Text.indexBelow_eq h, bind, Except.bind]
    dsimp only at hbytes
    split at hbytes
    · rename_i first last hfirst hlast
      simp only [hfirst, hlast]
      cases hslice : Text.byteSlice line first last with
      | error bad =>
        rw [hslice] at hbytes
        cases hbytes
      | ok inside =>
        rw [hslice] at hbytes
        exact congrArg Except.ok (Except.ok.inj hbytes)
    · rename_i hnone
      rw [← Except.ok.inj hbytes]
      cases hfirst : Text.byteIndex? line column with
      | none => rfl
      | some first =>
        cases hlast : Text.byteIndex? line (min (column + length) (Text.units line)) with
        | none => rfl
        | some last => exact absurd hlast (hnone first last hfirst)
  · rw [if_neg hcomment, if_neg hrange] at hbytes ⊢
    rw [← Except.ok.inj hbytes]
    rfl

end Criterion

namespace Placement

/-- Places a hit on a line by the first convention under which it is accepted there. The end of a
window is a sum that is formed unless the window starts behind the hit. -/
def onLineBelow (limit : Nat) (criterion : Criterion) (path : String) (number : Nat)
    (line : List Char) (length : Nat) (hit : Hit) : List Nat → Except SumOverflow (Option Symbol)
  | [] => return none
  | start :: starts =>
    if hit.offset < start then onLineBelow limit criterion path number line length hit starts
    else do
      let stop ← addBelow limit start length
      if stop ≤ hit.offset then onLineBelow limit criterion path number line length hit starts
      else
        match ← criterion.acceptBelow limit line (hit.offset - start) hit.length with
        | some accepted =>
          return some (Symbol.onLine path number (hit.offset - start) accepted.endColumn
            (String.ofList accepted.text))
        | none => onLineBelow limit criterion path number line length hit starts

def advanceBelow (limit length : Nat) :
    List LineEnding → List Nat → Except SumOverflow (List Nat)
  | ending :: endings, start :: starts => do
    let step ← addBelow limit length ending.width
    let next ← addBelow limit start step
    let later ← advanceBelow limit length endings starts
    return next :: later
  | _, _ => return []

/-- Reads lines from the given one on, with sums below a limit. The lines that were read are as many
as the number of the next one. -/
def scanBelow (limit : Nat) (criterion : Criterion) (path : String) (endings : List LineEnding) :
    Nat → List Nat → List Hit → List (List Char) → Except SumOverflow Placement
  | number, _, _, [] => return ⟨[], number⟩
  | number, starts, pending, line :: lines =>
    if pending.isEmpty then return ⟨[], number⟩
    else do
      let scanned ← addBelow limit number 1
      let length ← Text.unitsBelow limit line
      let places ← pending.mapM fun hit => do
        let symbol? ← onLineBelow limit criterion path number line length hit starts
        return (hit, symbol?)
      let next ← advanceBelow limit length endings starts
      let rest ← scanBelow limit criterion path endings scanned next
        ((places.filter fun (_, symbol?) => symbol?.isNone).map Prod.fst) lines
      return ⟨places.filterMap Prod.snd ++ rest.symbols, rest.linesScanned⟩

def ofTextBelow (limit : Nat) (endings : List LineEnding) (criterion : Criterion) (path : String)
    (hits : List Hit) (text : List Char) : Except SumOverflow Placement :=
  scanBelow limit criterion path endings 0 (endings.map fun _ => 0)
    (hits.mergeSort fun a b => a.offset ≤ b.offset) (Text.lines text)

variable {endings : List LineEnding} {ending : LineEnding} {criterion : Criterion} {path : String}
  {lines : List (List Char)} {line text : List Char} {hits : List Hit} {k number limit : Nat}
  {offsets : List Nat}

theorem onLineBelow_eq (hline : Text.byteLength line < limit)
    (hstops : ∀ start ∈ offsets, start + Text.units line < limit) (hit : Hit) :
    onLineBelow limit criterion path number line (Text.units line) hit offsets =
      .ok (onLine? criterion path number line offsets hit) := by
  induction offsets with
  | nil => rfl
  | cons start offsets ih =>
    rw [List.forall_mem_cons] at hstops
    have hrest := ih hstops.2
    rw [onLine?] at hrest ⊢
    rw [onLineBelow, List.findSome?_cons, addBelow_eq_ok hstops.1]
    by_cases hbefore : hit.offset < start
    · rw [if_pos hbefore, if_neg (by omega)]
      exact hrest
    by_cases hbehind : start + Text.units line ≤ hit.offset
    · simp only [if_neg hbefore, if_pos hbehind, bind, Except.bind]
      rw [if_neg (by omega)]
      exact hrest
    · simp only [if_neg hbefore, if_neg hbehind, Criterion.acceptBelow_eq hline, bind,
        Except.bind]
      rw [if_pos (by omega)]
      cases criterion.accept line (hit.offset - start) hit.length with
      | none => exact hrest
      | some accepted => rfl

theorem advanceBelow_eq {offset : LineEnding → Nat}
    (h : ∀ ending ∈ endings, offset ending + (Text.units line + ending.width) < limit) :
    advanceBelow limit (Text.units line) endings (endings.map offset) =
      .ok (advance endings (endings.map offset) line) := by
  induction endings with
  | nil => rfl
  | cons ending endings ih =>
    rw [List.forall_mem_cons] at h
    rw [List.map_cons, advanceBelow, addBelow_eq_ok (by omega)]
    simp only [bind, Except.bind, addBelow_eq_ok h.1, ih h.2]
    rfl

/-- Everything that a scan adds up for these lines is below a limit. -/
structure FitsBelow (limit : Nat) (endings : List LineEnding) (lines : List (List Char)) :
    Prop where
  count : lines.length < limit
  bytes : ∀ line ∈ lines, Text.byteLength line < limit
  starts : ∀ ending ∈ endings, ∀ k, lineStart lines ending k < limit

theorem FitsBelow.stop_lt (h : FitsBelow limit endings lines) (hline : lines[k]? = some line)
    (hending : ending ∈ endings) :
    lineStart lines ending k + (Text.units line + ending.width) < limit := by
  rw [← lineStart_succ hline]
  exact h.starts ending hending (k + 1)

/-- From any line on, a scan whose sums stay below the limit is a scan. -/
theorem scanBelow_eq {rest : List (List Char)} (hfits : FitsBelow limit endings lines)
    (hdrop : lines.drop k = rest) (pending : List Hit) :
    scanBelow limit criterion path endings k (starts endings lines k) pending rest =
      let result := scan criterion path endings k (starts endings lines k) pending rest
      .ok ⟨result.symbols, k + result.linesScanned⟩ := by
  induction rest generalizing k pending with
  | nil => rfl
  | cons line rest ih =>
    obtain ⟨hline, hrest⟩ := of_drop_eq_cons hdrop
    obtain ⟨hk, hmem⟩ := List.getElem?_eq_some_iff.mp hline
    have hbytes := hfits.bytes line (hmem ▸ List.getElem_mem hk)
    have hunits := Text.units_le_byteLength line
    have hcount := hfits.count
    have hstops : ∀ start ∈ starts endings lines k, start + Text.units line < limit := by
      intro start hstart
      obtain ⟨ending, hending, rfl⟩ := List.mem_map.mp hstart
      have hstop := hfits.stop_lt hline hending
      omega
    have hnext : advanceBelow limit (Text.units line) endings (starts endings lines k) =
        .ok (starts endings lines (k + 1)) := by
      rw [← advance_starts hline]
      exact advanceBelow_eq fun ending hending => hfits.stop_lt hline hending
    let place := onLine? criterion path k line (starts endings lines k)
    have hplaces : (pending.mapM fun hit => do
        let symbol? ← onLineBelow limit criterion path k line (Text.units line) hit
          (starts endings lines k)
        return (hit, symbol?)) = Except.ok (pending.map fun hit => (hit, place hit)) := by
      simp only [onLineBelow_eq hbytes hstops]
      exact List.mapM_pure
    rw [scanBelow, scan]
    by_cases hpending : pending.isEmpty = true
    · rw [if_pos hpending, if_pos hpending]
      rfl
    · rw [if_neg hpending, if_neg hpending, addBelow_eq_ok (by omega),
        Text.unitsBelow_eq (by omega)]
      have hfound : (pending.map fun hit => (hit, place hit)).filterMap Prod.snd =
          pending.filterMap place := by
        rw [List.filterMap_map]
        rfl
      have hleft : ((pending.map fun hit => (hit, place hit)).filter
          fun (_, symbol?) => symbol?.isNone).map Prod.fst =
            pending.filter fun hit => (place hit).isNone := by
        rw [List.filter_map, List.map_map]
        exact List.map_id _
      simp only [bind, Except.bind] at hplaces ⊢
      simp only [hplaces, hnext, hfound, hleft, ih hrest, advance_starts hline, Nat.add_assoc,
        Nat.add_comm 1]
      rfl

theorem ofTextBelow_eq (h : FitsBelow limit endings (Text.lines text)) :
    ofTextBelow limit endings criterion path hits text =
      .ok (ofText endings criterion path hits text) := by
  rw [ofTextBelow, ofText, ofLines, ← starts_zero (Text.lines text),
    scanBelow_eq h List.drop_zero]
  simp only [Nat.zero_add]

theorem width_le_two (ending : LineEnding) : ending.width ≤ 2 := by
  cases ending <;> decide

theorem lineStart_lines_le (text : List Char) (ending : LineEnding) (k : Nat) :
    lineStart (Text.lines text) ending k ≤ 2 * Text.byteLength text + 1 := by
  calc lineStart (Text.lines text) ending k
      ≤ (((Text.lines text).take k).map fun line => Text.units line + 2).sum :=
        List.sum_le_sum fun line _ => Nat.add_le_add_left (width_le_two ending) _
    _ ≤ ((Text.lines text).map fun line => Text.units line + 2).sum :=
        ((List.take_sublist k _).map _).sum_le_sum fun _ _ => Nat.zero_le _
    _ ≤ 2 * Text.byteLength text + 1 := (Text.holds_lines text).sum_units_le

theorem length_lines_le (text : List Char) : (Text.lines text).length ≤ Text.byteLength text := by
  have hsum := (Text.holds_lines text).sum_units_le
  have hlength : ∀ lines : List (List Char),
      2 * lines.length ≤ (lines.map fun line => Text.units line + 2).sum := by
    intro lines
    induction lines with
    | nil => exact Nat.le_refl 0
    | cons line lines ih =>
      rw [List.length_cons, List.map_cons, List.sum_cons]
      omega
  have htwice := hlength (Text.lines text)
  omega

theorem fitsBelow_lines (h : 2 * Text.byteLength text + 1 < limit) (endings : List LineEnding) :
    FitsBelow limit endings (Text.lines text) where
  count := by
    have hlength := length_lines_le text
    omega
  bytes line hline := by
    have hbytes := (Text.holds_lines text).byteLength_le hline
    omega
  starts ending _ k := (lineStart_lines_le text ending k).trans_lt h

def offsetsAfter (endings : List LineEnding) (lines : List (List Char)) : List Nat :=
  lines.foldl (advance endings) (endings.map fun _ => 0)

theorem offsetsAfter_take (endings : List LineEnding) (lines : List (List Char)) (k : Nat) :
    offsetsAfter endings (lines.take k) = starts endings lines k := by
  induction k with
  | zero => rfl
  | succ k ih =>
    rcases Nat.lt_or_ge k lines.length with hlt | hge
    · rw [List.take_succ_eq_append_getElem hlt, offsetsAfter, List.foldl_append, ← offsetsAfter, ih]
      exact advance_starts (List.getElem?_eq_getElem hlt)
    · simp only [starts, lineStart, List.take_of_length_le hge,
        List.take_of_length_le (Nat.le_succ_of_le hge)] at ih ⊢
      exact ih

/-- The offsets of a scan are bounded by the bytes of its text, and no sum is too great for a
word. -/
structure StaysInWords (endings : List LineEnding) (criterion : Criterion) (path : String)
    (hits : List Hit) (text : List Char) : Prop where
  start_le : ∀ k, ∀ start ∈ offsetsAfter endings ((Text.lines text).take k),
    start ≤ 2 * Text.byteLength text + 1
  /-- So is the end of every window that a hit is compared with. -/
  stop_le : ∀ k line, (Text.lines text)[k]? = some line →
    ∀ start ∈ offsetsAfter endings ((Text.lines text).take k),
      start + Text.units line ≤ 2 * Text.byteLength text + 1
  /-- No sum that the scan forms without a guard is greater. -/
  sum_le : ofTextBelow (2 * Text.byteLength text + 2) endings criterion path hits text =
    .ok (ofText endings criterion path hits text)
  inWords : ofTextBelow wordLimit endings criterion path hits text =
    .ok (ofText endings criterion path hits text)

/-- A text of less than 2⁶³ bytes is scanned without overflow, whatever the conventions, the hits
and the criterion are. -/
theorem staysInWords (endings : List LineEnding) (criterion : Criterion) (path : String)
    (hits : List Hit) (text : List Char) (h : Text.byteLength text < 2 ^ 63) :
    StaysInWords endings criterion path hits text where
  start_le k start hstart := by
    rw [offsetsAfter_take] at hstart
    obtain ⟨ending, -, rfl⟩ := List.mem_map.mp hstart
    exact lineStart_lines_le text ending k
  stop_le k line hline start hstart := by
    rw [offsetsAfter_take] at hstart
    obtain ⟨ending, -, rfl⟩ := List.mem_map.mp hstart
    have hnext := lineStart_lines_le text ending (k + 1)
    rw [lineStart_succ hline] at hnext
    omega
  sum_le := ofTextBelow_eq (fitsBelow_lines (Nat.lt_succ_self _) endings)
  inWords := by
    refine ofTextBelow_eq (fitsBelow_lines ?_ endings)
    rw [wordLimit]
    omega

/-- Two empty lines take two bytes and add four to the offset. The last line has no end, and so the
bound is reached. -/
theorem staysInWords_emptyLines :
    let text := ['\n', '\n', 'b']
    let hits : List Hit := [⟨"a.cs", 4, 1⟩]
    let criterion : Criterion := ⟨['b'], true, .definitions⟩
    Text.byteLength text < 2 ^ 63 ∧
      offsetsAfter LineEnding.default (Text.lines text) = [4, 2 * Text.byteLength text + 1] ∧
      ofTextBelow wordLimit LineEnding.default criterion "a.cs" hits text =
        .ok ⟨[Symbol.onLine "a.cs" 2 0 1 "b"], 3⟩ := by
  intro text hits criterion
  have hbytes : Text.byteLength text < 2 ^ 63 := by decide
  have hstays := staysInWords LineEnding.default criterion "a.cs" hits text hbytes
  have hplaced : ofText LineEnding.default criterion "a.cs" hits text =
      ⟨[Symbol.onLine "a.cs" 2 0 1 "b"], 3⟩ := by cbv
  exact ⟨hbytes, by decide, hplaced ▸ hstays.inWords⟩

end Placement

end CodeNav
