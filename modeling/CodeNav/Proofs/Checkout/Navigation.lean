import CodeNav.Checkout.Word
import CodeNav.Proofs.Checkout.Soundness
import CodeNav.Proofs.Identifier
import CodeNav.Proofs.Text.Utf8

/-! # From a symbol back to its name

A scan reads every file, with replacement characters where the bytes are no UTF-8. The identifier
at a place is looked up in well-formed files only. On these the two agree: the name of a symbol that
stands apart is the identifier where the symbol starts.
-/

namespace CodeNav

variable {tree : FileTree} {path : String} {bytes : List UInt8} {text : List Char}

namespace Checkout

/-- There is no letter directly before a symbol, and no letter or digit directly after it. -/
def StandsApart (text : List Char) (symbol : Symbol) : Prop :=
  ∃ line before inside after, (Text.lines text)[symbol.startLine]? = some line ∧
    line = before ++ inside ++ after ∧ Text.units before = symbol.startColumn ∧
    Text.units (before ++ inside) = symbol.endColumn ∧
    before.getLast?.any Text.isLetter = false ∧ after.head?.any Text.isLetterOrDigit = false

theorem wordAt_of_strict? {line column : Nat} (hread : tree.read path = .ok bytes)
    (htext : Text.Utf8.strict? bytes = some text) :
    wordAt tree path line column = .ok (identifierIn? text line column) := by
  simp only [wordAt, readText, hread, bind, Except.bind, htext]
  rfl

theorem wordAt_of_malformed {line column : Nat} (hread : tree.read path = .ok bytes)
    (hmalformed : Text.Utf8.strict? bytes = none) :
    wordAt tree path line column = .error ⟨path, .notText⟩ := by
  simp only [wordAt, readText, hread, bind, Except.bind, hmalformed]
  rfl

/-- The name of a symbol is the identifier where the symbol starts, if it stands apart. -/
theorem identifierIn?_of_standsApart {query : Query} {line before inside after : List Char}
    {symbol : Symbol} (hexact : query.exact = true) (hword : Text.IsWord query.filter.toList)
    (hline : (Text.lines text)[symbol.startLine]? = some line)
    (hcomment : ¬ Text.commentMarker <+: Text.trim line)
    (hmarks : Marks query line before inside after symbol) (hapart : StandsApart text symbol) :
    identifierIn? text symbol.startLine symbol.startColumn = some query.filter.toList := by
  obtain ⟨other, before', inside', after', hother, heq, hstart, hend, hbefore, hafter⟩ := hapart
  obtain rfl : line = other := Option.some.inj (hline.symm.trans hother)
  -- Columns cut a line in one way only.
  obtain ⟨hfront, rfl⟩ := Text.append_eq_of_units_eq (hmarks.line_eq.symm.trans heq)
    (hmarks.endColumn_eq.symm.trans hend.symm)
  obtain ⟨rfl, rfl⟩ := Text.append_eq_of_units_eq hfront
    (hmarks.startColumn_eq.symm.trans hstart.symm)
  have hnocomment : isLineComment line = false := by
    rw [← Bool.not_eq_true, isLineComment_iff]
    exact hcomment
  rw [← hmarks.inside_eq hexact] at hword ⊢
  simp only [identifierIn?, hline, hmarks.startColumn_eq, Option.bind_eq_bind, Option.bind_some]
  exact identifierAt?_of_apart hmarks.line_eq hnocomment hword hbefore hafter

theorem Scanner.exists_marks_of_mem {root : String} {endings : List LineEnding} {query : Query}
    {group : Group} {symbols : List Symbol} {symbol : Symbol}
    (hscan : scanGroup ⟨root, endings, query.criterion⟩ tree group = .ok (some symbols))
    (hmem : symbol ∈ symbols) :
    ∃ bytes line before inside after, tree.read symbol.path = .ok bytes ∧
      (Text.lines (Text.Utf8.lenient bytes))[symbol.startLine]? = some line ∧
      ¬ Text.commentMarker <+: Text.trim line ∧ Marks query line before inside after symbol := by
  obtain ⟨path, bytes, -, hread, rfl⟩ := scanGroup_eq_ok_some hscan
  obtain ⟨hit, -, hplace⟩ := Placement.exists_isPlaceOf_of_mem hmem
  obtain ⟨rfl, -, line, before, inside, after, hline, hcomment, hmarks⟩ :=
    exists_marks_of_isPlaceOf hplace
  exact ⟨bytes, line, before, inside, after, hread, hline, hcomment, hmarks⟩

/-- For every symbol that an exact scan for a word finds standing apart, the identifier at its start
is that word, exactly if the file is well-formed UTF-8. Otherwise the file is refused. -/
theorem wordAt_symbol_iff (tree : FileTree) (root : String) (endings : List LineEnding)
    (query : Query) (group : Group) (symbols : List Symbol) (symbol : Symbol)
    (exact : query.exact = true) (word : Text.IsWord query.filter.toList)
    (scanned : Scanner.scanGroup ⟨root, endings, query.criterion⟩ tree group = .ok (some symbols))
    (found : symbol ∈ symbols) :
    ∃ bytes, tree.read symbol.path = .ok bytes ∧
      (StandsApart (Text.Utf8.lenient bytes) symbol →
        (wordAt tree symbol.path symbol.startLine symbol.startColumn =
            .ok (some query.filter.toList) ↔ (Text.Utf8.strict? bytes).isSome)) ∧
      (Text.Utf8.strict? bytes = none →
        wordAt tree symbol.path symbol.startLine symbol.startColumn =
          .error ⟨symbol.path, .notText⟩) := by
  obtain ⟨bytes, line, before, inside, after, hread, hline, hcomment, hmarks⟩ :=
    Scanner.exists_marks_of_mem scanned found
  refine ⟨bytes, hread, fun hapart => ?_, wordAt_of_malformed hread⟩
  cases htext : Text.Utf8.strict? bytes with
  | none =>
    rw [wordAt_of_malformed hread htext]
    simp
  | some text =>
    rw [Text.Utf8.lenient_of_strict? htext] at hline hapart
    rw [wordAt_of_strict? hread htext,
      identifierIn?_of_standsApart exact word hline hcomment hmarks hapart]
    simp

def accentCheckout : FileTree :=
  ⟨[(["repo"], .directory),
    (["repo", "a.cs"], .file [0xC3, 0xA9, 32, 87, 105, 100, 59, 10])], []⟩

def accentSymbol : Symbol := ⟨"/repo/a.cs", 0, 0, 2, 5, "Wid"⟩

theorem read_accentCheckout :
    accentCheckout.read "/repo/a.cs" = .ok [0xC3, 0xA9, 32, 87, 105, 100, 59, 10] := by
  decide +kernel

theorem scanGroup_accentCheckout :
    Scanner.scanGroup ⟨"/repo", LineEnding.default, smallQuery.criterion⟩ accentCheckout
      ⟨"a.cs", [⟨"a.cs", 2, 3⟩]⟩ = .ok (some [accentSymbol]) := by
  have hfile : accentCheckout.isFile "/repo/a.cs" = true := by decide +kernel
  have hsymbols : (Placement.ofText LineEnding.default smallQuery.criterion "/repo/a.cs"
      [⟨"a.cs", 2, 3⟩] (Text.Utf8.lenient [0xC3, 0xA9, 32, 87, 105, 100, 59, 10])).symbols =
        [accentSymbol] := by
    cbv
  simp only [Scanner.scanGroup, localPath?_plain, hfile, read_accentCheckout, hsymbols, if_true]

theorem standsApart_accentSymbol :
    StandsApart (Text.Utf8.lenient [0xC3, 0xA9, 32, 87, 105, 100, 59, 10]) accentSymbol :=
  ⟨"é Wid;".toList, "é ".toList, "Wid".toList, ";".toList, by decide, by decide, by decide,
    by decide, by decide, by decide⟩

theorem isWord_smallQuery : Text.IsWord smallQuery.filter.toList := by
  have hfilter : smallQuery.filter.toList = ['W', 'i', 'd'] := by decide
  rw [hfilter]
  have hrest : ∀ c ∈ ['i', 'd'], c.isAlpha := List.all_eq_true.mp (by decide)
  refine ⟨by decide, fun c hc => ?_⟩
  exact Text.isLetterOrDigit_of_isLetter (Text.isLetter_of_isAlpha (hrest c hc))

theorem wordAt_accentSymbol :
    smallQuery.exact = true ∧ Text.IsWord smallQuery.filter.toList ∧
      Scanner.scanGroup ⟨"/repo", LineEnding.default, smallQuery.criterion⟩ accentCheckout
        ⟨"a.cs", [⟨"a.cs", 2, 3⟩]⟩ = .ok (some [accentSymbol]) ∧
      accentSymbol ∈ [accentSymbol] ∧
      wordAt accentCheckout "/repo/a.cs" 0 2 = .ok (some smallQuery.filter.toList) := by
  have hmem : accentSymbol ∈ [accentSymbol] := List.mem_cons_self
  obtain ⟨bytes, hread, hiff, -⟩ := wordAt_symbol_iff accentCheckout "/repo" LineEnding.default
    smallQuery ⟨"a.cs", [⟨"a.cs", 2, 3⟩]⟩ [accentSymbol] accentSymbol rfl isWord_smallQuery
    scanGroup_accentCheckout hmem
  obtain rfl := Except.ok.inj (read_accentCheckout.symm.trans hread)
  have hstrict : (Text.Utf8.strict? [0xC3, 0xA9, 32, 87, 105, 100, 59, 10]).isSome := by decide
  exact ⟨rfl, isWord_smallQuery, scanGroup_accentCheckout, hmem,
    (hiff standsApart_accentSymbol).mpr hstrict⟩

/-- The word in the file with a byte that is no UTF-8 is found, but not looked up. -/
theorem not_wordAt_smallSymbol :
    ¬ ∀ (tree : FileTree) (root : String) (endings : List LineEnding) (query : Query)
        (group : Group) (symbols : List Symbol) (symbol : Symbol) (bytes : List UInt8),
      query.exact = true → query.kind = .definitions → Text.IsWord query.filter.toList →
      Scanner.scanGroup ⟨root, endings, query.criterion⟩ tree group = .ok (some symbols) →
      symbol ∈ symbols → tree.read symbol.path = .ok bytes →
      StandsApart (Text.Utf8.lenient bytes) symbol →
      wordAt tree symbol.path symbol.startLine symbol.startColumn =
        .ok (some query.filter.toList) := by
  intro h
  have hscan : Scanner.scanGroup ⟨"/repo", LineEnding.default, smallQuery.criterion⟩ smallCheckout
      ⟨"a.cs", [⟨"a.cs", 2, 3⟩]⟩ = .ok (some [smallSymbol]) := by
    have hfile : smallCheckout.isFile "/repo/a.cs" = true := by decide +kernel
    have hplain := symbols_smallHit (List.mem_cons_of_mem _ List.mem_cons_self)
    simp only [Scanner.scanGroup, localPath?_plain, hfile, read_smallCheckout, hplain, if_true]
  have hapart : StandsApart (Text.Utf8.lenient [0xE9, 13, 10, 87, 105, 100, 10]) smallSymbol :=
    ⟨"Wid".toList, [], "Wid".toList, [], by decide, by decide, by decide, by decide, by decide,
      by decide⟩
  have hword := h smallCheckout "/repo" LineEnding.default smallQuery _ _ smallSymbol _ rfl rfl
    isWord_smallQuery hscan List.mem_cons_self read_smallCheckout hapart
  have hrefused : wordAt smallCheckout "/repo/a.cs" 1 0 = .error ⟨"/repo/a.cs", .notText⟩ :=
    wordAt_of_malformed read_smallCheckout (by decide)
  cases hrefused.symm.trans hword

end Checkout

end CodeNav
