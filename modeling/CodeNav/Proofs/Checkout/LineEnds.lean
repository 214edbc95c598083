import CodeNav.Proofs.Checkout.HitByHit
import CodeNav.Proofs.Checkout.Navigation
import CodeNav.Proofs.Text.Lines

/-! # How a checkout ends its lines

Offsets count what the index took for the end of a line, and never what ends it in the local file.
So files that hold the same lines are read alike, whatever ends each of them.
-/

namespace CodeNav

variable {text text' : List Char} {lines : List (List Char)}

theorem Placement.ofText_of_holds {endings : List LineEnding} {criterion : Criterion}
    {path : String} {hits : List Hit} (h : Text.Holds text lines)
    (hlines : ∀ line ∈ lines, Text.IsLine line) :
    ofText endings criterion path hits text = ofLines endings criterion path hits lines := by
  rw [ofText, Text.lines_of_holds h hlines]

namespace Checkout

variable {tree : FileTree} {path : String} {line column : Nat} {scanner : Scanner} {group : Group}

theorem wordAt_of_holds (h : Text.Holds text lines) (hlines : ∀ line ∈ lines, Text.IsLine line)
    (hread : tree.read path = .ok (Text.Utf8.encode text)) :
    wordAt tree path line column = .ok (lines[line]?.bind (identifierAt? · column)) := by
  rw [wordAt_of_strict? hread (Text.Utf8.strict?_encode text), identifierIn?,
    Text.lines_of_holds h hlines]
  rfl

theorem scanGroup_of_holds (h : Text.Holds text lines) (hlines : ∀ line ∈ lines, Text.IsLine line)
    (hlocal : localPath? scanner.root group.path = some path)
    (hread : tree.read path = .ok (Text.Utf8.encode text)) :
    scanner.scanGroup tree group = .ok (some
      (Placement.ofLines scanner.endings scanner.criterion path group.hits lines).symbols) := by
  have htext : Text.Utf8.lenient (Text.Utf8.encode text) = text :=
    Text.Utf8.lenient_of_strict? (Text.Utf8.strict?_encode text)
  simp only [Scanner.scanGroup, hlocal, isFile_of_read hread, hread, if_true, htext,
    Placement.ofText_of_holds h hlines]

/-- Hits are placed alike in two texts, and files with these texts answer alike: with the identifier
at a place, and with the symbols of a group. -/
structure ReadsAlike (text text' : List Char) : Prop where
  placement : ∀ endings criterion path hits,
    Placement.ofText endings criterion path hits text =
      Placement.ofText endings criterion path hits text'
  word : ∀ (tree tree' : FileTree) path, tree.read path = .ok (Text.Utf8.encode text) →
    tree'.read path = .ok (Text.Utf8.encode text') → ∀ line column, ∃ word?,
      wordAt tree path line column = .ok word? ∧ wordAt tree' path line column = .ok word?
  symbols : ∀ (tree tree' : FileTree) path, tree.read path = .ok (Text.Utf8.encode text) →
    tree'.read path = .ok (Text.Utf8.encode text') → ∀ (scanner : Scanner) (group : Group),
      localPath? scanner.root group.path = some path → ∃ symbols,
        scanner.scanGroup tree group = .ok (some symbols) ∧
        scanner.scanGroup tree' group = .ok (some symbols)

/-- Texts that hold the same lines are read alike, whatever ends each of the lines. -/
theorem readsAlike_of_holds (hlines : ∀ line ∈ lines, Text.IsLine line)
    (h : Text.Holds text lines) (h' : Text.Holds text' lines) : ReadsAlike text text' where
  placement _ _ _ _ :=
    (Placement.ofText_of_holds h hlines).trans (Placement.ofText_of_holds h' hlines).symm
  word _ _ _ hread hread' _ _ :=
    ⟨_, wordAt_of_holds h hlines hread, wordAt_of_holds h' hlines hread'⟩
  symbols _ _ _ hread hread' _ _ hlocal :=
    ⟨_, scanGroup_of_holds h hlines hlocal hread, scanGroup_of_holds h' hlines hlocal hread'⟩

def textCheckout (text : List Char) : FileTree :=
  ⟨[(["repo"], .directory), (["repo", "a.cs"], .file (Text.Utf8.encode text))], []⟩

theorem readsAlike_of_holds_mixedEnds :
    let lines : List (List Char) := [['W', 'i', 'd'], [], ['W', 'i', 'd']]
    let text : List Char := ['W', 'i', 'd', '\n', '\r', '\n', 'W', 'i', 'd']
    let text' : List Char := ['W', 'i', 'd', '\r', '\n', '\n', 'W', 'i', 'd', '\r', '\n']
    let scanner : Scanner := ⟨"/repo", LineEnding.default, smallQuery.criterion⟩
    (∀ line ∈ lines, Text.IsLine line) ∧ Text.Holds text lines ∧ Text.Holds text' lines ∧
      ∃ symbols,
        scanner.scanGroup (textCheckout text) ⟨"a.cs", [⟨"a.cs", 5, 3⟩]⟩ = .ok (some symbols) ∧
        scanner.scanGroup (textCheckout text') ⟨"a.cs", [⟨"a.cs", 5, 3⟩]⟩ = .ok (some symbols) := by
  intro lines text text' scanner
  have hlines : ∀ line ∈ lines, Text.IsLine line := by decide
  have h : Text.Holds (['W', 'i', 'd'] ++ (['\n'] ++ ([] ++ (['\r', '\n'] ++ ['W', 'i', 'd']))))
      lines := .cons (by decide) (.cons (by decide) (.unended (by decide)))
  have h' : Text.Holds (['W', 'i', 'd'] ++ (['\r', '\n'] ++ ([] ++ (['\n'] ++
      (['W', 'i', 'd'] ++ (['\r', '\n'] ++ [])))))) lines :=
    .cons (by decide) (.cons (by decide) (.cons (by decide) .nil))
  have hread : (textCheckout text).read "/repo/a.cs" = .ok (Text.Utf8.encode text) := by
    decide +kernel
  have hread' : (textCheckout text').read "/repo/a.cs" = .ok (Text.Utf8.encode text') := by
    decide +kernel
  exact ⟨hlines, h, h', (readsAlike_of_holds hlines h h').symbols _ _ _ hread hread' scanner _
    localPath?_plain⟩

end Checkout

end CodeNav
