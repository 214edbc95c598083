import CodeNav.Symbol

/-! # Remote results beside local ones

Remote results supplement what the host knows from the files that it has loaded. A file with local
results takes none from the index, so an edited file is not shadowed by an older copy.
-/

namespace CodeNav

/-- Drops every element that equals the one before it. -/
def dropRepeats [DecidableEq α] : List α → List α
  | [] => []
  | a :: rest =>
    match dropRepeats rest with
    | [] => [a]
    | b :: kept => if a = b then b :: kept else a :: b :: kept

/-- The distinct remote symbols of files without local ones, in the order of their positions. -/
def supplement (workspace remote : List Symbol) : List Symbol :=
  dropRepeats <|
    (remote.filter fun symbol => workspace.all (·.path != symbol.path)).mergeSort
      fun a b => (Symbol.positionOrder a b).isLE

end CodeNav
