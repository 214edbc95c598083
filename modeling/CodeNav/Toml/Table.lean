import CodeNav.Toml.Basic

/-! # Tables under construction

A table is defined once: by a header, by dotted keys, or as a value. A table that exists only
because a header or a key leads through it is implicit; a header may still define it if no dotted
key made it. An array of tables grows by a header in double brackets.
-/

namespace CodeNav.Toml

inductive Origin where
  /-- By its header. -/
  | header
  /-- By the header of a table in it. -/
  | implicit
  /-- By a dotted key. -/
  | dotted
  deriving DecidableEq, Repr

/-- What a table under construction holds under a name. -/
inductive Node where
  | value (v : Toml)
  | table (origin : Origin) (members : List (String × Node))
  /-- An array of tables, the last one first. -/
  | tables (items : List (List (String × Node)))

/-- The members of a table under construction. -/
abbrev Members := List (String × Node)

namespace Members

def get? (members : Members) (name : String) : Option Node := List.lookup name members

/-- Puts a node under a name, at the place that the name has already or at the end. -/
def put (name : String) (node : Node) : Members → Members
  | [] => [(name, node)]
  | (other, held) :: rest =>
    if other = name then (name, node) :: rest else (other, held) :: put name node rest

def remove (name : String) (members : Members) : Members := members.filter (·.1 ≠ name)

/-- Changes the table that a path leads to. Tables that are missing are made, with the origin of the
path. A dotted path leads only through tables that no header defines. -/
def descend (origin : Origin) (change : Origin → Members → Option Members) :
    List String → Origin → Members → Option Members
  | [], here, members => change here members
  | name :: path, _, members => do
    match (members.get? name).getD (.table origin []) with
    | .value _ => none
    | .table held inner =>
      if origin = .dotted ∧ held = .header then none
      else return members.put name (.table held (← descend origin change path held inner))
    | .tables (last :: earlier) =>
      return members.put name (.tables ((← descend origin change path .header last) :: earlier))
    | .tables [] => none

/-- Sets a key with its parts before the last one. The table that they lead to has to be made of
dotted keys, unless there are none. -/
def assign (path : List String) (name : String) (value : Toml) (members : Members) :
    Option Members :=
  descend .dotted (fun here inner =>
    if (!path.isEmpty && here != .dotted) || (inner.get? name).isSome then none
    else some (inner.put name (.value value))) path .header members

end Members

mutual

def Node.toValue : Node → Toml
  | .value v => v
  | .table _ members => .table (membersToValues members)
  | .tables items => .array (tablesToValues items).reverse

def membersToValues : List (String × Node) → List (String × Toml)
  | [] => []
  | (name, node) :: members => (name, node.toValue) :: membersToValues members

def tablesToValues : List (List (String × Node)) → List Toml
  | [] => []
  | members :: items => .table (membersToValues members) :: tablesToValues items

end

/-- A document of which the last header is still open. -/
structure Draft where
  /-- All that stands under earlier headers. -/
  root : Members
  /-- The members under the last header. -/
  current : Members
  path : List String
  /-- Whether the last header adds to an array of tables. -/
  inArray : Bool

namespace Draft

def empty : Draft := ⟨[], [], [], false⟩

/-- Puts what stands under the last header into its place. -/
def close (draft : Draft) : Option Members :=
  match draft.path.getLast? with
  | none => some draft.current
  | some name =>
    Members.descend .implicit (fun _ parent =>
      if draft.inArray then
        match parent.get? name with
        | some (.tables items) => some (parent.put name (.tables (draft.current :: items)))
        | none => some (parent.put name (.tables [draft.current]))
        | some _ => none
      else some (parent.put name (.table .header draft.current)))
      draft.path.dropLast .header draft.root

def openTable (draft : Draft) (path : List String) : Option Draft := do
  let root ← draft.close
  let name ← path.getLast?
  let held ← lookUp path.dropLast root name
  match held with
  | none => return ⟨← Members.descend .implicit (fun _ m => some m) path.dropLast .header root, [],
      path, false⟩
  | some (.table .implicit members) =>
    return ⟨← Members.descend .implicit (fun _ m => some (m.remove name)) path.dropLast .header root,
      members, path, false⟩
  | some _ => none
where
  /-- What stands under a name in the table that a path leads to. -/
  lookUp : List String → Members → String → Option (Option Node)
    | [], members, name => some (members.get? name)
    | part :: path, members, name =>
      match members.get? part with
      | none => some none
      | some (.table _ inner) => lookUp path inner name
      | some (.tables (last :: _)) => lookUp path last name
      | some _ => none

/-- Opens a new table of an array by its header. -/
def openArray (draft : Draft) (path : List String) : Option Draft := do
  let root ← draft.close
  let name ← path.getLast?
  let root ← Members.descend .implicit (fun _ parent =>
    match parent.get? name with
    | none => some (parent.put name (.tables []))
    | some (.tables _) => some parent
    | some _ => none) path.dropLast .header root
  return ⟨root, [], path, true⟩

/-- Sets a key under the last header. -/
def assign (draft : Draft) (key : List String) (value : Toml) : Option Draft := do
  let name ← key.getLast?
  return { draft with current := ← Members.assign key.dropLast name value draft.current }

end Draft

end CodeNav.Toml
