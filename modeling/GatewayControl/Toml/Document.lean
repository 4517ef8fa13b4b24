/-!
# `GatewayControl.Toml.Document` -- values, and how statements build a document

A TOML document is a list of statements: key-value pairs, and headers that name the table to which
the following pairs belong. A table may be defined once. Tables that only stand on the way of a
longer header may still be defined by their own, and tables that dotted keys build may only be
extended by dotted keys of the same section.
-/

namespace GatewayControl.Toml

/-- A TOML value. -/
inductive Value where
  | string (text : String)
  | integer (i : Int)
  /-- A floating-point number as it is spelled. -/
  | float (literal : String)
  | boolean (b : Bool)
  /-- A date, a time or both, in canonical spelling. -/
  | dateTime (text : String)
  | array (items : List Value)
  | table (members : List (String × Value))
deriving Repr, Inhabited

/-- How a table came about. -/
inductive Origin where
  /-- A header names it. -/
  | header
  /-- It stands on the way of a longer header. -/
  | implied
  /-- It stands on the way of a dotted key. -/
  | dotted
deriving DecidableEq, Repr

/-- A part of a document under construction. -/
inductive Node where
  | leaf (value : Value)
  | table (origin : Origin) (members : List (String × Node))
  /-- Tables of one name in an array, the last of them apart. -/
  | tables (closed : List Value) (last : List (String × Node))
deriving Inhabited

/-- The members of a table under construction. -/
abbrev Nodes := List (String × Node)

mutual

/-- The value of a finished part. -/
def Node.value : Node → Value
  | .leaf v => v
  | .table _ members => .table (valuesOf members)
  | .tables closed last => .array (closed ++ [.table (valuesOf last)])

/-- The members of a finished table. -/
def valuesOf : List (String × Node) → List (String × Value)
  | [] => []
  | (key, node) :: rest => (key, node.value) :: valuesOf rest

end

namespace Nodes

/-- Sets a member: in its place if there is one, else at the end. -/
def put (key : String) (node : Node) : Nodes → Nodes
  | [] => [(key, node)]
  | (k, n) :: rest => if k = key then (k, node) :: rest else (k, n) :: put key node rest

/-- Changes the table at the end of a path; tables that are missing on the way are built. A dotted
path does not lead into a table that has a header. -/
def edit (dotted : Bool) (change : Origin → Nodes → Option Nodes) :
    Origin → List String → Nodes → Option Nodes
  | origin, [], nodes => change origin nodes
  | _, key :: path, nodes =>
    match nodes.lookup key with
    | none => do
      let origin := if dotted then Origin.dotted else Origin.implied
      return put key (.table origin (← edit dotted change origin path [])) nodes
    | some (.leaf _) => none
    | some (.tables closed last) => do
      return put key (.tables closed (← edit dotted change .header path last)) nodes
    | some (.table origin members) =>
      if dotted && origin == .header then none
      else do return put key (.table origin (← edit dotted change origin path members)) nodes

/-- Adds a pair under a dotted key, `path` being the key without its last part. -/
def addPair (path : List String) (key : String) (value : Value) (nodes : Nodes) : Option Nodes :=
  let change := fun origin (members : Nodes) =>
    -- tables that dotted keys build are extended by dotted keys, and those extend no others
    if (origin == Origin.dotted) == path.isEmpty then none
    else if (members.lookup key).isSome then none
    else some (members ++ [(key, .leaf value)])
  edit true change .header path nodes

end Nodes

/-- A key-value pair: the key without its last part, its last part, and the value. -/
structure Pair where
  path : List String
  key : String
  value : Value

/-- Builds a table of pairs, starting from the members it has. -/
def Nodes.addPairs (nodes : Nodes) (pairs : List Pair) : Option Nodes :=
  pairs.foldlM (fun nodes p => nodes.addPair p.path p.key p.value) nodes

/-- A header with the pairs that follow it. -/
structure Section where
  /-- The header adds a table to an array. -/
  isArray : Bool
  path : List String
  key : String
  pairs : List Pair

/-- Adds the table of a section. -/
def Nodes.addSection (nodes : Nodes) (s : Section) : Option Nodes :=
  let change := fun _ (members : Nodes) =>
    if s.isArray then do
      let table ← Nodes.addPairs [] s.pairs
      match members.lookup s.key with
      | none => return members.put s.key (.tables [] table)
      | some (.tables closed last) =>
        return members.put s.key (.tables (closed ++ [.table (valuesOf last)]) table)
      | some _ => none
    else
      match members.lookup s.key with
      | none => do return members.put s.key (.table .header (← Nodes.addPairs [] s.pairs))
      -- a table that stood on the way of an earlier header gets its own
      | some (.table .implied started) => do
        return members.put s.key (.table .header (← Nodes.addPairs started s.pairs))
      | some _ => none
  Nodes.edit false change .header s.path nodes

/-- The members of a document: pairs before the first header, then sections. -/
def assemble (pairs : List Pair) (sections : List Section) : Option (List (String × Value)) := do
  let root ← Nodes.addPairs [] pairs
  let root ← sections.foldlM Nodes.addSection root
  return valuesOf root

end GatewayControl.Toml
