import Helmsman.Settings.Value
/-!
# Tables under construction

While a file is read its tables are still open, and it matters how each one came to be. A header opens a table once.
A table that was only passed through on the way to another one may still be opened. Keys with dots make tables of their
own, which no header opens and which no other keys but theirs add to.
-/

namespace Helmsman.Toml

inductive Origin
  | opened
  | passed
  | dotted
  deriving Repr, DecidableEq

inductive Node
  | leaf (value : Setting)
  | table (origin : Origin) (entries : List (String × Node))
  /-- The tables of an array, the last of which is the one that is still open. -/
  | tables (items : List (List (String × Node)))
  deriving Inhabited

abbrev Nodes := List (String × Node)

namespace Nodes

def put (key : String) (node : Node) (nodes : Nodes) : Nodes :=
  if nodes.any fun n => n.1 == key then nodes.map fun n => if n.1 == key then (key, node) else n
  else nodes ++ [(key, node)]

/-- Changes the table at the end of a path. Tables that are missing on the way are made. Along the dots of a key the way
does not lead through tables that a header has opened. -/
def descend (dotted : Bool) (change : Origin → Nodes → Option Nodes) (origin : Origin) :
    List String → Nodes → Option Nodes
  | [], nodes => change origin nodes
  | key :: rest, nodes =>
    match nodes.lookup key with
    | none =>
      let made : Origin := if dotted then .dotted else .passed
      (descend dotted change made rest []).map fun inner => put key (.table made inner) nodes
    | some (.leaf _) => none
    | some (.tables items) =>
      (descend dotted change .opened rest (items.getLast?.getD [])).map fun inner =>
        put key (.tables (items.dropLast ++ [inner])) nodes
    | some (.table inside entries) =>
      if dotted && inside == .opened then none
      else (descend dotted change inside rest entries).map fun inner => put key (.table inside inner) nodes

/-- Adds a value under a key with dots. A table belongs to keys with dots or to keys without, never to both. -/
def addAt (path : List String) (key : String) (value : Setting) (origin : Origin) (nodes : Nodes) : Option Nodes :=
  descend true (fun inside entries =>
    if (inside == .dotted) == path.isEmpty then none
    else if entries.any fun n => n.1 == key then none
    else some (entries ++ [(key, .leaf value)])) origin path nodes

/-- Adds a value to the table that a header has opened. -/
def add (header path : List String) (key : String) (value : Setting) (root : Nodes) : Option Nodes :=
  descend false (addAt path key value) .opened header root

def openTable (path : List String) (key : String) (root : Nodes) : Option Nodes :=
  descend false (fun _ entries =>
    match entries.lookup key with
    | none => some (put key (.table .opened []) entries)
    | some (.table .passed inner) => some (put key (.table .opened inner) entries)
    | some _ => none) .opened path root

def openItem (path : List String) (key : String) (root : Nodes) : Option Nodes :=
  descend false (fun _ entries =>
    match entries.lookup key with
    | none => some (put key (.tables [[]]) entries)
    | some (.tables items) => some (put key (.tables (items ++ [[]])) entries)
    | some _ => none) .opened path root

end Nodes

mutual

/-- What is left once it no longer matters how a table came to be. -/
def Node.toSetting : Node → Setting
  | .leaf value => value
  | .table _ entries => .table (Nodes.toEntries entries)
  | .tables items => .list (Nodes.toItems items)

def Nodes.toEntries : List (String × Node) → List (String × Setting)
  | [] => []
  | (key, node) :: rest => (key, node.toSetting) :: Nodes.toEntries rest

def Nodes.toItems : List (List (String × Node)) → List Setting
  | [] => []
  | entries :: rest => .table (Nodes.toEntries entries) :: Nodes.toItems rest

end

end Helmsman.Toml
