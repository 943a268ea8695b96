/-
Reading a record.

A view is an object inside a record together with the path that leads to it. Reading a name gives a property: a scalar
or null as it is, a nested object or a list with its own path. A name that is not there is a fault; a name that holds
null is not.

- `TreeView.get`, `child`, `list`: one name of a view.
- `ListView.get?`, `properties`: the elements of a list, each with its position in its path.
- `TreeView.walk`: a row of hops, each to a nested object or to an object inside a list.
-/
import ContactSync.Fault
import ContactSync.Json.Printer
import ContactSync.Record.Path

namespace ContactSync

/-- a nested object and where it is -/
structure TreeView where
  tree : Tree
  path : Path

/-- a list and where it is -/
structure ListView where
  items : List Json
  path : Path

/-- what a name or a list position holds -/
inductive Property where
  | value (json : Json)
  | tree (view : TreeView)
  | list (view : ListView)

/-- one move from an object to an object below it -/
inductive Hop where
  | child (name : String)
  | item (name : String) (index : Nat)
  deriving DecidableEq, Repr

/-- a value as a property at its place -/
def Property.ofJson (path : Path) : Json → Property
  | .object members => .tree ⟨members, path⟩
  | .list items => .list ⟨items, path⟩
  | j => .value j

namespace ListView

def get? (l : ListView) (index : Nat) : Option Property :=
  l.items[index]?.map (Property.ofJson (l.path.index index))

/-- every element in order -/
def properties (l : ListView) : List Property :=
  l.items.mapIdx fun index j => Property.ofJson (l.path.index index) j

/-- the elements in writing, with a blank after every comma -/
def display (l : ListView) : String :=
  "[" ++ String.intercalate ", " (l.items.map Json.text) ++ "]"

def same (l : ListView) (items : List Json) : Bool :=
  Json.sameItems l.items items

end ListView

namespace TreeView

/-- a whole document, seen from its root -/
def ofTree (tree : Tree) : TreeView := ⟨tree, Path.root⟩

/-- the fault of a name that is not there -/
def missing (path : Path) (name : String) : Fault :=
  .attributeNotFound name path.display

def get (v : TreeView) (name : String) : Except Fault Property :=
  match Tree.get? name v.tree with
  | some j => .ok (Property.ofJson (v.path.key name) j)
  | none => .error (missing v.path name)

/-- the nested object under a name -/
def child (v : TreeView) (name : String) : Except Fault TreeView := do
  match ← v.get name with
  | .tree view => .ok view
  | _ => .error (.notATree (v.path.key name).display)

/-- the list under a name -/
def list (v : TreeView) (name : String) : Except Fault ListView := do
  match ← v.get name with
  | .list view => .ok view
  | _ => .error (.notAList (v.path.key name).display)

def contains (v : TreeView) (name : String) : Bool :=
  Tree.contains name v.tree

def display (v : TreeView) : String := v.tree.text

/-- one hop. A list position that holds no object, or that there is not, leads nowhere, without a fault -/
def hop (v : TreeView) : Hop → Except Fault (Option TreeView)
  | .child name => (v.child name).map some
  | .item name index => do
    match (← v.list name).get? index with
    | some (.tree view) => return some view
    | _ => return none

/-- a row of hops, as long as they lead somewhere -/
def walk (v : TreeView) : List Hop → Except Fault (Option TreeView)
  | [] => .ok (some v)
  | h :: rest =>
    match v.hop h with
    | .ok (some w) => walk w rest
    | .ok none => .ok none
    | .error e => .error e

end TreeView

namespace Property

def isNull : Property → Bool
  | .value .null => true
  | _ => false

/-- the scalar of a property that is one -/
def scalar? : Property → Option Json
  | .value j => some j
  | _ => none

def toJson : Property → Json
  | .value j => j
  | .tree view => .object view.tree
  | .list view => .list view.items

def display : Property → String
  | .value j => j.text
  | .tree view => view.display
  | .list view => view.display

/-- the path of a property that has one -/
def path? : Property → Option Path
  | .value _ => none
  | .tree view => some view.path
  | .list view => some view.path

def same (p : Property) (j : Json) : Bool :=
  p.toJson.same j

end Property

end ContactSync
