/-
Writing a record.

A cursor is a whole document, the tracker that its changes go to, and the path of the object that it stands at. Writes
change the document and the tracker and leave the path alone, so an outer cursor goes on where an inner one has written.
A document without a tracker is written the same way and reports nothing.

A write below a list element is reported as the whole list, at the outermost list on the way. An object written over an
object is reported as the difference of the two. Anything else is reported as the value at its path.

- `child`, `item`: the moves, to a nested object and to an object inside a list.
- `get`, `contains`, `view`: what is there.
- `set`, `extend`: the writes.
-/
import ContactSync.Changes.Difference
import ContactSync.Record.Location
import ContactSync.Record.View

namespace ContactSync

/-- a document under edit -/
structure Cursor where
  root : Tree
  tracker : Option Tracker
  path : Path

namespace Cursor

/-- a document without a tracker, at its root -/
def detached (tree : Tree) : Cursor := ⟨tree, none, Path.root⟩

/-- the object that the cursor stands at -/
def node (c : Cursor) : Except Fault Tree :=
  match Tree.nodeAt? c.path c.root with
  | some tree => .ok tree
  | none => .error (TreeView.missing c.path "")

def view (c : Cursor) : Except Fault TreeView :=
  c.node.map fun tree => ⟨tree, c.path⟩

def get (c : Cursor) (name : String) : Except Fault Property := do
  match Tree.get? name (← c.node) with
  | some j => .ok (Property.ofJson (c.path.key name) j)
  | none => .error (TreeView.missing c.path name)

def contains (c : Cursor) (name : String) : Bool :=
  match c.node with
  | .ok tree => Tree.contains name tree
  | .error _ => false

/-- to the nested object under a name -/
def child (c : Cursor) (name : String) : Except Fault Cursor := do
  match Tree.get? name (← c.node) with
  | some (.object _) => .ok { c with path := c.path.key name }
  | some _ => .error (.notATree (c.path.key name).display)
  | none => .error (TreeView.missing c.path name)

/-- to the object at a position of the list under a name -/
def item (c : Cursor) (name : String) (index : Nat) : Except Fault Cursor := do
  let place := c.path.key name
  match Tree.get? name (← c.node) with
  | some (.list items) =>
    match items[index]? with
    | some (.object _) => .ok { c with path := place.index index }
    | some _ => .error (.notATree (place.index index).display)
    | none => .error (.indexOutOfBounds place.display index items.length)
  | some _ => .error (.notAList place.display)
  | none => .error (TreeView.missing c.path name)

def hop (c : Cursor) : Hop → Except Fault Cursor
  | .child name => c.child name
  | .item name index => c.item name index

def walk (c : Cursor) (hops : List Hop) : Except Fault Cursor :=
  hops.foldlM hop c

/-- the changes that a write reports, given the document after it and the value before it -/
def reported (root : Tree) (written : Path) (old : Option Json) (new : Json) (t : Tracker) : Tracker :=
  match written.anchor? with
  | some anchor =>
    match Tree.atPath? anchor root with
    | some items => t.record anchor.dotted items
    | none => t
  | none =>
    match old, new with
    | some (.object before), .object after => t.merge written.dotted (Tracker.difference before after)
    | _, _ => t.record written.dotted new

def set (c : Cursor) (name : String) (value : Json) : Except Fault Cursor := do
  let old := Tree.get? name (← c.node)
  match Tree.insertAt? c.path name value c.root with
  | some root => .ok { c with root, tracker := c.tracker.map (reported root (c.path.key name) old value) }
  | none => .error (TreeView.missing c.path "")

/-- writes a list with more elements at its end -/
def extend (c : Cursor) (name : String) (items : List Json) : Except Fault Cursor := do
  match ← c.get name with
  | .list present => c.set name (.list (present.items ++ items))
  | _ => .error (.notAList (c.path.key name).display)

/-- a cursor that stands where this one does, on the document as another cursor has left it -/
def resume (c inner : Cursor) : Cursor := { inner with path := c.path }

end Cursor

end ContactSync
