/-
Records: the full state of a remote entity and what has changed since the last synchronisation.

The attributes are the current state. The tracker's replay over the state of the last synchronisation gives the
attributes again, empty parts aside.

- `Record.ofSnapshot`, `ofDefaults`: a state that the other side has sent, a new record.
- `set`, `edit`: tracked writes. `setUntracked`: a write that the other side knows already.
- `fullDocument`: the attributes without empty parts, for creating and replacing.
- `partialDocument`: the pending changes as a nested tree, clearings included, for updating.
- `synchronized`: the answer's keys over the attributes, nothing pending.
-/
import ContactSync.Json.Shape
import ContactSync.Record.Cursor
import ContactSync.Tree.Content

namespace ContactSync

/-- attributes and pending changes -/
structure Record where
  attributes : Tree
  tracker : Tracker
  deriving Repr, Inhabited

/-- a tracked write of one name -/
inductive Write where
  | set (name : String) (value : Json)
  | extend (name : String) (items : List Json)

/-- a tracked write below the root: where to, and what -/
structure Edit where
  hops : List Hop
  write : Write

/-- a write where a cursor stands -/
def Cursor.apply (c : Cursor) : Write → Except Fault Cursor
  | .set name value => c.set name value
  | .extend name items => c.extend name items

/-- a write at the end of a row of hops; the cursor comes back to where it was -/
def Cursor.edit (c : Cursor) (e : Edit) : Except Fault Cursor := do
  let inner ← c.walk e.hops
  return c.resume (← inner.apply e.write)

namespace Record

def empty : Record := ⟨[], .empty⟩

/-- a state that the other side has sent -/
def ofSnapshot (attributes : Tree) : Record := ⟨attributes, .empty⟩

/-- a new record: defaults, with whole top-level keys replaced -/
def ofDefaults (defaults overrides : Tree) : Record :=
  ofSnapshot (defaults.override overrides)

/-- the identifier that the other side has given -/
def id? (r : Record) : Option String :=
  (Tree.get? "id" r.attributes).bind Json.string?

/-- the identifier, which a record of this kind needs here -/
def requireId (r : Record) (kind : String) : Except Fault String :=
  match r.id? with
  | some id => .ok id
  | none => .error (.missingIdentity kind)

def isDirty (r : Record) : Bool := !r.tracker.isEmpty

/-- the attributes for reading -/
def view (r : Record) : TreeView := .ofTree r.attributes

/-- the attributes for writing -/
def cursor (r : Record) : Cursor := ⟨r.attributes, some r.tracker, Path.root⟩

def ofCursor (c : Cursor) : Record := ⟨c.root, c.tracker.getD .empty⟩

def get (r : Record) (name : String) : Except Fault Property := r.view.get name

/-- writes a top-level name -/
def set (r : Record) (name : String) (value : Json) : Except Fault Record :=
  (r.cursor.set name value).map ofCursor

/-- a tracked write; a failing one leaves the record to its holder as it was -/
def edit (r : Record) (e : Edit) : Except Fault Record :=
  (r.cursor.edit e).map ofCursor

/-- tracked writes one after another, those that fail skipped -/
def editAll (r : Record) (edits : List Edit) : Record :=
  edits.foldl (fun r e => match r.edit e with | .ok r' => r' | .error _ => r) r

/-- writes what the other side knows already; pending changes that cover the place are brought up to date -/
def setUntracked (r : Record) (path : String) (value : Json) : Record :=
  ⟨Tree.setDotted path value r.attributes, r.tracker.refresh path value⟩

/-- the document for creating and replacing -/
def fullDocument (r : Record) : Tree := r.attributes.stripped

/-- the document for updating -/
def partialDocument (r : Record) : Tree := r.tracker.resolve

/-- takes the present state as known to the other side, with the keys of its answer -/
def synchronized (r : Record) (answer : Option Tree) : Record :=
  ⟨r.attributes.override (answer.getD []), .empty⟩

/-- equality of attributes and of pending changes, as values -/
def same (a b : Record) : Bool :=
  a.attributes.same b.attributes && a.tracker.entries.same b.tracker.entries

def toJson (r : Record) : Json :=
  .object [("attributes", .object r.attributes), ("mutationTracker", r.tracker.toJson)]

/-- the record that a structure holds; without pending changes there are none -/
def ofJson? (j : Json) : Option Record :=
  match Shape.fields? ["attributes", "mutationTracker"] j with
  | some [some (.object attributes), none] => some ⟨attributes, .empty⟩
  | some [some (.object attributes), some tracker] => (Tracker.ofJson? tracker).map (Record.mk attributes)
  | _ => none

end Record

end ContactSync
