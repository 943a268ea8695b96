/-
The tracker: what has changed since the last synchronisation, as a short list of dotted paths and values.

A tracker stands for its replay, the writes of its entries one after another. Recording keeps it short: entries below
the recorded path are dropped, a write below an entry that holds an object goes into that object, and a path that is
tracked already keeps its place. An entry that holds null or an empty list is an explicit clearing.

- `record`: a change of the value at a path.
- `refresh`: a change that the other side knows already; it only rewrites what would otherwise be sent stale.
- `merge`: the entries of another tracker, moved below a path.
- `replay`, `resolve`: the entries written over a tree, and over the empty one.
-/
import ContactSync.Dotted.Access

namespace ContactSync

/-- pending changes in the order they were first recorded -/
structure Tracker where
  entries : Tree
  deriving Repr, Inhabited

namespace Tracker

def empty : Tracker := ⟨[]⟩

def isEmpty (t : Tracker) : Bool := t.entries.isEmpty

def size (t : Tracker) : Nat := t.entries.length

/-- the value tracked at exactly this path -/
def get? (t : Tracker) (path : String) : Option Json :=
  Tree.get? path t.entries

/-- the entries that are not below a path -/
def outside (path : String) (entries : Tree) : Tree :=
  entries.filter fun e => !Dotted.isBelow path e.1

/-- the first entry that lies above a path, with the rest of the path below it -/
def ancestor? (path : String) (entries : Tree) : Option (String × Json × String) :=
  entries.findSome? fun e => (Dotted.below? e.1 path).map fun rest => (e.1, e.2, rest)

/-- records a change of the value at a path -/
def record (t : Tracker) (path : String) (value : Json) : Tracker :=
  let kept := outside path t.entries
  match ancestor? path kept with
  | some (above, .object inner, rest) => ⟨Tree.insert above (.object (Tree.setDotted rest value inner)) kept⟩
  | _ => ⟨Tree.insert path value kept⟩

/-- whether an entry says something about a path: it is at it, below it, or holds an object above it -/
def covers (path : String) (e : String × Json) : Bool :=
  e.1 == path || Dotted.isBelow path e.1 || (e.2.isObject && Dotted.isBelow e.1 path)

/-- records a change that the other side knows already, when some entry covers it -/
def refresh (t : Tracker) (path : String) (value : Json) : Tracker :=
  if t.entries.any (covers path) then t.record path value else t

def recordAll (t : Tracker) (changes : List (String × Json)) : Tracker :=
  changes.foldl (fun t c => t.record c.1 c.2) t

/-- records the entries of another tracker below a path -/
def merge (t : Tracker) (path : String) (other : Tracker) : Tracker :=
  t.recordAll (other.entries.map fun e => (Dotted.join path e.1, e.2))

/-- the tracker that a list of changes leaves -/
def ofChanges (changes : List (String × Json)) : Tracker :=
  empty.recordAll changes

/-- the entries written over a tree, in order -/
def replay (t : Tracker) (base : Tree) : Tree :=
  Tree.setAllDotted base t.entries

/-- the entries as one nested tree -/
def resolve (t : Tracker) : Tree :=
  t.replay []

def toJson (t : Tracker) : Json := .object t.entries

/-- the tracker that an object holds, its entries taken as they are -/
def ofJson? : Json → Option Tracker
  | .object entries => some ⟨entries⟩
  | _ => none

end Tracker

end ContactSync
