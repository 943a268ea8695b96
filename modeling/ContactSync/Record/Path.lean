/-
Places inside a record.

A path leads from the root of a record through keys and list positions. Written for a reader it shows both, as in
base.contacts.otherContacts[0].type; as a dotted path it shows the keys alone. A write below a list is tracked at the
list, so a path knows its anchor: the keys before its first position.
-/
import ContactSync.Dotted.Basic

namespace ContactSync

/-- one step of a path -/
inductive Segment where
  | key (name : String)
  | index (position : Nat)
  deriving DecidableEq, Repr

namespace Segment

def display : Segment → String
  | .key name => name
  | .index position => "[" ++ toString position ++ "]"

def key? : Segment → Option String
  | .key name => some name
  | .index _ => none

def isIndex : Segment → Bool
  | .key _ => false
  | .index _ => true

end Segment

/-- the steps from the root of a record -/
structure Path where
  segments : List Segment
  deriving DecidableEq, Repr

namespace Path

def root : Path := ⟨[]⟩

def ofDotted (text : String) : Path := ⟨(Dotted.components text).map Segment.key⟩

def key (p : Path) (name : String) : Path := ⟨p.segments ++ [.key name]⟩

def index (p : Path) (position : Nat) : Path := ⟨p.segments ++ [.index position]⟩

def isRoot (p : Path) : Bool := p.segments.isEmpty

/-- the keys on the way, without the positions -/
def keys (p : Path) : List String := p.segments.filterMap Segment.key?

/-- the keys with points between them; empty keys at the front leave no trace -/
def dotted (p : Path) : String :=
  Dotted.ofKeys (p.keys.dropWhile fun k => k.isEmpty)

/-- the outermost list on the way: the steps before the first position -/
def anchor? (p : Path) : Option Path :=
  if p.segments.any Segment.isIndex then some ⟨p.segments.takeWhile fun s => !s.isIndex⟩ else none

/-- the path for a reader: a point before every key but a first one -/
def display (p : Path) : String :=
  match p.segments with
  | [] => "<root>"
  | first :: rest =>
    rest.foldl (fun text s => if s.isIndex then text ++ s.display else text ++ "." ++ s.display) first.display

end Path

end ContactSync
