/-
Reading and writing a tree at a dotted place.

`Tree.at?` and `Tree.setAt` take the keys, `Tree.getDotted?` and `Tree.setDotted` the dotted text. A write makes the
objects that are missing on its way and puts an object in place of anything else it meets there; a write with no keys
changes nothing. Reading goes through objects only, and no keys read nothing.
-/
import ContactSync.Dotted.Basic
import ContactSync.Json.Basic

namespace ContactSync

namespace Tree

/-- the value at the end of a row of keys -/
def at? : List String → Tree → Option Json
  | [], _ => none
  | [key], tree => get? key tree
  | key :: rest, tree =>
    match get? key tree with
    | some (.object members) => at? rest members
    | _ => none

/-- the object under a key; empty when there is none -/
def childOrEmpty (key : String) (tree : Tree) : Tree :=
  match get? key tree with
  | some (.object members) => members
  | _ => []

/-- writes a value at the end of a row of keys -/
def setAt : List String → Json → Tree → Tree
  | [], _, tree => tree
  | [key], value, tree => insert key value tree
  | key :: rest, value, tree => insert key (.object (setAt rest value (childOrEmpty key tree))) tree

def getDotted? (path : String) (tree : Tree) : Option Json :=
  at? (Dotted.components path) tree

def setDotted (path : String) (value : Json) (tree : Tree) : Tree :=
  setAt (Dotted.components path) value tree

def setAllDotted (tree : Tree) (writes : List (String × Json)) : Tree :=
  writes.foldl (fun t w => setDotted w.1 w.2 t) tree

end Tree

end ContactSync
