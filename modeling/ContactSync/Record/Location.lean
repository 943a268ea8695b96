/-
Values at a path.

- `Json.at?`: the value that the steps of a path lead to, keys through objects and positions through lists.
- `Json.updateAt?`: the same value changed in place, when it is an object.
-/
import ContactSync.Json.Basic
import ContactSync.Record.Path

namespace ContactSync

namespace Json

/-- the value at the end of a row of steps -/
def at? : List Segment → Json → Option Json
  | [], j => some j
  | .key name :: rest, .object members => (Tree.get? name members).bind (at? rest)
  | .index position :: rest, .list items => items[position]?.bind (at? rest)
  | _ :: _, _ => none

/-- changes the object at the end of a row of steps; nothing when there is none -/
def updateAt? (change : Tree → Tree) : List Segment → Json → Option Json
  | [], .object members => some (.object (change members))
  | [], _ => none
  | .key name :: rest, .object members =>
    (Tree.get? name members).bind fun v =>
      (updateAt? change rest v).map fun w => .object (Tree.insert name w members)
  | .index position :: rest, .list items =>
    items[position]?.bind fun v =>
      (updateAt? change rest v).map fun w => .list (items.set position w)
  | _ :: _, _ => none

end Json

namespace Tree

def atPath? (path : Path) (tree : Tree) : Option Json :=
  (Json.object tree).at? path.segments

def nodeAt? (path : Path) (tree : Tree) : Option Tree :=
  (atPath? path tree).bind Json.object?

/-- writes a key of the object at a path -/
def insertAt? (path : Path) (key : String) (value : Json) (tree : Tree) : Option Tree :=
  ((Json.object tree).updateAt? (insert key value) path.segments).bind Json.object?

end Tree

end ContactSync
