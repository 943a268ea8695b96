/-
What is left of a tree without its empty parts.

Null, empty lists and objects in which nothing is left are dropped; false, zero and the empty text stay. A list that has
elements keeps all of them: its elements that are objects lose their empty members, but stay even when nothing is left
in them, and every other element stays as it is.

- `Tree.stripped`: the tree without its empty parts.
- `Json.HasContent`: what makes a value more than empty, said without the strip.
-/
import ContactSync.Json.Basic

namespace ContactSync

namespace Json

mutual
/-- the value without its empty parts, when something is left -/
def stripped? : Json → Option Json
  | .null => none
  | .list [] => none
  | .list (item :: rest) => some (.list (strippedItems (item :: rest)))
  | .object members =>
    match strippedMembers members with
    | [] => none
    | kept => some (.object kept)
  | .bool b => some (.bool b)
  | .number n => some (.number n)
  | .string s => some (.string s)
termination_by structural j => j

/-- the elements of a list, those that are objects without their empty members -/
def strippedItems : List Json → List Json
  | [] => []
  | item :: rest => strippedItem item :: strippedItems rest
termination_by structural items => items

/-- an element of a list: an object loses its empty members, anything else stays -/
def strippedItem : Json → Json
  | .object members => .object (strippedMembers members)
  | .null => .null
  | .bool b => .bool b
  | .number n => .number n
  | .string s => .string s
  | .list items => .list items
termination_by structural j => j

/-- the members of an object that are more than empty -/
def strippedMembers : List (String × Json) → List (String × Json)
  | [] => []
  | (k, v) :: rest =>
    match stripped? v with
    | some w => (k, w) :: strippedMembers rest
    | none => strippedMembers rest
termination_by structural members => members
end

mutual
/-- a scalar other than null, a list with elements, or an object with a member that has content -/
def HasContent : Json → Prop
  | .null => False
  | .list items => items ≠ []
  | .object members => SomeContent members
  | _ => True
termination_by structural j => j

def SomeContent : List (String × Json) → Prop
  | [] => False
  | (_, v) :: rest => HasContent v ∨ SomeContent rest
termination_by structural members => members
end

end Json

/-- the tree without its empty parts -/
def Tree.stripped (tree : Tree) : Tree :=
  Json.strippedMembers tree

end ContactSync
