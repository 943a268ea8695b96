/-
The leaves of a tree: its values that are no objects, each named by the keys that lead to it through objects.

- `Tree.leafPaths`: the keys of every leaf, depth first and in the order of the keys.
-/
import ContactSync.Json.Basic

namespace ContactSync

namespace Json

mutual
/-- the leaves at or below a value, after the keys that lead to it -/
def leavesFrom (above : List String) : Json → List (List String)
  | .object members => memberLeaves above members
  | _ => [above]
termination_by structural j => j

/-- the leaves below the members of an object, after the keys that lead to it -/
def memberLeaves (above : List String) : List (String × Json) → List (List String)
  | [] => []
  | (k, v) :: rest => leavesFrom (above ++ [k]) v ++ memberLeaves above rest
termination_by structural members => members
end

end Json

/-- the keys of every leaf, depth first -/
def Tree.leafPaths (tree : Tree) : List (List String) :=
  Json.memberLeaves [] tree

end ContactSync
