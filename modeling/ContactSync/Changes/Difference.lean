/-
The difference of two trees as pending changes.

Keys of the old tree come first, in its order: an object on both sides is compared member by member, any other value
that changed is given anew, a value that is gone is cleared, a list to the empty list and everything else to null. Then
come the keys that are new, an object among them by its leaves; an empty object is a leaf of its own.

- `Tree.changes`: the changes in order.
- `Tracker.difference`: the changes as a tracker.
- `Tree.overlay`: the tree that the changes make of the old one, said without them.
- `Tree.merged`: one tree merged into another, object into object, which is how the other side applies a partial update.
-/
import ContactSync.Changes.Tracker

namespace ContactSync

namespace Json

/-- what stands for a value that is gone -/
def cleared : Json → Json
  | .list _ => .list []
  | _ => .null

mutual
/-- a new value at a path, an object by its leaves -/
def additions (path : String) : Json → List (String × Json)
  | .object (member :: rest) => memberAdditions path (member :: rest)
  | j => [(path, j)]
termination_by structural j => j

/-- the new members of an object at a path -/
def memberAdditions (path : String) : List (String × Json) → List (String × Json)
  | [] => []
  | (k, v) :: rest => additions (Dotted.join path k) v ++ memberAdditions path rest
termination_by structural members => members
end

/-- the members of a new object that the old one lacks, as changes below a path -/
def arrivals (path : String) (old new : Tree) : List (String × Json) :=
  new.flatMap fun e => if Tree.contains e.1 old then [] else additions (Dotted.join path e.1) e.2

mutual
/-- the changes that make the second value of the first, at a path -/
def changes (path : String) : Json → Json → List (String × Json)
  | .object old, .object new => memberChanges path old new ++ arrivals path old new
  | old, new => if old.same new then [] else [(path, new)]
termination_by structural old => old

/-- the changes to the members that an old object has -/
def memberChanges (path : String) : List (String × Json) → Tree → List (String × Json)
  | [], _ => []
  | (k, v) :: rest, new =>
    (match Tree.get? k new with
      | some w => changes (Dotted.join path k) v w
      | none => [(Dotted.join path k, v.cleared)]) ++ memberChanges path rest new
termination_by structural old => old
end

mutual
/-- the second value over the first: objects member by member, with a cleared value where a member is gone -/
def overlay : Json → Json → Json
  | .object old, .object new => .object (memberOverlay old new ++ new.filter fun e => !Tree.contains e.1 old)
  | _, new => new
termination_by structural old => old

/-- the members that an old object has, after the change -/
def memberOverlay : List (String × Json) → Tree → List (String × Json)
  | [], _ => []
  | (k, v) :: rest, new =>
    (k, match Tree.get? k new with
      | some w => overlay v w
      | none => v.cleared) :: memberOverlay rest new
termination_by structural old => old
end

mutual
/-- the second value merged into the first: object into object, anything else in place of what was there -/
def mergedInto (old : Json) : Json → Json
  | .object update => .object (membersMergedInto (old.object?.getD []) update)
  | j => j
termination_by structural update => update

/-- the members of an update merged into those of an object, one after another -/
def membersMergedInto (old : Tree) : List (String × Json) → Tree
  | [] => old
  | (k, v) :: rest => membersMergedInto (Tree.insert k (mergedInto ((Tree.get? k old).getD .null) v) old) rest
termination_by structural update => update
end

end Json

namespace Tree

def changes (old new : Tree) : List (String × Json) :=
  Json.changes "" (.object old) (.object new)

/-- the new tree over the old one, with a cleared value where a key is gone -/
def overlay (old new : Tree) : Tree :=
  ((Json.object old).overlay (.object new)).object?.getD []

/-- an update merged into a tree, object into object -/
def merged (old update : Tree) : Tree :=
  Json.membersMergedInto old update

end Tree

def Tracker.difference (old new : Tree) : Tracker :=
  ⟨Tree.ofPairs (Tree.changes old new)⟩

end ContactSync
