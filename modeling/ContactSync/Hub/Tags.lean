/-
The manual tags of a customer.

They are a list at tags.manual, fetched and written back as a whole. A customer without such a list has no tags. The
list may hold other values than texts; they are kept.

- `Tags.added`, `Tags.removed?`: the list after a change.
- `Node.addTag`, `Node.removeTag`: the exchange.
-/
import ContactSync.Hub.Customer

namespace ContactSync

namespace Tags

def isTag (tag : String) (item : Json) : Bool := item.string? == some tag

/-- the list with a tag at its end, unless it is there already -/
def added (tag : String) (tags : List Json) : List Json :=
  if tags.any (isTag tag) then tags else tags ++ [.string tag]

/-- the list without a tag; nothing when that leaves as many elements as there were -/
def removed? (tag : String) (tags : List Json) : Option (List Json) :=
  let kept := tags.filter fun item => !isTag tag item
  if kept.length = tags.length then none else some kept

/-- the manual tags among the attributes of a customer -/
def manual (attributes : Tree) : List Json :=
  ((Tree.getDotted? "tags.manual" attributes).bind Json.list?).getD []

def document (tags : List Json) : Json :=
  .object [("tags", .object [("manual", .list tags)])]

end Tags

namespace Node

variable {σ : Type}

def manualTags (n : Node) (customerId : String) : Action σ (List Json) :=
  return Tags.manual (← n.customer customerId).attributes

def writeTags (n : Node) (customerId : String) (tags : List Json) : Action σ Unit := do
  let _ ← Action.send ((n.request .patch ["customers", customerId]).withBody (Tags.document tags))

def addTag (n : Node) (customerId tag : String) : Action σ Unit := do
  n.writeTags customerId (Tags.added tag (← n.manualTags customerId))

/-- removes a manual tag, which has to be there -/
def removeTag (n : Node) (customerId tag : String) : Action σ Unit := do
  match Tags.removed? tag (← n.manualTags customerId) with
  | some tags => n.writeTags customerId tags
  | none => throw (.fault (.notFound ("Tag '" ++ tag ++ "'")))

end Node

end ContactSync
