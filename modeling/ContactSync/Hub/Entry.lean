/-
The entries of a customer and the hub.

Entries have addresses of their own, and the customer that is loaded holds a copy of them in a list. An entry that the
hub has taken is written into that list without being tracked: the hub knows it already. Nothing is changed before the
request has succeeded.

- `Entry.create`: at the end of the list.
- `Entry.replace`: in place of the element with its id, which has to be there.
- `Entry.remove`: every element with its id is dropped.
-/
import ContactSync.Hub.Customer

namespace ContactSync

namespace Entry

def hasId (id : String) (item : Json) : Bool :=
  (item.member? "id").bind Json.string? == some id

/-- the list of the loaded customer that holds entries of a kind -/
def loaded? (kind : EntryKind) (c : Customer) : Option (List Json) :=
  (Tree.getDotted? kind.collectionPath c.attributes).bind Json.list?

/-- rewrites the list of the loaded customer, untracked -/
def store (kind : EntryKind) (items : List Json) (c : Customer) : Customer :=
  c.mapRecord fun r => r.setUntracked kind.collectionPath (.list items)

/-- takes the present state as known to the hub -/
def accept (answer : Option Json) (e : Entry) : Entry :=
  e.mapRecord fun r => r.synchronized (objectAnswer? answer)

def create (n : Node) : Action (Entry × Customer) Unit := do
  let (e, c) ← get
  let customerId ← Action.require (c.requireId "Customer")
  let answer ← Action.send ((n.request .post ["customers", customerId, e.kind.collection]).withBody
    (.object e.fullDocument))
  let e' := e.accept answer
  set (e', store e.kind ((loaded? e.kind c).getD [] ++ [.object e'.attributes]) c)

/-- replaces the stored entry of the local id -/
def replace (n : Node) : Action (Entry × Customer) Unit := do
  let (e, c) ← get
  let customerId ← Action.require (c.requireId "Customer")
  let id ← Action.require (e.requireId e.kind.display)
  let items := (loaded? e.kind c).getD []
  match items.findIdx? (hasId id) with
  | none => throw (.fault (.notFound e.kind.display))
  | some position =>
    let answer ← Action.send ((n.request .put ["customers", customerId, e.kind.collection, id]).withBody
      (.object e.fullDocument))
    let e' := e.accept answer
    set (e', store e.kind (items.set position (.object e'.attributes)) c)

/-- deletes the stored entry of the local id -/
def remove (n : Node) : Action (Entry × Customer) Unit := do
  let (e, c) ← get
  let customerId ← Action.require (c.requireId "Customer")
  let id ← Action.require (e.requireId e.kind.display)
  let _ ← Action.send (n.request .delete ["customers", customerId, e.kind.collection, id])
  match loaded? e.kind c with
  | none => pure ()
  | some items =>
    let kept := items.filter fun item => !hasId id item
    if kept.length ≠ items.length then set (e, store e.kind kept c)

end Entry

def Node.entry {σ : Type} (n : Node) (kind : EntryKind) (customerId id : String) : Action σ Entry :=
  return .new kind (← Action.sendForTree (n.request .get ["customers", customerId, kind.collection, id]))

end ContactSync
