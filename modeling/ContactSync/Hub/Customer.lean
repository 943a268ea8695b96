/-
Customers and the hub.

A customer without an id is created by its full document. One with an id is updated by its pending changes, and not at
all when there are none, or replaced by its full document. When the hub says that a new customer is there already, and
the caller wants it, the customer that the answer names is replaced instead.

Whatever the hub takes, the customer then counts as synchronised, with the keys of the answer over its own. Nothing is
changed before the last request has succeeded, so a failure leaves the customer as it was.

- `Customer.create`, `replace`, `update`, `remove`, and `persist`, which chooses among them.
- `Customer.body`: the full document with the node it is for.
-/
import ContactSync.Hub.Listing

namespace ContactSync

/-- how a customer that has an id is written back -/
inductive PersistMode where
  | update
  | replace
  deriving DecidableEq, Repr

/-- the members of an answer that is an object; any other answer has none to give -/
def objectAnswer? (answer : Option Json) : Option Tree := answer.bind Json.object?

namespace Node

variable {σ : Type}

def customer (n : Node) (id : String) : Action σ Customer :=
  return .ofSnapshot (← Action.sendForTree (n.request .get ["customers", id]))

def deleteCustomer (n : Node) (id : String) : Action σ Unit := do
  let _ ← Action.send (n.request .delete ["customers", id])

/-- binds an anonymous session to a customer; answers what the hub stores -/
def addSession (n : Node) (customerId sessionId : String) : Action σ Tree :=
  Action.sendForTree ((n.request .post ["customers", customerId, "sessions"]).withBody
    (.object [("value", .string sessionId)]))

end Node

namespace Customer

/-- the time zone that a replacement sends where the local one was cleared -/
def defaultTimezone : String := "Europe/Rome"

/-- the full document with the node it is for -/
def body (c : Customer) (n : Node) : Tree :=
  Tree.insert "nodeId" (.string n.nodeId) c.fullDocument

/-- the full document for a replacement, where a cleared time zone is the default one -/
def replacementBody (c : Customer) (n : Node) : Tree :=
  match Tree.getDotted? "base.timezone" c.attributes with
  | some .null => Tree.setDotted "base.timezone" (.string defaultTimezone) (c.body n)
  | _ => c.body n

/-- takes the present state as known to the hub -/
def accept (answer : Option Json) (c : Customer) : Customer :=
  c.mapRecord fun r => r.synchronized (objectAnswer? answer)

/-- replaces the customer of an id, which becomes the local one's once the hub has taken it -/
def put (n : Node) (id : String) : Action Customer Unit := do
  let c ← get
  let answer ← Action.send ((n.request .put ["customers", id]).withBody (.object (c.replacementBody n)))
  modify fun c => (c.mapRecord fun r => r.setUntracked "id" (.string id)).accept answer

/-- creates the customer; with `force`, replaces the one that is there already -/
def create (n : Node) (force : Bool) : Action Customer Unit := do
  let c ← get
  match ← Action.ask ((n.request .post ["customers"]).withBody (.object (c.body n))) with
  | .ok answer => modify (accept answer)
  | .error (.remote e) =>
    if e.isConflict && force then
      match e.existingId? with
      | some id => put n id
      | none => throw (.unfit .noExistingId)
    else throw (.remote e)
  | .error failure => throw failure

/-- replaces the customer of the local id -/
def replace (n : Node) : Action Customer Unit := do
  let c ← get
  put n (← Action.require (c.requireId "Customer"))

/-- sends the pending changes; without any, nothing -/
def update (n : Node) : Action Customer Unit := do
  let c ← get
  let id ← Action.require (c.requireId "Customer")
  if c.isDirty then
    let answer ← Action.send ((n.request .patch ["customers", id]).withBody (.object c.partialDocument))
    modify (accept answer)

/-- writes the customer back: by creating it when it has no id, otherwise as the mode says -/
def persist (n : Node) (mode : PersistMode) (force : Bool) : Action Customer Unit := do
  if (← get).id?.isNone then create n force
  else match mode with
    | .update => update n
    | .replace => replace n

/-- deletes the customer of the local id -/
def remove (n : Node) : Action Customer Unit := do
  let c ← get
  n.deleteCustomer (← Action.require (c.requireId "Customer"))

def events (n : Node) : Action Customer (Listing Event) := do
  let c ← get
  n.events (.ofCustomer (← Action.require (c.requireId "Customer")))

end Customer

end ContactSync
