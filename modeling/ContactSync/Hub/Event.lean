/-
Events and the hub.

An event is stored once. When it says by which properties its customer is to be found, the node is added to them, for
the hub looks within it.
-/
import ContactSync.Hub.Customer

namespace ContactSync

/-- the document of an event, with the node among the properties by which its customer is to be found -/
def Event.body (e : Event) (n : Node) : Tree :=
  let document := e.fullDocument
  match Tree.get? "bringBackProperties" document with
  | some (.object properties) =>
    Tree.insert "bringBackProperties" (.object (Tree.insert "nodeId" (.string n.nodeId) properties)) document
  | _ => document

namespace Node

variable {σ : Type}

def addEvent (n : Node) (e : Event) : Action σ Unit := do
  let _ ← Action.send ((n.request .post ["events"]).withBody (.object (e.body n)))

def event (n : Node) (id : String) : Action σ Event :=
  return .ofSnapshot (← Action.sendForTree (n.request .get ["events", id]))

end Node

end ContactSync
