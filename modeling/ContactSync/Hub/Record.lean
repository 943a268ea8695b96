/-
The records of the hub: customers, their entries, and events.

Each is a record; an entry also knows its kind. What the hub sends becomes a record by `OfSnapshot.ofSnapshot`.
-/
import ContactSync.Entity.Kind
import ContactSync.Record.Basic

namespace ContactSync

/-- a customer of a workspace -/
structure Customer extends Record where
  deriving Repr, Inhabited

/-- a job, education, like or subscription of a customer -/
structure Entry extends Record where
  kind : EntryKind
  deriving Repr

/-- something that a customer has done; it is stored once and never changed -/
structure Event extends Record where
  deriving Repr, Inhabited

/-- what can be made of an object that the hub sends -/
class OfSnapshot (α : Type) where
  ofSnapshot : Tree → α

namespace Customer

/-- a customer as the hub sends it -/
def ofSnapshot (attributes : Tree) : Customer := ⟨.ofSnapshot attributes⟩

/-- a new customer: the usual attributes, with whole top-level keys replaced -/
def new (overrides : Tree) : Customer := ⟨.ofDefaults customerDefaults overrides⟩

def mapRecord (f : Record → Record) (c : Customer) : Customer := ⟨f c.toRecord⟩

instance : OfSnapshot Customer := ⟨ofSnapshot⟩

end Customer

namespace Entry

def new (kind : EntryKind) (attributes : Tree) : Entry := ⟨.ofSnapshot attributes, kind⟩

def mapRecord (f : Record → Record) (e : Entry) : Entry := ⟨f e.toRecord, e.kind⟩

end Entry

namespace Event

def ofSnapshot (attributes : Tree) : Event := ⟨.ofSnapshot attributes⟩

def mapRecord (f : Record → Record) (e : Event) : Event := ⟨f e.toRecord⟩

def type? (e : Event) : Option String := (Tree.get? "type" e.attributes).bind Json.string?

def customerId? (e : Event) : Option String := (Tree.get? "customerId" e.attributes).bind Json.string?

instance : OfSnapshot Event := ⟨ofSnapshot⟩

end Event

end ContactSync
