/-
Entities of the hub, and the entries that a customer holds in lists of its own.

The attributes of a record are open, so a kind fixes only where its records live: the collection of an entity, and for
the entries of a customer the list below base that holds them.
-/
import ContactSync.Json.Shape

namespace ContactSync

/-- the entities that can be fetched and searched -/
inductive EntityKind where
  | customer
  | event
  deriving DecidableEq, Repr

/-- the entries of a customer -/
inductive EntryKind where
  | job
  | education
  | like
  | subscription
  deriving DecidableEq, Repr

namespace EntityKind

/-- the collection that holds the records of this kind -/
def collection : EntityKind → String
  | .customer => "customers"
  | .event => "events"

def display : EntityKind → String
  | .customer => "Customer"
  | .event => "Event"

def name : EntityKind → String
  | .customer => "customer"
  | .event => "event"

def all : List EntityKind := [.customer, .event]

def ofJson? (j : Json) : Option EntityKind :=
  Shape.pick? (all.map fun k => (k.name, k)) j

end EntityKind

namespace EntryKind

/-- the list that holds the entries of this kind -/
def collection : EntryKind → String
  | .job => "jobs"
  | .education => "educations"
  | .like => "likes"
  | .subscription => "subscriptions"

/-- the place of the list inside a customer -/
def collectionPath (k : EntryKind) : String := "base." ++ k.collection

def display : EntryKind → String
  | .job => "Job"
  | .education => "Education"
  | .like => "Like"
  | .subscription => "Subscription"

def name : EntryKind → String
  | .job => "job"
  | .education => "education"
  | .like => "like"
  | .subscription => "subscription"

def all : List EntryKind := [.job, .education, .like, .subscription]

def ofJson? (j : Json) : Option EntryKind :=
  Shape.pick? (all.map fun k => (k.name, k)) j

end EntryKind

/-- the attributes that every new customer starts with -/
def customerDefaults : Tree :=
  [("base", .object [("contacts", .object [])]),
   ("extended", .object []),
   ("tags", .object [("auto", .list []), ("manual", .list [])]),
   ("consents", .object [])]

end ContactSync
