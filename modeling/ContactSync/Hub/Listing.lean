/-
Listings: one page of results, with what is needed to fetch the others.

A listing keeps the request that it came from. Its neighbours are fetched by the same request with another page number,
counted from the number that the page itself reports; the first page has none before it and the last none after, and
then nothing is sent.

- `Listing.fetch`: a page for a request.
- `Listing.next`, `Listing.previous`: the neighbours.
- `Node.customers`, `Node.search`, `Node.searchPage`, `Node.events`: the listings of a node.
-/
import ContactSync.Hub.Dialogue
import ContactSync.Hub.Record
import ContactSync.Hub.Workspace
import ContactSync.Listing.Page
import ContactSync.Search.Wire

namespace ContactSync

/-- a page of results and the request that it came from -/
structure Listing (α : Type) where
  elements : List α
  page : PageInfo
  request : Request

/-- what a listing of customers asks for -/
structure CustomerFilter where
  externalId : Option String
  page : Option Nat
  size : Option Nat
  fields : List String

/-- what a listing of events asks for -/
structure EventFilter where
  customerId : String
  type : Option String
  context : Option String
  mode : Option String
  dateFrom : Option Moment
  dateTo : Option Moment
  page : Option Nat
  size : Option Nat

def CustomerFilter.all : CustomerFilter := ⟨none, none, none, []⟩

def EventFilter.ofCustomer (id : String) : EventFilter := ⟨id, none, none, none, none, none, none, none⟩

namespace Listing

variable {α σ : Type} [OfSnapshot α]

def fetch (request : Request) : Action σ (Listing α) := do
  let body ← Action.sendForTree request
  match Page.ofJson? (.object body) with
  | some page => return ⟨page.elements.map OfSnapshot.ofSnapshot, page.info, request⟩
  | none => throw (.unfit .notAPage)

/-- the same request with another page number -/
def requestPage (l : Listing α) (number : Nat) : Request :=
  l.request.withParam "page" (toString number)

def next (l : Listing α) : Action σ (Listing α) := do
  fetch (l.requestPage (← Action.require l.page.next))

def previous (l : Listing α) : Action σ (Listing α) := do
  fetch (l.requestPage (← Action.require l.page.previous))

end Listing

namespace Node

variable {σ : Type}

def customersRequest (n : Node) (f : CustomerFilter) : Request :=
  let fields := if f.fields.isEmpty then none else some (String.intercalate "," f.fields)
  (n.request .get ["customers"]).withParam "nodeId" n.nodeId
    |>.withParam? "externalId" f.externalId
    |>.withParam? "page" (f.page.map toString)
    |>.withParam? "size" (f.size.map toString)
    |>.withParam? "fields" fields

def customers (n : Node) (f : CustomerFilter) : Action σ (Listing Customer) :=
  Listing.fetch (n.customersRequest f)

/-- the customers of the node with an external id -/
def customersByExternalId (n : Node) (id : String) : Action σ (List Customer) :=
  return (← n.customers { CustomerFilter.all with externalId := some id }).elements

/-- the request of a search for customers; an empty query asks for all of them -/
def searchRequest (n : Node) (q : Query) : Except Fault Request :=
  if q.entity = .customer then
    .ok (((n.request .get ["customers"]).withParam "nodeId" n.nodeId).withParam? "query"
      (q.toWire?.map fun d => d.toJson.text))
  else .error (.notPermitted ("Cannot run a query on " ++ q.entity.display ++ " as a customer listing"))

/-- the first page of a search -/
def search (n : Node) (q : Query) : Action σ (Listing Customer) := do
  Listing.fetch (← Action.require (n.searchRequest q))

/-- any page of a search -/
def searchPage (n : Node) (q : Query) (page : Nat) : Action σ (Listing Customer) := do
  Listing.fetch ((← Action.require (n.searchRequest q)).withParam "page" (toString page))

def eventsRequest (n : Node) (f : EventFilter) : Request :=
  (n.request .get ["events"]).withParam "customerId" f.customerId
    |>.withParam? "type" f.type
    |>.withParam? "context" f.context
    |>.withParam? "mode" f.mode
    |>.withParam? "dateFrom" (f.dateFrom.map Moment.text)
    |>.withParam? "dateTo" (f.dateTo.map Moment.text)
    |>.withParam? "page" (f.page.map toString)
    |>.withParam? "size" (f.size.map toString)

def events (n : Node) (f : EventFilter) : Action σ (Listing Event) :=
  Listing.fetch (n.eventsRequest f)

end Node

end ContactSync
