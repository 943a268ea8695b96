/-
One page of a listing: its elements, and where it stands among the others.

Pages are numbered from 0. A page is the last one when no page number below the total comes after it, so the only page
of an empty listing is first and last.
-/
import ContactSync.Fault
import ContactSync.Json.Shape

namespace ContactSync

/-- where a page stands -/
structure PageInfo where
  size : Nat
  totalElements : Nat
  totalUnfilteredElements : Nat
  totalPages : Nat
  number : Nat
  deriving DecidableEq, Repr

/-- the elements of a page and where it stands -/
structure Page where
  elements : List Tree
  info : PageInfo

namespace PageInfo

def isFirst (p : PageInfo) : Bool := p.number == 0

def isLast (p : PageInfo) : Bool := p.totalPages ≤ p.number + 1

def next (p : PageInfo) : Except Fault Nat :=
  if p.isLast then .error (.notPermitted "Last page reached") else .ok (p.number + 1)

def previous (p : PageInfo) : Except Fault Nat :=
  if p.isFirst then .error (.notPermitted "First page reached") else .ok (p.number - 1)

def toJson (p : PageInfo) : Json :=
  .object [("size", .ofNat p.size), ("totalElements", .ofNat p.totalElements),
    ("totalUnfilteredElements", .ofNat p.totalUnfilteredElements), ("totalPages", .ofNat p.totalPages),
    ("number", .ofNat p.number)]

/-- the numbers that a structure holds; the unfiltered total may be left out -/
def ofJson? (j : Json) : Option PageInfo :=
  match Shape.fields? ["size", "totalElements", "totalUnfilteredElements", "totalPages", "number"] j with
  | some [some size, some total, unfiltered, some pages, some number] => do
    return {
      size := ← size.nat?
      totalElements := ← total.nat?
      totalUnfilteredElements := ← (unfiltered.getD (.ofNat 0)).nat?
      totalPages := ← pages.nat?
      number := ← number.nat? }
  | _ => none

end PageInfo

namespace Page

def toJson (p : Page) : Json :=
  .object [("elements", .list (p.elements.map Json.object)), ("page", p.info.toJson)]

/-- the page that a structure holds; a page without elements may leave them out -/
def ofJson? (j : Json) : Option Page :=
  match Shape.fields? ["elements", "page"] j with
  | some [elements, some info] => do
    return {
      elements := ← (← (elements.getD (.list [])).list?).mapM Json.object?
      info := ← PageInfo.ofJson? info }
  | _ => none

end Page

end ContactSync
