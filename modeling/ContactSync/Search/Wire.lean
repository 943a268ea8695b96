/-
The wire grammar: what is sent for a criterion and for a query.

A condition is atomic, with attribute, operator and the value that the operator needs, or composite, with a conjunction
and its conditions. The body of a query is simple, with one condition, or combined, with an operator and its queries. An
empty query has no document at all; it is run as a plain listing. The entity is not part of a document.

- `Criterion.toWire`, `Query.toWire?`: the lowering.
- `toJson`: the documents.
- `Condition.holds`, `Body.holds`: what a document means, given what its atomic conditions mean.
-/
import ContactSync.Search.Query

namespace ContactSync

namespace Wire

/-- a lowered criterion -/
inductive Condition where
  | atomic (path : String) (operator : Operator) (value : Option Json)
  | composite (conjunction : Conjunction) (conditions : List Condition)

/-- a lowered query -/
inductive Body where
  | simple (condition : Condition)
  | combined (operator : SetOperator) (queries : List Body)

/-- a whole query document -/
structure Document where
  body : Body

/-- the name that every query document bears -/
def queryName : Json := .string "query"

namespace Condition

mutual
def toJson : Condition → Json
  | .atomic path operator value =>
    .object ([("type", .string "atomic"), ("attribute", .string path), ("operator", .string operator.name)] ++
      value.toList.map fun v => ("value", v))
  | .composite conjunction conditions =>
    .object [("type", .string "composite"), ("conjunction", .string conjunction.name),
      ("conditions", .list (toJsons conditions))]
termination_by structural c => c

def toJsons : List Condition → List Json
  | [] => []
  | c :: rest => toJson c :: toJsons rest
termination_by structural cs => cs
end

mutual
/-- the truth of a condition -/
def holds (atom : String → Operator → Option Json → Bool) : Condition → Bool
  | .atomic path operator value => atom path operator value
  | .composite .and conditions => allHold atom conditions
  | .composite .or conditions => someHolds atom conditions
termination_by structural c => c

def allHold (atom : String → Operator → Option Json → Bool) : List Condition → Bool
  | [] => true
  | c :: rest => holds atom c && allHold atom rest
termination_by structural cs => cs

def someHolds (atom : String → Operator → Option Json → Bool) : List Condition → Bool
  | [] => false
  | c :: rest => holds atom c || someHolds atom rest
termination_by structural cs => cs
end

end Condition

namespace Body

mutual
def toJson : Body → Json
  | .simple condition =>
    .object [("type", .string "simple"), ("name", queryName),
      ("are", .object [("condition", condition.toJson)])]
  | .combined operator queries =>
    .object [("type", .string "combined"), ("name", queryName), ("conjunction", .string operator.name),
      ("queries", .list (toJsons queries))]
termination_by structural b => b

def toJsons : List Body → List Json
  | [] => []
  | b :: rest => toJson b :: toJsons rest
termination_by structural bs => bs
end

mutual
/-- the truth of a query for one record -/
def holds (atom : String → Operator → Option Json → Bool) : Body → Bool
  | .simple condition => condition.holds atom
  | .combined .intersect queries => allHold atom queries
  | .combined .union queries => someHolds atom queries
termination_by structural b => b

def allHold (atom : String → Operator → Option Json → Bool) : List Body → Bool
  | [] => true
  | b :: rest => holds atom b && allHold atom rest
termination_by structural bs => bs

def someHolds (atom : String → Operator → Option Json → Bool) : List Body → Bool
  | [] => false
  | b :: rest => holds atom b || someHolds atom rest
termination_by structural bs => bs
end

end Body

namespace Document

def toJson (d : Document) : Json :=
  .object [("name", queryName), ("query", d.body.toJson)]

end Document

end Wire

/-- a criterion lowered: a join has its two sides as conditions, left before right -/
def Criterion.toWire : Criterion → Wire.Condition
  | .atomic path operator value => .atomic path operator value
  | .composite left conjunction right => .composite conjunction [left.toWire, right.toWire]

namespace Query

mutual
/-- a query lowered; an empty one has no body -/
def toBody? : Query → Option Wire.Body
  | .simple _ none => none
  | .simple _ (some criterion) => some (.simple criterion.toWire)
  | .combined _ operator queries => some (.combined operator (toBodies queries))
termination_by structural q => q

/-- queries lowered, empty ones left out -/
def toBodies : List Query → List Wire.Body
  | [] => []
  | q :: rest =>
    match toBody? q with
    | some body => body :: toBodies rest
    | none => toBodies rest
termination_by structural qs => qs
end

/-- the document of a query; an empty one has none -/
def toWire? (q : Query) : Option Wire.Document :=
  q.toBody?.map Wire.Document.mk

end Query

end ContactSync
