/-
Queries: searches over one entity, and their combinations.

A query starts empty and is narrowed by criteria. Two narrowed queries on one entity combine into one query with both
criteria joined; any other pair becomes a combination that holds both, and an operand that is a combination of the same
operator gives its parts instead of itself. An empty query combines with nothing, and a combination takes no criteria.

- `Query.filter`: one more criterion.
- `Query.intersect`, `Query.union`: the combinations.
-/
import ContactSync.Fault
import ContactSync.Search.Criterion

namespace ContactSync

/-- how queries are combined -/
inductive SetOperator where
  | union
  | intersect
  deriving DecidableEq, Repr

/-- a search over one entity, or several combined -/
inductive Query where
  | simple (entity : EntityKind) (criterion : Option Criterion)
  | combined (entity : EntityKind) (operator : SetOperator) (queries : List Query)
  deriving Repr

namespace SetOperator

def name : SetOperator → String
  | .union => "UNION"
  | .intersect => "INTERSECT"

theorem name_inj {o p : SetOperator} : o.name = p.name ↔ o = p := by
  cases o <;> cases p <;> simp [name]

/-- the conjunction that does the same to criteria -/
def conjunction : SetOperator → Conjunction
  | .union => .or
  | .intersect => .and

def ofJson? (j : Json) : Option SetOperator :=
  Shape.pick? ([SetOperator.union, SetOperator.intersect].map fun o => (o.name, o)) j

end SetOperator

namespace Query

/-- every record of an entity -/
def new (entity : EntityKind) : Query := .simple entity none

/-- the entity; a combination has that of its first part -/
def entity : Query → EntityKind
  | .simple entity _ => entity
  | .combined entity _ _ => entity

/-- the criterion of a query that has one -/
def criterion? : Query → Option Criterion
  | .simple _ criterion => criterion
  | .combined _ _ _ => none

def isEmpty : Query → Bool
  | .simple _ none => true
  | _ => false

def filter (q : Query) (criterion : Criterion) : Except Fault Query :=
  match q with
  | .simple entity none => .ok (.simple entity (some criterion))
  | .simple entity (some present) => .ok (.simple entity (some (present.and criterion)))
  | .combined _ _ _ => .error (.notPermitted "Cannot apply a filter on a combined query")

/-- the parts that an operand gives to a combination -/
def parts (operator : SetOperator) : Query → List Query
  | .combined entity inner queries =>
    if inner = operator then queries else [.combined entity inner queries]
  | .simple entity criterion => [.simple entity criterion]

def combine (operator : SetOperator) (left right : Query) : Except Fault Query :=
  if left.isEmpty || right.isEmpty then .error (.notPermitted "Cannot combine empty queries.")
  else match left, right with
    | .simple entity (some a), .simple other (some b) =>
      if entity = other then .ok (.simple entity (some (.composite a operator.conjunction b)))
      else .ok (.combined entity operator (left.parts operator ++ right.parts operator))
    | _, _ => .ok (.combined left.entity operator (left.parts operator ++ right.parts operator))

/-- what both find -/
def intersect (left right : Query) : Except Fault Query := combine .intersect left right

/-- what either finds -/
def union (left right : Query) : Except Fault Query := combine .union left right

mutual
/-- equality, values compared as JSON values -/
def same : Query → Query → Bool
  | .simple a c, .simple b d =>
    a == b && (match c, d with
      | none, none => true
      | some x, some y => x.same y
      | _, _ => false)
  | .combined a o qs, .combined b p rs => a == b && o == p && sameAll qs rs
  | _, _ => false
termination_by structural q => q

def sameAll : List Query → List Query → Bool
  | [], [] => true
  | q :: qs, r :: rs => same q r && sameAll qs rs
  | _, _ => false
termination_by structural qs => qs
end

end Query

end ContactSync
