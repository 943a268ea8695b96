/-
Criteria: what a search asks of the fields of an entity.

A criterion compares one field with a value, or joins two criteria with and or or. The builders on `Field` are the usual
way to make one: a comparison with null, with nothing, or with a number that is none becomes the null test, and the two
null tests carry no value.

- `Operand`: the values a field can be compared with; `Operand.toJson` is how they are sent.
- `Field.equals` and its siblings: one comparison each. `Criterion.between`, `isIn` and `notIn` are three of them again
  as functions that take the field as an argument.
- `Criterion.and`, `Criterion.or`: the joins.
- `Criterion.same`: equality, values compared as JSON values.
-/
import ContactSync.Dotted.Basic
import ContactSync.Entity.Kind
import ContactSync.Search.Moment

namespace ContactSync

/-! ## Fields -/

/-- a field of an entity, by the keys that lead to it -/
structure Field where
  entity : EntityKind
  keys : List String
  deriving DecidableEq, Repr

namespace Field

/-- the field that further dotted text leads to -/
def field (f : Field) (name : String) : Field :=
  { f with keys := f.keys ++ Dotted.components name }

/-- the field of an entity that a dotted text names -/
def named (entity : EntityKind) (name : String) : Field :=
  (Field.mk entity []).field name

def path (f : Field) : String := Dotted.ofKeys f.keys

def display (f : Field) : String := f.entity.display ++ "." ++ f.path

end Field

/-! ## Values -/

/-- a value that a field can be compared with. A real number is there only when it is finite -/
inductive Operand where
  | json (value : Json)
  | text (value : String)
  | truth (value : Bool)
  | integer (value : Int)
  | real (value : Option Double)
  | moment (value : Moment)
  | absent
  | many (values : List Operand)

namespace Operand

mutual
/-- the value as it is sent -/
def toJson : Operand → Json
  | .json j => j
  | .text s => .string s
  | .truth b => .bool b
  | .integer i => .ofInt i
  | .real (some d) => .number (.double d)
  | .real none => .null
  | .moment m => .string m.text
  | .absent => .null
  | .many values => .list (toJsons values)
termination_by structural o => o

def toJsons : List Operand → List Json
  | [] => []
  | o :: rest => toJson o :: toJsons rest
termination_by structural os => os
end

/-- whether this is sent as null -/
def isNull (o : Operand) : Bool := o.toJson.isNull

end Operand

/-! ## Criteria -/

/-- how a field is compared -/
inductive Operator where
  | equals | notEquals | lt | lte | gt | gte | isNull | isNotNull | between | isIn | notIn
  deriving DecidableEq, Repr

/-- how two criteria are joined -/
inductive Conjunction where
  | and
  | or
  deriving DecidableEq, Repr

/-- a comparison of one field, or two criteria joined -/
inductive Criterion where
  | atomic (path : String) (operator : Operator) (value : Option Json)
  | composite (left : Criterion) (conjunction : Conjunction) (right : Criterion)
  deriving Repr

namespace Operator

def name : Operator → String
  | .equals => "EQUALS"
  | .notEquals => "NOT_EQUALS"
  | .lt => "LT"
  | .lte => "LTE"
  | .gt => "GT"
  | .gte => "GTE"
  | .isNull => "IS_NULL"
  | .isNotNull => "IS_NOT_NULL"
  | .between => "BETWEEN"
  | .isIn => "IN"
  | .notIn => "NOT_IN"

theorem name_inj {o p : Operator} : o.name = p.name ↔ o = p := by
  cases o <;> cases p <;> simp [name]

/-- whether the operator needs no value -/
def isUnary : Operator → Bool
  | .isNull | .isNotNull => true
  | _ => false

def all : List Operator :=
  [.equals, .notEquals, .lt, .lte, .gt, .gte, .isNull, .isNotNull, .between, .isIn, .notIn]

def ofJson? (j : Json) : Option Operator :=
  Shape.pick? (all.map fun o => (o.name, o)) j

end Operator

namespace Conjunction

def name : Conjunction → String
  | .and => "and"
  | .or => "or"

theorem name_inj {c d : Conjunction} : c.name = d.name ↔ c = d := by
  cases c <;> cases d <;> simp [name]

def ofJson? (j : Json) : Option Conjunction :=
  Shape.pick? ([Conjunction.and, Conjunction.or].map fun c => (c.name, c)) j

end Conjunction

namespace Criterion

/-- a comparison of a field; an operator that needs no value drops it -/
def compare (field : Field) (operator : Operator) (value : Option Operand) : Criterion :=
  .atomic field.path operator (if operator.isUnary then none else value.map Operand.toJson)

def and (left right : Criterion) : Criterion := .composite left .and right

def or (left right : Criterion) : Criterion := .composite left .or right

/-- equality, values compared as JSON values -/
def same : Criterion → Criterion → Bool
  | .atomic a o v, .atomic b p w =>
    a == b && o == p &&
    (match v, w with
      | none, none => true
      | some x, some y => x.same y
      | _, _ => false)
  | .composite l c r, .composite m d s => l.same m && c == d && r.same s
  | _, _ => false

end Criterion

namespace Field

def isNull (f : Field) : Criterion := .compare f .isNull none

def isNotNull (f : Field) : Criterion := .compare f .isNotNull none

/-- the field has this value; with null, none at all -/
def equals (f : Field) (o : Operand) : Criterion :=
  if o.isNull then f.isNull else .compare f .equals (some o)

/-- the field has another value; with null, any at all -/
def notEquals (f : Field) (o : Operand) : Criterion :=
  if o.isNull then f.isNotNull else .compare f .notEquals (some o)

def lt (f : Field) (o : Operand) : Criterion := .compare f .lt (some o)

def lte (f : Field) (o : Operand) : Criterion := .compare f .lte (some o)

def gt (f : Field) (o : Operand) : Criterion := .compare f .gt (some o)

def gte (f : Field) (o : Operand) : Criterion := .compare f .gte (some o)

/-- the field lies between two values, which are sent as a list of two -/
def between (f : Field) (low high : Operand) : Criterion :=
  .compare f .between (some (.many [low, high]))

/-- the list at the field contains this value -/
def contains (f : Field) (o : Operand) : Criterion := .compare f .isIn (some o)

/-- the list at the field does not contain this value -/
def lacks (f : Field) (o : Operand) : Criterion := .compare f .notIn (some o)

end Field

namespace Criterion

def between (field : Field) (low high : Operand) : Criterion := field.between low high

/-- the value is one of those that the list at the field holds -/
def isIn (value : Operand) (field : Field) : Criterion := field.contains value

/-- the value is none of those that the list at the field holds -/
def notIn (value : Operand) (field : Field) : Criterion := field.lacks value

end Criterion

end ContactSync
