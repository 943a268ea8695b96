/-
JSON values with ordered objects.

An object keeps its keys in the order they were first written: writing an existing key keeps its place, removing one
keeps the order of the rest. An object that is the whole of a document, such as the attributes of a record, is a `Tree`.
Integers and doubles are different numbers: 1 and 1.0 never agree.

- `Tree.get?`, `Tree.insert`, `Tree.mergeKeys`: lookup and writes, key by key.
- `Json.same`: equality of values. The order of keys does not matter, the order of list elements does, and the two
  double zeros agree.
- `WellFormed`: no object inside a value writes one key twice. Every operation of the library keeps this.
-/
import ContactSync.Decimal.Double

namespace ContactSync

/-- an integer between -2^63 and 2^64 - 1, or a double -/
inductive Number where
  | integer (value : Int)
  | double (value : Double)
  deriving DecidableEq, Repr

/-- equality of numbers: integers with integers, doubles with doubles -/
def Number.same : Number → Number → Bool
  | .integer a, .integer b => a == b
  | .double a, .double b => a.same b
  | _, _ => false

inductive Json where
  | null
  | bool (value : Bool)
  | number (value : Number)
  | string (value : String)
  | list (items : List Json)
  | object (members : List (String × Json))
  deriving Repr, Inhabited

/-- the keys and values of one object, in the order of first writing -/
abbrev Tree := List (String × Json)

namespace Tree

def get? (key : String) : Tree → Option Json
  | [] => none
  | (k, v) :: rest => if k = key then some v else get? key rest

def contains (key : String) (tree : Tree) : Bool :=
  (get? key tree).isSome

/-- writes a key: in place when it is present, at the end when it is new -/
def insert (key : String) (value : Json) : Tree → Tree
  | [] => [(key, value)]
  | (k, v) :: rest => if k = key then (key, value) :: rest else (k, v) :: insert key value rest

def keys (tree : Tree) : List String :=
  tree.map Prod.fst

def insertAll (tree : Tree) (pairs : List (String × Json)) : Tree :=
  pairs.foldl (fun t p => insert p.1 p.2 t) tree

/-- the object that a list of pairs writes, a later pair winning over an earlier one of the same key -/
def ofPairs (pairs : List (String × Json)) : Tree :=
  insertAll [] pairs

end Tree

namespace Json

def ofInt (i : Int) : Json := .number (.integer i)

def ofNat (n : Nat) : Json := .number (.integer n)

def string? : Json → Option String
  | .string s => some s
  | _ => none

def list? : Json → Option (List Json)
  | .list items => some items
  | _ => none

def object? : Json → Option Tree
  | .object members => some members
  | _ => none

def bool? : Json → Option Bool
  | .bool b => some b
  | _ => none

/-- an integer that fits into 64 bits with a sign; doubles are no integers, whatever their value -/
def int? : Json → Option Int
  | .number (.integer i) => if i < 9223372036854775808 then some i else none
  | _ => none

/-- an integer from 0 to 2^64 - 1 -/
def nat? : Json → Option Nat
  | .number (.integer i) => if 0 ≤ i then some i.toNat else none
  | _ => none

/-- a number as a double; an integer goes to the nearest one -/
def double? : Json → Option Double
  | .number (.integer i) => some (Double.ofInt i)
  | .number (.double d) => some d
  | _ => none

def isNull : Json → Bool
  | .null => true
  | _ => false

def isObject : Json → Bool
  | .object _ => true
  | _ => false

/-- the member of an object under a key; nothing below any other value -/
def member? (key : String) : Json → Option Json
  | .object members => Tree.get? key members
  | _ => none

/-! ## Equality of values -/

mutual
/-- equality of values: objects by key, lists by position -/
def same : Json → Json → Bool
  | .null, .null => true
  | .bool a, .bool b => a == b
  | .number a, .number b => a.same b
  | .string a, .string b => a == b
  | .list a, .list b => sameItems a b
  | .object a, .object b => a.length == b.length && sameMembers a b
  | _, _ => false
termination_by structural a => a

/-- equal lists: as many elements, each the same as its partner -/
def sameItems : List Json → List Json → Bool
  | [], [] => true
  | a :: as, b :: bs => same a b && sameItems as bs
  | _, _ => false
termination_by structural as => as

/-- whether every member is found, with the same value, in another object -/
def sameMembers : List (String × Json) → List (String × Json) → Bool
  | [], _ => true
  | (k, v) :: rest, other =>
    (match Tree.get? k other with
      | some w => same v w
      | none => false) && sameMembers rest other
termination_by structural members => members
end

/-! ## Unique keys -/

mutual
/-- no object inside the value writes one key twice -/
def WellFormed : Json → Prop
  | .list items => ItemsWellFormed items
  | .object members => MembersWellFormed members
  | _ => True
termination_by structural j => j

def ItemsWellFormed : List Json → Prop
  | [] => True
  | j :: rest => WellFormed j ∧ ItemsWellFormed rest
termination_by structural items => items

/-- every value is well formed and no key comes twice -/
def MembersWellFormed : List (String × Json) → Prop
  | [] => True
  | (k, v) :: rest => (Tree.get? k rest = none ∧ WellFormed v) ∧ MembersWellFormed rest
termination_by structural members => members
end

end Json

namespace Tree

/-- equality of objects, whatever the order of their keys -/
def same (a b : Tree) : Bool :=
  (Json.object a).same (.object b)

/-- no key is written twice, here or in any object further down -/
def WellFormed (tree : Tree) : Prop :=
  (Json.object tree).WellFormed

/-- writes another object's members over this one's, key by key at the top level only -/
def override (tree newer : Tree) : Tree :=
  insertAll tree newer

end Tree

end ContactSync
