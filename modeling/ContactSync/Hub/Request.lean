/-
Requests to the hub.

A request carries its headers and its query parameters in the order in which they were set. A parameter that is set
again keeps its place, so no name comes twice.
-/
import ContactSync.Json.Basic

namespace ContactSync

/-- the methods that the hub knows -/
inductive Method where
  | get | post | put | patch | delete
  deriving DecidableEq, Repr

def Method.name : Method → String
  | .get => "GET"
  | .post => "POST"
  | .put => "PUT"
  | .patch => "PATCH"
  | .delete => "DELETE"

def Method.all : List Method := [.get, .post, .put, .patch, .delete]

/-- a request that is ready to be sent -/
structure Request where
  method : Method
  url : String
  headers : List (String × String)
  params : List (String × String)
  body : Option Json

namespace Request

def new (method : Method) (url : String) : Request := ⟨method, url, [], [], none⟩

def withHeader (r : Request) (name value : String) : Request :=
  { r with headers := r.headers ++ [(name, value)] }

def setParam (name value : String) : List (String × String) → List (String × String)
  | [] => [(name, value)]
  | (n, v) :: rest => if n = name then (n, value) :: rest else (n, v) :: setParam name value rest

/-- sets a parameter, in place when it is there already -/
def withParam (r : Request) (name value : String) : Request :=
  { r with params := setParam name value r.params }

/-- sets a parameter that has a value -/
def withParam? (r : Request) (name : String) (value : Option String) : Request :=
  match value with
  | some v => r.withParam name v
  | none => r

def withBody (r : Request) (body : Json) : Request := { r with body := some body }

def param? (r : Request) (name : String) : Option String :=
  (r.params.find? fun p => p.1 == name).map Prod.snd

/-- the value of a header, whose name may be written in any case -/
def header? (r : Request) (name : String) : Option String :=
  (r.headers.find? fun p => p.1.toLower == name.toLower).map Prod.snd

end Request

end ContactSync
