/-
What can go wrong in an exchange with the hub.

- `ConfigFault`: the configuration does not name a workspace.
- `RemoteError`: an answer outside 200 to 299.
- `Unanswered`: no answer at all.
- `Unfit`: an answer that is not what was asked for.
- `Failure`: any of these, or a fault of the records and queries at hand.
-/
import ContactSync.Fault
import ContactSync.Json.Printer

namespace ContactSync

/-- a configuration that names no workspace -/
inductive ConfigFault where
  | missing (name : String)
  | invalidBaseUrl (url : String)
  deriving DecidableEq, Repr

def ConfigFault.message : ConfigFault → String
  | .missing name => name ++ " environment variable is required"
  | .invalidBaseUrl url => "Invalid CONTACTHUB_BASE_URL value: '" ++ url ++ "'"

/-- an answer outside 200 to 299, with its body when that is JSON -/
structure RemoteError where
  status : Nat
  body : Option Json

namespace RemoteError

/-- the status of an answer that says that the customer is there already -/
def conflictStatus : Nat := 409

/-- what the body says, or else the status -/
def message (e : RemoteError) : String :=
  ((e.body.bind (Json.member? "message")).bind Json.string?).getD ("HTTP status " ++ toString e.status)

def display (e : RemoteError) : String :=
  "remote error " ++ toString e.status ++ ": " ++ e.message

def isConflict (e : RemoteError) : Bool := e.status == conflictStatus

/-- the customer that is there already, when the body names it at data, customer, id -/
def existingId? (e : RemoteError) : Option String :=
  (((e.body.bind (Json.member? "data")).bind (Json.member? "customer")).bind (Json.member? "id")).bind Json.string?

end RemoteError

/-- why there is no answer -/
inductive Unanswered where
  | unreachable
  | dropped
  | reported (reason : String)
  deriving DecidableEq, Repr

def Unanswered.message : Unanswered → String
  | .unreachable => "the hub cannot be reached"
  | .dropped => "the connection was closed before an answer came"
  | .reported reason => reason

/-- how an answer misses what was asked for -/
inductive Unfit where
  | empty
  | notAnObject (body : Json)
  | noExistingId
  | notJson
  | notAPage
  | reported (reason : String)

def Unfit.message : Unfit → String
  | .empty => "empty body"
  | .notAnObject body => "expected an object, got " ++ body.text
  | .noExistingId => "conflict without an existing customer id"
  | .notJson => "the body is not JSON"
  | .notAPage => "the body is not a page"
  | .reported reason => reason

/-- why an operation with the hub did not succeed -/
inductive Failure where
  | fault (cause : Fault)
  | remote (error : RemoteError)
  | unanswered (cause : Unanswered)
  | config (cause : ConfigFault)
  | unfit (cause : Unfit)

namespace Failure

def message : Failure → String
  | .fault cause => "Engine error: " ++ cause.message
  | .remote error => error.display
  | .unanswered cause => "Transport error: " ++ cause.message
  | .config cause => "Configuration error: " ++ cause.message
  | .unfit cause => "Invalid response: " ++ cause.message

def isConflict : Failure → Bool
  | .remote error => error.isConflict
  | _ => false

end Failure

end ContactSync
