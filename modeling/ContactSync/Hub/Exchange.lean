/-
What happens to a request on the line, and the reply that it comes to.

Text that is blank is no body. Other text is read as JSON; where that fails, an answer from 200 to 299 is unfit and any
other has no body. Answers from 200 to 299 are successes, all others remote errors.
-/
import ContactSync.Hub.Dialogue
import ContactSync.Json.Reader
import ContactSync.Text.Blank

namespace ContactSync

/-- what happens to a request on the line -/
inductive Exchange where
  | unreachable
  | dropped
  | answered (status : Nat) (text : String)
  deriving DecidableEq, Repr

namespace Exchange

def isSuccess (status : Nat) : Bool := 200 ≤ status && status ≤ 299

/-- the reply that an exchange comes to -/
def reply : Exchange → Reply
  | .unreachable => .error (.unanswered .unreachable)
  | .dropped => .error (.unanswered .dropped)
  | .answered status text =>
    let body := if Text.isBlank text then none else Json.parse? text
    if !isSuccess status then .error (.remote ⟨status, body⟩)
    else if Text.isBlank text || body.isSome then .ok body
    else .error (.unfit .notJson)

end Exchange

end ContactSync
