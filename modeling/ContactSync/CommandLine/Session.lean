/-
A run of the command line tool.

Variables come from the environment and from a file of lines KEY=VALUE, the environment winning. The command line is
looked at first, the configuration next, and only then the hub is asked. A result is printed as pretty JSON with a line
end; nothing is printed when there is none and when the run fails.

- `Variables.ofFile`: the lines of the file.
- `Command.action`: what a command asks, and its result.
- `Session.dialogue`: the whole run, with its exit status and its output.
-/
import ContactSync.CommandLine.Arguments
import ContactSync.Hub.Customer

namespace ContactSync

/-! ## Variables -/

/-- names and values; of two of the same name the first counts -/
abbrev Variables := List (String × String)

namespace Variables

def get? (vs : Variables) (name : String) : Option String :=
  (vs.find? fun v => v.1 == name).map Prod.snd

/-- a row of characters without white space at its ends -/
def trimmed (cs : List Char) : List Char :=
  ((cs.dropWhile Text.isWhite).reverse.dropWhile Text.isWhite).reverse

def lines : List Char → List (List Char)
  | [] => [[]]
  | c :: rest =>
    if c = '\n' then [] :: lines rest
    else match lines rest with
      | line :: others => (c :: line) :: others
      | [] => [[c]]

/-- the variable that a line sets; a line that starts with # sets none -/
def ofLine? (line : List Char) : Option (String × String) :=
  match trimmed line with
  | '#' :: _ => none
  | cs =>
    match cs.dropWhile fun c => c != '=' with
    | '=' :: value =>
      some (String.ofList (trimmed (cs.takeWhile fun c => c != '=')), String.ofList (trimmed value))
    | _ => none

def ofFile (text : String) : Variables := (lines text.toList).filterMap ofLine?

end Variables

/-! ## Results -/

def Listing.report {α : Type} (attributes : α → Tree) (l : Listing α) : Json :=
  .object [("elements", .list (l.elements.map fun e => .object (attributes e))), ("page", l.page.toJson)]

/-- what a command asks of a node; its result, when it has one -/
def Command.action (n : Node) : Command → Action Unit (Option Json)
  | .customer id => return some (.object (← n.customer id).attributes)
  | .customers filter => return some ((← n.customers filter).report fun c => c.attributes)
  | .find field value page => do
    let criterion := (Field.named .customer field).equals (.text value)
    let query ← Action.require ((Query.new .customer).filter criterion)
    return some ((← n.searchPage query page).report fun c => c.attributes)
  | .events filter => return some ((← n.events filter).report fun e => e.attributes)
  | .delete id => do
    n.deleteCustomer id
    return none

/-- how a run ends -/
structure Outcome where
  status : Nat
  output : String
  deriving DecidableEq, Repr

namespace Session

/-- the variable that names a node for the command line -/
def nodeVariable : String := "CONTACTHUB_NODE"

def outcome : Except Failure (Option Json) → Outcome
  | .ok (some result) => ⟨0, result.pretty ++ "\n"⟩
  | .ok none => ⟨0, ""⟩
  | .error _ => ⟨1, ""⟩

/-- the whole run. The node is named by the command line, else by its variable in the environment, else by the
configuration -/
def dialogue (arguments : List String) (environment file : Variables) : Dialogue Outcome :=
  match Invocation.read none arguments with
  | .error .help => .done ⟨0, ""⟩
  | .error .refused => .done ⟨2, ""⟩
  | .ok invocation =>
    match Config.ofEnvironment fun name => (environment.get? name).or (file.get? name) with
    | .error _ => .done ⟨1, ""⟩
    | .ok config =>
      let node := ((invocation.node.or (environment.get? nodeVariable)).map (Node.mk config)).getD config.defaultNode
      ((invocation.command.action node).start ()).bind fun result => .done (outcome result.1)

end Session

end ContactSync
