/-
Reading command lines.

A command takes flags and positional arguments in any order. A flag has one value, given after it or after an equals
sign; the value that follows a flag may not itself look like a flag. A flag comes at most once, unless it takes a list,
whose values are split at commas. After two dashes everything is positional. Arguments are read from left to right, and
reading stops at the first one that does not fit or that asks for help; what is missing shows only at the end.

- `Arguments.read`: the flags and positionals of one command.
- `Invocation.read`: a whole command line.
-/
import ContactSync.Hub.Listing

namespace ContactSync

/-- why a command line is not run -/
inductive Usage where
  | help
  | refused
  deriving DecidableEq, Repr

/-- what the value of a flag has to be -/
inductive FlagKind where
  | text
  | number
  | texts
  deriving DecidableEq, Repr

/-- the flags and the number of positional arguments of a command -/
structure Grammar where
  flags : List (String × FlagKind)
  positionals : Nat

/-- what a command line has given so far -/
structure Arguments where
  flags : List (String × String)
  positionals : List String
  deriving Repr

namespace Arguments

def empty : Arguments := ⟨[], []⟩

def flag? (a : Arguments) (name : String) : Option String :=
  (a.flags.find? fun f => f.1 == name).map Prod.snd

/-- the number that a text writes: digits, with or without a plus, below 2^64 -/
def number? (text : String) : Option Nat :=
  let digits := match text.toList with
    | '+' :: rest => rest
    | cs => cs
  if digits.isEmpty || !digits.all Char.isDigit then none
  else
    let n := digits.foldl (fun n c => n * 10 + (c.toNat - '0'.toNat)) 0
    if n < Double.twoTo 64 then some n else none

def numberFlag? (a : Arguments) (name : String) : Option Nat := (a.flag? name).bind number?

/-- the pieces of a text between its commas -/
def commaPieces : List Char → List (List Char)
  | [] => [[]]
  | c :: rest =>
    if c = ',' then [] :: commaPieces rest
    else match commaPieces rest with
      | piece :: others => (c :: piece) :: others
      | [] => [[c]]

/-- all values of a flag that takes lists -/
def textsFlag (a : Arguments) (name : String) : List String :=
  (a.flags.filter fun f => f.1 == name).flatMap fun f => (commaPieces f.2.toList).map String.ofList

/-- one more flag, when it fits -/
def addFlag (g : Grammar) (a : Arguments) (name value : String) : Except Usage Arguments :=
  match (g.flags.find? fun f => f.1 == name).map Prod.snd with
  | none => .error .refused
  | some .texts => .ok { a with flags := a.flags ++ [(name, value)] }
  | some kind =>
    if (a.flag? name).isSome || (kind = .number && (number? value).isNone) then .error .refused
    else .ok { a with flags := a.flags ++ [(name, value)] }

/-- one more positional argument, when there is room -/
def addPositional (g : Grammar) (a : Arguments) (value : String) : Except Usage Arguments :=
  if a.positionals.length < g.positionals then .ok { a with positionals := a.positionals ++ [value] }
  else .error .refused

def looksLikeFlag (argument : String) : Bool :=
  match argument.toList with
  | '-' :: _ :: _ => true
  | _ => false

/-- the name of a flag and the value after its equals sign -/
def splitFlag (argument : List Char) : String × Option String :=
  (String.ofList (argument.takeWhile fun c => c != '='),
    match argument.dropWhile fun c => c != '=' with
    | '=' :: value => some (String.ofList value)
    | _ => none)

/-- one argument: it is read, or it is a flag that still waits for its value -/
def readOne (g : Grammar) (a : Arguments) (argument : String) : Except Usage (Arguments × Option String) :=
  match argument.toList with
  | '-' :: '-' :: rest =>
    match splitFlag rest with
    | ("help", none) => .error .help
    | (name, some value) => (addFlag g a name value).map fun a => (a, none)
    | (name, none) => if g.flags.any fun f => f.1 == name then .ok (a, some name) else .error .refused
  | ['-', 'h'] => .error .help
  | '-' :: _ :: _ => .error .refused
  | _ => (addPositional g a argument).map fun a => (a, none)

/-- the arguments of one command; the flag that waits for its value comes first -/
def read (g : Grammar) (a : Arguments) : Option String → List String → Except Usage Arguments
  | none, [] => if a.positionals.length = g.positionals then .ok a else .error .refused
  | some _, [] => .error .refused
  | some name, value :: rest =>
    if looksLikeFlag value then .error .refused
    else match addFlag g a name value with
      | .ok a => read g a none rest
      | .error u => .error u
  | none, argument :: rest =>
    if argument = "--" then
      match rest.foldlM (addPositional g) a with
      | .ok a => if a.positionals.length = g.positionals then .ok a else .error .refused
      | .error u => .error u
    else match readOne g a argument with
      | .ok (a, waiting) => read g a waiting rest
      | .error u => .error u

end Arguments

/-! ## Commands -/

/-- what can be asked of a workspace from the command line -/
inductive Command where
  | customer (id : String)
  | customers (filter : CustomerFilter)
  | find (field value : String) (page : Nat)
  | events (filter : EventFilter)
  | delete (id : String)

namespace Command

/-- the flags and positionals of each command -/
def grammar? : String → Option Grammar
  | "customer" => some ⟨[], 1⟩
  | "customers" => some ⟨[("external-id", .text), ("page", .number), ("size", .number), ("fields", .texts)], 0⟩
  | "find" => some ⟨[("field", .text), ("equals", .text), ("page", .number)], 0⟩
  | "events" => some ⟨[("type", .text), ("page", .number)], 1⟩
  | "delete" => some ⟨[], 1⟩
  | _ => none

/-- the command of a name with its arguments -/
def ofArguments? (name : String) (a : Arguments) : Option Command :=
  match name, a.positionals with
  | "customer", [id] => some (.customer id)
  | "customers", [] =>
    some (.customers ⟨a.flag? "external-id", a.numberFlag? "page", a.numberFlag? "size", a.textsFlag "fields"⟩)
  | "find", [] => do
    return .find (← a.flag? "field") (← a.flag? "equals") ((a.numberFlag? "page").getD 0)
  | "events", [id] =>
    some (.events { EventFilter.ofCustomer id with type := a.flag? "type", page := a.numberFlag? "page" })
  | "delete", [id] => some (.delete id)
  | _, _ => none

def read (name : String) (rest : List String) : Except Usage Command :=
  match grammar? name with
  | none => .error .refused
  | some g =>
    match Arguments.read g .empty none rest with
    | .error u => .error u
    | .ok a =>
      match ofArguments? name a with
      | some command => .ok command
      | none => .error .refused

end Command

/-- a command and the node that it is to act for, when the command line names one -/
structure Invocation where
  node : Option String
  command : Command

namespace Invocation

/-- asking for help on a command that there is, or on none -/
def readHelp : List String → Usage
  | [] => .help
  | ["help"] => .help
  | [name] => if (Command.grammar? name).isSome then .help else .refused
  | _ => .refused

/-- a whole command line: the node, if any, before the command -/
def read (node : Option String) : List String → Except Usage Invocation
  | [] => .error .refused
  | argument :: rest =>
    match argument.toList with
    | '-' :: '-' :: name =>
      match Arguments.splitFlag name, node with
      | ("help", none), _ => .error .help
      | ("node", some value), none => read (some value) rest
      | ("node", none), none =>
        match rest with
        | value :: more => if Arguments.looksLikeFlag value then .error .refused else read (some value) more
        | [] => .error .refused
      | _, _ => .error .refused
    | ['-', 'h'] => .error .help
    | '-' :: _ :: _ => .error .refused
    | _ =>
      if argument = "help" then .error (readHelp rest)
      else (Command.read argument rest).map (Invocation.mk node)

end Invocation

end ContactSync
