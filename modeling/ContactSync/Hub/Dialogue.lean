/-
Dialogues with the hub.

A dialogue is a calculation that may send requests on its way: it is done, or it asks and goes on from whatever reply
comes back. It says nothing about how requests travel, so one dialogue can be held with a prepared row of replies, with
a model of the hub, or with the hub itself. A reply is the JSON body of a successful answer, which may have none, or a
failure.

An action is a dialogue about a local value that can fail. What it has done to the value before it fails stays done:
nothing is taken back.

- `Dialogue.hold`: the dialogue, given a way to send.
- `Dialogue.against`: the dialogue with a prepared row of replies; when they run out, empty successful answers.
- `Action.send`: one request that has to succeed.
-/
import ContactSync.Hub.Failure
import ContactSync.Hub.Request

namespace ContactSync

/-- what comes back for a request -/
abbrev Reply := Except Failure (Option Json)

/-- a calculation that may ask the hub on its way -/
inductive Dialogue (α : Type) : Type where
  | done (value : α)
  | ask (request : Request) (next : Reply → Dialogue α)

namespace Dialogue

def bind {α β : Type} : Dialogue α → (α → Dialogue β) → Dialogue β
  | .done a, f => f a
  | .ask request next, f => .ask request fun reply => bind (next reply) f

instance : Monad Dialogue where
  pure := .done
  bind := bind

@[simp] theorem bind_done {α β : Type} (a : α) (f : α → Dialogue β) : (Dialogue.done a).bind f = f a := rfl

@[simp] theorem bind_ask {α β : Type} (r : Request) (next : Reply → Dialogue α) (f : α → Dialogue β) :
    (Dialogue.ask r next).bind f = .ask r fun reply => (next reply).bind f := rfl

theorem bind_pure {α : Type} (d : Dialogue α) : d.bind .done = d := by
  induction d with
  | done a => rfl
  | ask r next ih => simp [ih]

theorem bind_assoc {α β γ : Type} (d : Dialogue α) (f : α → Dialogue β) (g : β → Dialogue γ) :
    (d.bind f).bind g = d.bind fun a => (f a).bind g := by
  induction d with
  | done a => rfl
  | ask r next ih => simp [ih]

instance : LawfulMonad Dialogue :=
  LawfulMonad.mk' Dialogue (fun d => bind_pure d) (fun _ _ => rfl) (fun d f g => bind_assoc d f g)

/-- asks and takes the reply as it is -/
def exchange (request : Request) : Dialogue Reply := .ask request .done

/-- holds the dialogue, given a way to send -/
def hold {m : Type → Type} [Monad m] {α : Type} (send : Request → m Reply) : Dialogue α → m α
  | .done a => pure a
  | .ask request next => do
    let reply ← send request
    hold send (next reply)

/-- the next of a row of replies; an empty successful answer when there is none -/
def nextReply (replies : List Reply) : Reply := replies.head?.getD (.ok none)

/-- holds the dialogue with a row of replies; answers the outcome, the requests in order, and the replies left over -/
def against {α : Type} : Dialogue α → List Reply → α × List Request × List Reply
  | .done a, replies => (a, [], replies)
  | .ask request next, replies =>
    let (a, sent, rest) := against (next (nextReply replies)) replies.tail
    (a, request :: sent, rest)

end Dialogue

/-- a dialogue about a local value, which can fail -/
abbrev Action (σ α : Type) := ExceptT Failure (StateT σ Dialogue) α

namespace Action

/-- holds the action about a value; answers its outcome and the value as it has become -/
def start {σ α : Type} (action : Action σ α) (value : σ) : Dialogue (Except Failure α × σ) :=
  action.run.run value

/-- asks and takes the reply as it is -/
def ask {σ : Type} (request : Request) : Action σ Reply :=
  ExceptT.mk fun value => (Dialogue.exchange request).bind fun reply => .done (.ok reply, value)

/-- takes the outcome of a calculation that can fail -/
def check {σ α : Type} (outcome : Except Failure α) : Action σ α :=
  ExceptT.mk fun value => .done (outcome, value)

/-- takes the outcome of a calculation on records or queries -/
def require {σ α : Type} (outcome : Except Fault α) : Action σ α :=
  check (outcome.mapError .fault)

/-- one request that has to succeed; answers its body -/
def send {σ : Type} (request : Request) : Action σ (Option Json) := do
  check (← ask request)

/-- one request that has to succeed with an object -/
def sendForTree {σ : Type} (request : Request) : Action σ Tree := do
  match ← send request with
  | some (.object tree) => return tree
  | some other => throw (.unfit (.notAnObject other))
  | none => throw (.unfit .empty)

end Action

end ContactSync
