/-
Holding an action step by step.

An action held with a row of replies gives an outcome, the value as it has become, the requests in order and the replies
left over: its course. Whatever follows an action begins where that has ended (`against_bind`), so an operation is held
by holding its steps from left to right, and every kind of step has a lemma of its own.

Most operations change the value only after a last request that has to succeed. Then that request's reply decides the
whole course (`against_send_then`).
-/
import ContactSync.Hub.Dialogue

namespace ContactSync

namespace Dialogue

/-- what goes on with another dialogue leaves it the replies that are left over -/
theorem against_bind {α β : Type} (d : Dialogue α) (f : α → Dialogue β) (replies : List Reply) :
    (d.bind f).against replies =
      let (a, sent, left) := d.against replies
      let (b, more, left') := (f a).against left
      (b, sent ++ more, left') := by
  induction d generalizing replies with
  | done a => rfl
  | ask request next ih =>
    rw [bind_ask, against, against, ih]
    rfl

/-- a dialogue that goes on is held with the same way to send -/
theorem hold_bind {m : Type → Type} [Monad m] [LawfulMonad m] {α β : Type} (send : Request → m Reply)
    (d : Dialogue α) (f : α → Dialogue β) : (d.bind f).hold send = d.hold send >>= fun a => (f a).hold send := by
  induction d with
  | done a => rw [bind_done, hold, pure_bind]
  | ask request next ih => simp only [bind_ask, hold, LawfulMonad.bind_assoc, ih]

end Dialogue

open Dialogue (nextReply)

/-! ## Courses -/

/-- what an action has come to with a row of replies -/
structure Course (σ α : Type) where
  outcome : Except Failure α
  value : σ
  sent : List Request
  left : List Reply

variable {σ α β : Type}

/-- holds an action about a value with a row of replies -/
def Action.against (action : Action σ α) (value : σ) (replies : List Reply) : Course σ α :=
  let ((outcome, value), sent, left) := (action.start value).against replies
  ⟨outcome, value, sent, left⟩

namespace Course

/-- a course that other requests were sent before -/
def after (requests : List Request) (c : Course σ α) : Course σ α := { c with sent := requests ++ c.sent }

/-- the course when another action follows, which a failure prevents -/
def followedBy (c : Course σ α) (next : α → Action σ β) : Course σ β :=
  match c.outcome with
  | .ok a => ((next a).against c.value c.left).after c.sent
  | .error failure => ⟨.error failure, c.value, c.sent, c.left⟩

/-- the course that one request's reply decides: a success is taken, a failure leaves the value as it was -/
def decided (request : Request) (value : σ) (taken : Option Json → σ) (replies : List Reply) : Course σ Unit :=
  match nextReply replies with
  | .ok answer => ⟨.ok (), taken answer, [request], replies.tail⟩
  | .error failure => ⟨.error failure, value, [request], replies.tail⟩

variable {value : σ} {sent : List Request} {left : List Reply}

@[simp] theorem after_nil (c : Course σ α) : c.after [] = c := rfl

@[simp] theorem followedBy_ok (a : α) (next : α → Action σ β) :
    (⟨.ok a, value, sent, left⟩ : Course σ α).followedBy next = ((next a).against value left).after sent := rfl

@[simp] theorem followedBy_error (failure : Failure) (next : α → Action σ β) :
    (⟨.error failure, value, sent, left⟩ : Course σ α).followedBy next = ⟨.error failure, value, sent, left⟩ := rfl

theorem sent_decided (request : Request) (value : σ) (taken : Option Json → σ) (replies : List Reply) :
    (decided request value taken replies).sent = [request] := by
  unfold decided
  cases nextReply replies <;> rfl

theorem decided_ok {replies : List Reply} {answer : Option Json} (h : nextReply replies = .ok answer)
    (request : Request) (value : σ) (taken : Option Json → σ) :
    decided request value taken replies = ⟨.ok (), taken answer, [request], replies.tail⟩ := by
  rw [decided, h]

end Course

/-! ## The course of every kind of step -/

namespace Action

theorem start_bind (action : Action σ α) (next : α → Action σ β) (value : σ) :
    (action >>= next).start value = (action.start value).bind fun
      | (.ok a, value) => (next a).start value
      | (.error failure, value) => .done (.error failure, value) := by
  change Dialogue.bind _ _ = _
  congr 1
  funext x
  obtain ⟨outcome, value⟩ := x
  cases outcome <;> rfl

/-- **What follows an action begins where the action has ended.** -/
theorem against_bind (action : Action σ α) (next : α → Action σ β) (value : σ) (replies : List Reply) :
    (action >>= next).against value replies = (action.against value replies).followedBy next := by
  rw [against, start_bind, Dialogue.against_bind, against]
  obtain ⟨⟨outcome, value⟩, sent, left⟩ := (action.start value).against replies
  cases outcome with
  | ok a => rfl
  | error failure => simp [Dialogue.against]

variable (value : σ) (replies : List Reply)

@[simp] theorem against_pure (a : α) :
    (pure a : Action σ α).against value replies = ⟨.ok a, value, [], replies⟩ := rfl

@[simp] theorem against_throw (failure : Failure) :
    (throw failure : Action σ α).against value replies = ⟨.error failure, value, [], replies⟩ := rfl

@[simp] theorem against_get : (get : Action σ σ).against value replies = ⟨.ok value, value, [], replies⟩ := rfl

@[simp] theorem against_set (new : σ) :
    (set new : Action σ PUnit).against value replies = ⟨.ok ⟨⟩, new, [], replies⟩ := rfl

@[simp] theorem against_modify (f : σ → σ) :
    (modify f : Action σ PUnit).against value replies = ⟨.ok ⟨⟩, f value, [], replies⟩ := rfl

@[simp] theorem against_check (outcome : Except Failure α) :
    (check outcome : Action σ α).against value replies = ⟨outcome, value, [], replies⟩ := rfl

@[simp] theorem against_require (outcome : Except Fault α) :
    (require outcome : Action σ α).against value replies = ⟨outcome.mapError .fault, value, [], replies⟩ := rfl

@[simp] theorem against_ask (request : Request) :
    (ask request : Action σ Reply).against value replies =
      ⟨.ok (nextReply replies), value, [request], replies.tail⟩ := rfl

@[simp] theorem against_send (request : Request) :
    (send request : Action σ (Option Json)).against value replies =
      ⟨nextReply replies, value, [request], replies.tail⟩ := by
  rw [send, against_bind, against_ask, Course.followedBy_ok, against_check]
  rfl

theorem against_get_then (next : σ → Action σ β) :
    (get >>= next).against value replies = (next value).against value replies := by
  rw [against_bind, against_get, Course.followedBy_ok, Course.after_nil]

variable {value replies}

theorem against_require_ok {outcome : Except Fault α} {a : α} (h : outcome = .ok a) (next : α → Action σ β) :
    (require outcome >>= next).against value replies = (next a).against value replies := by
  rw [h, against_bind, against_require]
  exact Course.followedBy_ok a next

theorem against_require_error {outcome : Except Fault α} {fault : Fault} (h : outcome = .error fault)
    (next : α → Action σ β) :
    (require outcome >>= next).against value replies = ⟨.error (.fault fault), value, [], replies⟩ := by
  rw [h, against_bind, against_require]
  exact Course.followedBy_error _ next

/-- **A last request decides the course** when what follows it neither fails nor sends anything. -/
theorem against_send_then (request : Request) {next : Option Json → Action σ Unit} {taken : Option Json → σ}
    (h : ∀ answer left, (next answer).against value left = ⟨.ok (), taken answer, [], left⟩) :
    (send request >>= next).against value replies = .decided request value taken replies := by
  rw [against_bind, against_send, Course.decided]
  cases nextReply replies with
  | ok answer => rw [Course.followedBy_ok, h]; rfl
  | error failure => rfl

/-! ## Held by a server -/

/-- what follows an action is held where the action has ended -/
theorem hold_start_bind {m : Type → Type} [Monad m] [LawfulMonad m] (send : Request → m Reply) (action : Action σ α)
    (next : α → Action σ β) (value : σ) :
    ((action >>= next).start value).hold send = (action.start value).hold send >>= fun
      | (.ok a, value) => ((next a).start value).hold send
      | (.error failure, value) => pure (.error failure, value) := by
  rw [start_bind, Dialogue.hold_bind]
  congr 1
  funext x
  obtain ⟨outcome, value⟩ := x
  cases outcome <;> rfl

/-- holds an action about a value with a server that answers every request -/
def heldBy (serve : Request → Reply) (action : Action σ α) (value : σ) : Except Failure α × σ :=
  (action.start value).hold (m := Id) serve

theorem heldBy_bind (serve : Request → Reply) (action : Action σ α) (next : α → Action σ β) (value : σ) :
    (action >>= next).heldBy serve value = match action.heldBy serve value with
      | (.ok a, value) => (next a).heldBy serve value
      | (.error failure, value) => (.error failure, value) := by
  rw [heldBy, hold_start_bind, heldBy]
  obtain ⟨outcome, value⟩ : Except Failure α × σ := (action.start value).hold (m := Id) serve
  cases outcome <;> rfl

end Action

end ContactSync
