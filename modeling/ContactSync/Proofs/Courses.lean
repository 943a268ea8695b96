/-
The course of every operation with the hub.

Each operation on a customer, or on an entry and the customer that is loaded, comes to one of two things: it is refused
before anything is sent, or the reply to its last request decides. Only a creation sends two requests, when the hub
answers that the customer is there already and the caller wants it replaced.

One lemma for each operation says its whole course, over every row of replies.
-/
import ContactSync.Hub.Entry
import ContactSync.Proofs.Dialogues
import Mathlib.Tactic.SplitIfs

namespace ContactSync

open Dialogue (nextReply)

/-- **An id that is needed.** Without it nothing is sent. -/
theorem Action.against_requireId {σ α : Type} (r : Record) (kind : String) (next : String → Action σ α) (value : σ)
    (replies : List Reply) :
    (require (r.requireId kind) >>= next).against value replies = match r.id? with
      | some id => (next id).against value replies
      | none => ⟨.error (.fault (.missingIdentity kind)), value, [], replies⟩ := by
  cases hid : r.id? with
  | none => exact against_require_error (by rw [Record.requireId, hid]) next
  | some id => exact against_require_ok (by rw [Record.requireId, hid]) next

/-! ## Customers -/

namespace Customer

def creation (c : Customer) (n : Node) : Request :=
  (n.request .post ["customers"]).withBody (.object (c.body n))

def replacement (c : Customer) (n : Node) (id : String) : Request :=
  (n.request .put ["customers", id]).withBody (.object (c.replacementBody n))

def changeRequest (c : Customer) (n : Node) (id : String) : Request :=
  (n.request .patch ["customers", id]).withBody (.object c.partialDocument)

def withId (c : Customer) (id : String) : Customer :=
  c.mapRecord fun r => r.setUntracked "id" (.string id)

/-- the customer to replace when a creation meets this reply -/
def standing? (force : Bool) : Reply → Option String
  | .error (.remote e) => if e.isConflict && force then e.existingId? else none
  | _ => none

/-- what a creation fails with when there is no customer to replace -/
def creationFailure (force : Bool) : Failure → Failure
  | .remote e => if e.isConflict && force then .unfit .noExistingId else .remote e
  | failure => failure

variable (n : Node) (c : Customer) (replies : List Reply)

theorem against_put (id : String) : (put n id).against c replies =
    .decided (c.replacement n id) c (fun answer => (c.withId id).accept answer) replies := by
  rw [put, Action.against_get_then]
  exact Action.against_send_then _ fun answer left => Action.against_modify _ _ _

theorem against_create (force : Bool) :
    (create n force).against c replies = match standing? force (nextReply replies), nextReply replies with
      | some id, _ => ((put n id).against c replies.tail).after [c.creation n]
      | none, .ok answer => ⟨.ok (), c.accept answer, [c.creation n], replies.tail⟩
      | none, .error failure => ⟨.error (creationFailure force failure), c, [c.creation n], replies.tail⟩ := by
  rw [create, Action.against_get_then, Action.against_bind, Action.against_ask, Course.followedBy_ok]
  cases nextReply replies with
  | ok answer => rfl
  | error failure =>
    cases failure with
    | remote e =>
      cases hf : e.isConflict && force with
      | false => simp [standing?, creationFailure, hf, Course.after, creation]
      | true => cases hid : e.existingId? <;> simp [standing?, creationFailure, hf, hid, Course.after, creation]
    | _ => rfl

theorem against_replace :
    (replace n).against c replies = match c.id? with
      | some id => (put n id).against c replies
      | none => ⟨.error (.fault (.missingIdentity "Customer")), c, [], replies⟩ := by
  rw [replace, Action.against_get_then]
  exact Action.against_requireId _ _ _ _ _

theorem against_update :
    (update n).against c replies = match c.id? with
      | some id =>
        if c.isDirty then .decided (c.changeRequest n id) c (fun answer => c.accept answer) replies
        else ⟨.ok (), c, [], replies⟩
      | none => ⟨.error (.fault (.missingIdentity "Customer")), c, [], replies⟩ := by
  rw [update, Action.against_get_then, Action.against_requireId]
  cases c.id? with
  | none => rfl
  | some id =>
    dsimp only
    split_ifs
    · exact Action.against_send_then _ fun answer left => Action.against_modify _ _ _
    · exact Action.against_pure _ _ _

theorem against_persist (mode : PersistMode) (force : Bool) :
    (persist n mode force).against c replies = match c.id?, mode with
      | none, _ => (create n force).against c replies
      | some _, .update => (update n).against c replies
      | some _, .replace => (replace n).against c replies := by
  unfold persist
  rw [Action.against_get_then]
  cases c.id? with
  | none => rfl
  | some id => cases mode <;> rfl

end Customer

/-! ## Entries -/

namespace Entry

/-- where the entries of a kind are, below their customer -/
def place (kind : EntryKind) (customerId : String) : List String := ["customers", customerId, kind.collection]

/-- the elements of the loaded list -/
def stored (e : Entry) (c : Customer) : List Json := (loaded? e.kind c).getD []

/-- the customer without the elements that have an id -/
def without (kind : EntryKind) (id : String) (c : Customer) : Customer :=
  match loaded? kind c with
  | none => c
  | some items =>
    let kept := items.filter fun item => !hasId id item
    if kept.length ≠ items.length then store kind kept c else c

variable (n : Node) (e : Entry) (c : Customer) (replies : List Reply)

theorem against_create :
    (create n).against (e, c) replies = match c.id? with
      | some customerId =>
        .decided ((n.request .post (place e.kind customerId)).withBody (.object e.fullDocument)) (e, c)
          (fun answer => (e.accept answer, store e.kind (e.stored c ++ [.object (e.accept answer).attributes]) c))
          replies
      | none => ⟨.error (.fault (.missingIdentity "Customer")), (e, c), [], replies⟩ := by
  rw [create, Action.against_get_then]
  dsimp only
  rw [Action.against_requireId]
  cases c.id? with
  | none => rfl
  | some customerId => exact Action.against_send_then _ fun answer left => Action.against_set _ _ _

theorem against_replace :
    (replace n).against (e, c) replies = match c.id?, e.id? with
      | none, _ => ⟨.error (.fault (.missingIdentity "Customer")), (e, c), [], replies⟩
      | some _, none => ⟨.error (.fault (.missingIdentity e.kind.display)), (e, c), [], replies⟩
      | some customerId, some id => match (e.stored c).findIdx? (hasId id) with
        | none => ⟨.error (.fault (.notFound e.kind.display)), (e, c), [], replies⟩
        | some position =>
          .decided ((n.request .put (place e.kind customerId ++ [id])).withBody (.object e.fullDocument)) (e, c)
            (fun answer =>
              (e.accept answer, store e.kind ((e.stored c).set position (.object (e.accept answer).attributes)) c))
            replies := by
  rw [replace, Action.against_get_then]
  dsimp only
  rw [Action.against_requireId]
  cases c.id? with
  | none => rfl
  | some customerId =>
    dsimp only
    rw [Action.against_requireId]
    cases e.id? with
    | none => rfl
    | some id =>
      dsimp only
      rw [stored]
      cases ((loaded? e.kind c).getD []).findIdx? (hasId id) with
      | none => exact Action.against_throw _ _ _
      | some position => exact Action.against_send_then _ fun answer left => Action.against_set _ _ _

theorem against_remove :
    (remove n).against (e, c) replies = match c.id?, e.id? with
      | none, _ => ⟨.error (.fault (.missingIdentity "Customer")), (e, c), [], replies⟩
      | some _, none => ⟨.error (.fault (.missingIdentity e.kind.display)), (e, c), [], replies⟩
      | some customerId, some id =>
        .decided (n.request .delete (place e.kind customerId ++ [id])) (e, c)
          (fun _ => (e, without e.kind id c)) replies := by
  rw [remove, Action.against_get_then]
  dsimp only
  rw [Action.against_requireId]
  cases c.id? with
  | none => rfl
  | some customerId =>
    dsimp only
    rw [Action.against_requireId]
    cases e.id? with
    | none => rfl
    | some id =>
      refine Action.against_send_then _ fun answer left => ?_
      rw [without]
      cases loaded? e.kind c with
      | none => exact Action.against_pure _ _ _
      | some items =>
        dsimp only
        split_ifs
        · exact Action.against_set _ _ _
        · exact Action.against_pure _ _ _

end Entry

end ContactSync
