/-
What a failed operation leaves.

Every operation on customers and entries changes its records only when the last request has succeeded, so a failure
leaves them as they were, whichever step it came from (`Harmless`). A fault is found here, before anything is sent: the
hub answers with errors of its own, or not at all (`Faultless`).
-/
import ContactSync.Proofs.Courses

namespace ContactSync

open Dialogue (nextReply)

/-! ## Replies without faults -/

/-- no reply is a fault of records or queries: the hub and the way to it do not know these -/
def Faultless (replies : List Reply) : Prop := ∀ reply ∈ replies, ∀ fault, reply ≠ .error (.fault fault)

variable {replies : List Reply}

theorem Faultless.tail (h : Faultless replies) : Faultless replies.tail :=
  fun reply hr => h reply (List.mem_of_mem_tail hr)

theorem Faultless.nextReply (h : Faultless replies) (fault : Fault) : nextReply replies ≠ .error (.fault fault) := by
  cases replies with
  | nil => simp [Dialogue.nextReply]
  | cons reply replies => exact h reply List.mem_cons_self fault

/-! ## Harmless courses -/

variable {σ α : Type}

/-- a course that has failed leaves the value as it was, and with a fault it has sent nothing -/
structure Course.Harmless (course : Course σ α) (value : σ) (replies : List Reply) : Prop where
  unchanged : ∀ failure, course.outcome = .error failure → course.value = value
  unsent : Faultless replies → ∀ fault, course.outcome = .error (.fault fault) → course.sent = []

/-- whatever the value and the replies, a failure changes nothing, and with a fault nothing is sent -/
def Action.Harmless (action : Action σ α) : Prop :=
  ∀ value replies, (action.against value replies).Harmless value replies

namespace Course

variable {course : Course σ α} {value : σ}

theorem harmless_ok {a : α} (h : course.outcome = .ok a) : course.Harmless value replies := by
  have hno : ∀ failure, course.outcome ≠ .error failure := by
    intro failure hf
    rw [h] at hf
    cases hf
  exact ⟨fun failure hf => absurd hf (hno failure), fun _ fault hf => absurd hf (hno _)⟩

theorem harmless_refused (failure : Failure) (left : List Reply) :
    (⟨.error failure, value, [], left⟩ : Course σ α).Harmless value replies :=
  ⟨fun _ _ => rfl, fun _ _ _ => rfl⟩

theorem harmless_answered {failure : Failure} (h : Faultless replies → ∀ fault, failure ≠ .fault fault)
    (sent : List Request) (left : List Reply) :
    (⟨.error failure, value, sent, left⟩ : Course σ α).Harmless value replies := by
  refine ⟨fun _ _ => rfl, ?_⟩
  rintro hr fault ⟨⟩
  exact absurd rfl (h hr fault)

theorem harmless_decided_after (sent : List Request) {left : List Reply} (hleft : Faultless replies → Faultless left)
    (request : Request) (taken : Option Json → σ) :
    ((decided request value taken left).after sent).Harmless value replies := by
  unfold decided
  cases hr : nextReply left with
  | ok answer => exact harmless_ok rfl
  | error failure =>
    apply harmless_answered
    rintro hreplies fault rfl
    exact (hleft hreplies).nextReply fault hr

theorem harmless_decided (request : Request) (taken : Option Json → σ) :
    (decided request value taken replies).Harmless value replies :=
  harmless_decided_after [] id request taken

end Course

open Course (harmless_ok harmless_refused harmless_answered harmless_decided harmless_decided_after)

/-! ## The operations -/

namespace Customer

variable (n : Node)

theorem creationFailure_fault {force : Bool} {failure : Failure} {fault : Fault}
    (h : creationFailure force failure = .fault fault) : failure = .fault fault := by
  cases failure with
  | remote e => cases hf : e.isConflict && force <;> simp [creationFailure, hf] at h
  | _ => exact h

theorem harmless_put (id : String) : (put n id).Harmless := by
  intro c replies
  rw [against_put]
  exact harmless_decided _ _

theorem harmless_create (force : Bool) : (create n force).Harmless := by
  intro c replies
  rw [against_create]
  cases standing? force (nextReply replies) with
  | some id =>
    dsimp only
    rw [against_put]
    exact harmless_decided_after _ Faultless.tail _ _
  | none =>
    cases hr : nextReply replies with
    | ok answer => exact harmless_ok rfl
    | error failure =>
      apply harmless_answered
      intro hreplies fault hf
      exact hreplies.nextReply fault (hr.trans (congrArg _ (creationFailure_fault hf)))

theorem harmless_replace : (replace n).Harmless := by
  intro c replies
  rw [against_replace]
  cases c.id? with
  | none => exact harmless_refused _ _
  | some id => exact harmless_put n id c replies

theorem harmless_update : (update n).Harmless := by
  intro c replies
  rw [against_update]
  cases c.id? with
  | none => exact harmless_refused _ _
  | some id =>
    dsimp only
    split
    · exact harmless_decided _ _
    · exact harmless_ok rfl

theorem harmless_persist (mode : PersistMode) (force : Bool) : (persist n mode force).Harmless := by
  intro c replies
  rw [against_persist]
  cases c.id? with
  | none => exact harmless_create n force c replies
  | some id =>
    cases mode with
    | update => exact harmless_update n c replies
    | replace => exact harmless_replace n c replies

end Customer

namespace Entry

variable (n : Node)

theorem harmless_create : (create n).Harmless := by
  rintro ⟨e, c⟩ replies
  rw [against_create]
  cases c.id? with
  | none => exact harmless_refused _ _
  | some customerId => exact harmless_decided _ _

theorem harmless_replace : (replace n).Harmless := by
  rintro ⟨e, c⟩ replies
  rw [against_replace]
  cases c.id? with
  | none => exact harmless_refused _ _
  | some customerId =>
    cases e.id? with
    | none => exact harmless_refused _ _
    | some id =>
      dsimp only
      split
      · exact harmless_refused _ _
      · exact harmless_decided _ _

theorem harmless_remove : (remove n).Harmless := by
  rintro ⟨e, c⟩ replies
  rw [against_remove]
  cases c.id? with
  | none => exact harmless_refused _ _
  | some customerId =>
    cases e.id? with
    | none => exact harmless_refused _ _
    | some id => exact harmless_decided _ _

end Entry

/-- **A failed operation changes nothing.** Whatever the customer, the entry and the replies: after a failure both are
as they were, and with a fault, such as an id that is missing or an entry that is not there, nothing has been sent. -/
theorem operations_harmless (n : Node) :
    (∀ mode force, (Customer.persist n mode force).Harmless) ∧ (∀ force, (Customer.create n force).Harmless) ∧
    (Customer.replace n).Harmless ∧ (Customer.update n).Harmless ∧
    (Entry.create n).Harmless ∧ (Entry.replace n).Harmless ∧ (Entry.remove n).Harmless :=
  ⟨Customer.harmless_persist n, Customer.harmless_create n, Customer.harmless_replace n, Customer.harmless_update n,
    Entry.harmless_create n, Entry.harmless_replace n, Entry.harmless_remove n⟩

/-- a creation whose fallback is refused, and the replacement of an entry that the loaded customer does not hold -/
theorem operations_harmless_refused :
    let n : Node := ⟨.new "w" "t" "n1", "n1"⟩
    let draft : Customer := ⟨[("externalId", .string "x")], ⟨[("externalId", .string "x")]⟩⟩
    let body : Json := .object [("data", .object [("customer", .object [("id", .string "01")])])]
    let replies : List Reply := [.error (.remote ⟨409, some body⟩), .error (.remote ⟨500, none⟩)]
    let creation := (Customer.create n true).against draft replies
    let loaded : Customer := .ofSnapshot [("id", .string "01"), ("base", .object [("jobs", .list [.null])])]
    let job : Entry := .new .job [("id", .string "j1")]
    let replacement := (Entry.replace n).against (job, loaded) []
    (creation.outcome = .error (.remote ⟨500, none⟩) ∧ creation.sent.length = 2 ∧ creation.value = draft) ∧
    (replacement.outcome = .error (.fault (.notFound "Job")) ∧ replacement.value = (job, loaded) ∧
      replacement.sent = []) := by
  have hnone : Faultless [] := fun reply h => absurd h List.not_mem_nil
  refine ⟨⟨rfl, rfl, ?_⟩, rfl, ?_, ?_⟩
  · exact ((operations_harmless _).2.1 true _ _).unchanged (.remote ⟨500, none⟩) rfl
  · exact ((operations_harmless _).2.2.2.2.2.1 _ _).unchanged (.fault (.notFound "Job")) rfl
  · exact ((operations_harmless _).2.2.2.2.2.1 _ _).unsent hnone (.notFound "Job") rfl

end ContactSync
