/-
What persisting a customer sends, and what it leaves.

A customer without an id is created, and replaced instead under the id that a conflict names, when the caller wants that
(`Conflict`). One with an id is updated, which without pending changes sends nothing, or replaced. The reply to the last
request decides: a success settles the attributes with the keys of the answer over them, a failure leaves the customer
as it was (`Ends`).

Every request is stated with its method, address, headers, parameters and body (`Replaces`, `creation_eq`,
`changeRequest_eq`).

The body of a replacement is made from the stripped attributes, where a cleared time zone is already gone. It agrees
with the strip of the attributes whose time zone has been made the default one (`same_replacementBody`), since content
can be written before the strip or after it.
-/
import ContactSync.Proofs.Courses
import ContactSync.Proofs.Places
import ContactSync.Proofs.Requests
import ContactSync.Proofs.Stripped
import ContactSync.Record.Location

namespace ContactSync

open Dialogue (nextReply)

namespace Customer

/-! ## The body of a replacement -/

/-- the attributes, a cleared time zone made the default one -/
def zoned (c : Customer) : Tree :=
  match Tree.getDotted? "base.timezone" c.attributes with
  | some .null => Tree.setDotted "base.timezone" (.string "Europe/Rome") c.attributes
  | _ => c.attributes

theorem zoned_cases (c : Customer) (n : Node) :
    (c.zoned = Tree.setDotted "base.timezone" (.string "Europe/Rome") c.attributes ∧
      c.replacementBody n = Tree.setDotted "base.timezone" (.string "Europe/Rome") (c.body n)) ∨
    (c.zoned = c.attributes ∧ c.replacementBody n = c.body n) := by
  unfold zoned replacementBody
  cases Tree.getDotted? "base.timezone" c.attributes with
  | none => exact .inr ⟨rfl, rfl⟩
  | some zone =>
    cases zone with
    | null => exact .inl ⟨rfl, rfl⟩
    | _ => exact .inr ⟨rfl, rfl⟩

/-- **A replacement sends what is left of the attributes, a cleared time zone made the default one, with its node.** -/
theorem same_replacementBody {c : Customer} (hc : c.attributes.WellFormed) (n : Node) :
    (c.replacementBody n).same (Tree.insert "nodeId" (.string n.nodeId) c.zoned.stripped) = true := by
  have htext : ∀ s : String, (Json.string s).WellFormed := fun s => trivial
  have hbody : (c.body n).WellFormed := hc.stripped.insert (htext _) _
  rcases zoned_cases c n with ⟨hz, hr⟩ | ⟨hz, hr⟩
  · have hzoned : c.zoned.WellFormed := hz ▸ hc.setAt (htext _) _
    have hkeys : Dotted.components "base.timezone" = ["base", "timezone"] := by decide
    have hnode : ∀ t : Tree, (Tree.insert "nodeId" (.string n.nodeId) t).outline =
        t.outline.write ["nodeId"] (.string n.nodeId) := Tree.outline_setAt (List.cons_ne_nil "nodeId" []) _
    refine Tree.same_of_outline (hr ▸ hbody.setAt (htext _) _) (hzoned.stripped.insert (htext _) _) ?_
    rw [hr, hz, Tree.setDotted, Tree.setDotted, hkeys, Tree.outline_setAt (by simp), body, hnode, hnode,
      Tree.outline_stripped_setAt hc (htext _) rfl (by simp)]
    exact Outline.write_comm (by decide) (by decide)
  · rw [hz, hr]
    exact Json.same_refl hbody

/-! ## Requests -/

/-- a request that replaces the customer of an id by this one -/
structure Replaces (c : Customer) (n : Node) (id : String) (request : Request) : Prop where
  method : request.method = .put
  url : request.url = n.address ("/customers/" ++ id)
  headers : request.headers = n.credentials
  params : request.params = []
  body : ∃ body : Tree, request.body = some (.object body) ∧
    body.same (Tree.insert "nodeId" (.string n.nodeId) c.zoned.stripped) = true

theorem replaces_replacement {c : Customer} (hc : c.attributes.WellFormed) (n : Node) (id : String) :
    c.Replaces n id (c.replacement n id) := by
  rw [replacement, n.request_customer, Request.withBody_eq]
  exact ⟨rfl, rfl, rfl, rfl, _, rfl, same_replacementBody hc n⟩

/-- a creation posts the full document with its node -/
theorem creation_eq (c : Customer) (n : Node) : c.creation n =
    { method := .post, url := n.address "/customers", headers := n.credentials, params := [],
      body := some (.object (Tree.insert "nodeId" (.string n.nodeId) c.fullDocument)) } := by
  rw [creation, n.request_customers, Request.withBody_eq]
  rfl

/-- an update patches the customer of its id with the pending changes -/
theorem changeRequest_eq (c : Customer) (n : Node) (id : String) : c.changeRequest n id =
    { method := .patch, url := n.address ("/customers/" ++ id), headers := n.credentials, params := [],
      body := some (.object c.partialDocument) } := by
  rw [changeRequest, n.request_customer, Request.withBody_eq]

/-! ## Conflicts -/

/-- the reply names a customer that is there already, which the caller wants replaced -/
def Conflict (force : Bool) (reply : Reply) (id : String) : Prop :=
  ∃ e body, reply = .error (.remote e) ∧ e.status = 409 ∧ force = true ∧ e.body = some body ∧
    body.at? [.key "data", .key "customer", .key "id"] = some (.string id)

theorem existingId?_eq_some_iff {e : RemoteError} {id : String} : e.existingId? = some id ↔
    ∃ body, e.body = some body ∧ body.at? [.key "data", .key "customer", .key "id"] = some (.string id) := by
  have hat : ∀ (k : String) (rest : List Segment) (j : Json),
      j.at? (.key k :: rest) = (j.member? k).bind (Json.at? rest) := fun k rest j => by cases j <;> rfl
  have hend : Json.at? [] = some := rfl
  simp only [RemoteError.existingId?, Option.bind_eq_some_iff, hat, hend, Json.string?_eq_some_iff]
  grind

theorem standing?_eq_some_iff {force : Bool} {reply : Reply} {id : String} :
    standing? force reply = some id ↔ Conflict force reply id := by
  have hconflict : ∀ e : RemoteError, e.isConflict = true ↔ e.status = 409 := fun e => by
    rw [RemoteError.isConflict, beq_iff_eq, RemoteError.conflictStatus]
  constructor
  · intro h
    unfold standing? at h
    split at h
    · rename_i e
      split_ifs at h with hf
      rw [Bool.and_eq_true, hconflict] at hf
      obtain ⟨body, hb, hid⟩ := existingId?_eq_some_iff.1 h
      exact ⟨e, body, rfl, hf.1, hf.2, hb, hid⟩
    · cases h
  · rintro ⟨e, body, rfl, hs, hf, hb, hid⟩
    have he := existingId?_eq_some_iff.2 ⟨body, hb, hid⟩
    rw [standing?, (hconflict e).2 hs, hf]
    exact he

/-! ## Courses -/

/-- the customer that a success settles: these attributes, the keys of an answer that is an object written over them one
by one, and nothing pending -/
def settled (attributes : Tree) : Option Json → Customer
  | some (.object members) => ⟨members.foldl (fun t e => Tree.insert e.1 e.2 t) attributes, .empty⟩
  | _ => ⟨attributes, .empty⟩

/-- a course ends as its last reply says: a success settles these attributes, a failure leaves the customer as it was -/
def Ends (course : Course Customer Unit) (c : Customer) (attributes : Tree) : Reply → Prop
  | .ok answer => course.outcome = .ok () ∧ course.value = settled attributes answer
  | .error _ => (∃ failure, course.outcome = .error failure) ∧ course.value = c

variable {c : Customer} {n : Node} {replies : List Reply}

theorem accept_eq_settled (c : Customer) (answer : Option Json) : c.accept answer = settled c.attributes answer := by
  cases answer with
  | none => rfl
  | some j => cases j <;> rfl

theorem ends_decided {attributes : Tree} {taken : Option Json → Customer}
    (h : ∀ answer, taken answer = settled attributes answer) (request : Request) :
    Ends (.decided request c taken replies) c attributes (nextReply replies) := by
  unfold Course.decided
  cases nextReply replies with
  | ok answer => exact ⟨rfl, h answer⟩
  | error failure => exact ⟨⟨failure, rfl⟩, rfl⟩

theorem Ends.after {course : Course Customer Unit} {attributes : Tree} {reply : Reply}
    (h : Ends course c attributes reply) (sent : List Request) : Ends (course.after sent) c attributes reply := by
  cases reply <;> exact h

variable (n replies)

theorem course_put (hc : c.attributes.WellFormed) (id : String) :
    ∃ request, c.Replaces n id request ∧ ((put n id).against c replies).sent = [request] ∧
      Ends ((put n id).against c replies) c (Tree.insert "id" (.string id) c.attributes) (nextReply replies) := by
  have htaken : ∀ answer, (c.withId id).accept answer = settled (Tree.insert "id" (.string id) c.attributes) answer :=
    accept_eq_settled (c.withId id)
  rw [against_put]
  exact ⟨_, replaces_replacement hc n id, Course.sent_decided _ _ _ _, ends_decided htaken _⟩

/-- an update sends the pending changes, and nothing when there are none -/
theorem course_update {id : String} (hid : c.id? = some id) :
    if c.tracker.isEmpty then (update n).against c replies = ⟨.ok (), c, [], replies⟩
    else ((update n).against c replies).sent = [c.changeRequest n id] ∧
      Ends ((update n).against c replies) c c.attributes (nextReply replies) := by
  rw [against_update, hid, Record.isDirty]
  cases c.tracker.isEmpty with
  | true => rfl
  | false => exact ⟨Course.sent_decided _ _ _ _, ends_decided (accept_eq_settled c) _⟩

/-- a creation posts the full document; a conflict that names a customer to replace makes it send one more request -/
theorem course_create (hc : c.attributes.WellFormed) (force : Bool) :
    (∀ id, Conflict force (nextReply replies) id → ∃ request, c.Replaces n id request ∧
      ((create n force).against c replies).sent = [c.creation n, request] ∧
      Ends ((create n force).against c replies) c (Tree.insert "id" (.string id) c.attributes)
        (nextReply replies.tail)) ∧
    ((∀ id, ¬Conflict force (nextReply replies) id) →
      ((create n force).against c replies).sent = [c.creation n] ∧
      Ends ((create n force).against c replies) c c.attributes (nextReply replies)) := by
  rw [against_create]
  constructor
  · intro id h
    obtain ⟨request, hrequest, hsent, hends⟩ := course_put n replies.tail hc id
    rw [standing?_eq_some_iff.2 h]
    exact ⟨request, hrequest, congrArg (c.creation n :: ·) hsent, hends.after _⟩
  · intro h
    have hnone : standing? force (nextReply replies) = none :=
      Option.eq_none_iff_forall_ne_some.2 fun id hid => h id (standing?_eq_some_iff.1 hid)
    rw [hnone]
    cases nextReply replies with
    | ok answer => exact ⟨rfl, rfl, accept_eq_settled c answer⟩
    | error failure => exact ⟨rfl, ⟨_, rfl⟩, rfl⟩

/-- **Persisting a customer is exact over every row of replies.** Without an id the full document is posted with its
node, and when the first reply is a conflict that names a customer to replace, and then only, one more request replaces
that. With an id the pending changes are sent, if there are any, or the customer is replaced. The last reply decides. -/
theorem course_persist (hc : c.attributes.WellFormed) (n : Node) (mode : PersistMode) (force : Bool)
    (replies : List Reply) :
    let course := (persist n mode force).against c replies
    let first := nextReply replies
    let second := nextReply replies.tail
    let post : Request :=
      { method := .post, url := n.address "/customers", headers := n.credentials, params := [],
        body := some (.object (Tree.insert "nodeId" (.string n.nodeId) c.fullDocument)) }
    let patch (id : String) : Request :=
      { method := .patch, url := n.address ("/customers/" ++ id), headers := n.credentials, params := [],
        body := some (.object c.partialDocument) }
    match c.id?, mode with
    | none, _ =>
      (∀ id, Conflict force first id → ∃ put, c.Replaces n id put ∧ course.sent = [post, put] ∧
        Ends course c (Tree.insert "id" (.string id) c.attributes) second) ∧
      ((∀ id, ¬Conflict force first id) → course.sent = [post] ∧ Ends course c c.attributes first)
    | some id, .update =>
      if c.tracker.isEmpty then course = ⟨.ok (), c, [], replies⟩
      else course.sent = [patch id] ∧ Ends course c c.attributes first
    | some id, .replace => ∃ put, c.Replaces n id put ∧ course.sent = [put] ∧
        Ends course c (Tree.insert "id" (.string id) c.attributes) first := by
  intro course first second post patch
  have hcourse : course = _ := against_persist n c replies mode force
  rw [hcourse]
  cases hid : c.id? with
  | none =>
    have hcreate := course_create n replies hc force
    rw [creation_eq] at hcreate
    exact hcreate
  | some id =>
    cases mode with
    | update =>
      have hupdate := course_update n replies hid
      rw [changeRequest_eq] at hupdate
      exact hupdate
    | replace =>
      dsimp only
      rw [against_replace, hid]
      exact course_put n replies hc id

/-- a new customer whose time zone was cleared, and a conflict that names the one to replace -/
theorem course_persist_conflict :
    let n : Node := ⟨.new "w" "t" "n1", "n1"⟩
    let c : Customer := ⟨[("base", .object [("timezone", .null)]), ("externalId", .string "x")],
      ⟨[("base.timezone", .null)]⟩⟩
    let replies : List Reply :=
      [.error (.remote ⟨409, some (.object [("data", .object [("customer", .object [("id", .string "01")])])])⟩),
        .ok (some (.object [("externalId", .string "y")]))]
    let course := (persist n .update true).against c replies
    let headers := [("Authorization", "Bearer t"), ("Content-Type", "application/json")]
    let post : Request :=
      { method := .post, url := "https://api.contactlab.it/hub/v1/workspaces/w/customers", headers, params := [],
        body := some (.object [("externalId", .string "x"), ("nodeId", .string "n1")]) }
    let put : Request :=
      { method := .put, url := "https://api.contactlab.it/hub/v1/workspaces/w/customers/01", headers, params := [],
        body := some (.object [("externalId", .string "x"), ("nodeId", .string "n1"),
          ("base", .object [("timezone", .string "Europe/Rome")])]) }
    c.attributes.WellFormed ∧ Conflict true (nextReply replies) "01" ∧ c.Replaces n "01" put ∧
    course.sent = [post, put] ∧
    Ends course c (Tree.insert "id" (.string "01") c.attributes) (nextReply replies.tail) ∧
    course.value.attributes =
      [("base", .object [("timezone", .null)]), ("externalId", .string "y"), ("id", .string "01")] := by
  intro n c replies course headers post put
  have hc : c.attributes.WellFormed := by decide
  have hconflict : Conflict true (nextReply replies) "01" := ⟨_, _, rfl, rfl, rfl, rfl, rfl⟩
  obtain ⟨request, hreplaces, hsent, hends⟩ := (course_persist hc n .update true replies).1 "01" hconflict
  have hrun : course.sent = [post, put] := rfl
  obtain rfl : put = request := (List.cons.inj (List.cons.inj (hrun.symm.trans hsent)).2).1
  exact ⟨hc, hconflict, hreplaces, hrun, hends, rfl⟩

end Customer

end ContactSync
