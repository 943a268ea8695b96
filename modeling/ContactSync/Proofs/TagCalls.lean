/-
Calls that add and remove manual tags.

A call reads the whole list of manual tags and writes it back, so it takes a hub that remembers. All that is asked of
the hub is that it answers a GET with the customer it stores and puts the list of a PATCH at tags.manual (`Stores`).
A call then changes the list that is stored as its `effect` says (`listed_make`), and a run of calls is a run of effects
(`listed_makeAll`).

One effect decides whether its own tag is in the list, keeps every other element where it stands among the others, and
never makes a tag more frequent than it was, or than once. Each of the three goes over to runs by induction.

- `TagCall.Obeys`: what one call has to do.
- `TagCall.calls_as_set_operations`: every call after any run obeys, and what the run has made of the list.
-/
import ContactSync.Hub.Tags
import ContactSync.Proofs.Dialogues
import ContactSync.Proofs.Lens
import ContactSync.Proofs.Requests
import Mathlib.Data.Set.Insert

namespace ContactSync

/-! ## Held by a hub that remembers -/

section Hub

variable {H σ α β : Type}

/-- a hub that also keeps the requests that reach it -/
def recorded (serve : Request → StateM H Reply) (request : Request) : StateM (H × List Request) Reply :=
  fun (hub, sent) =>
    let (reply, hub) := serve request hub
    (reply, hub, sent ++ [request])

namespace Action

/-- holds an action about a value with a hub that keeps the requests -/
def heldIn (serve : Request → StateM H Reply) (action : Action σ α) (value : σ) (state : H × List Request) :
    (Except Failure α × σ) × H × List Request :=
  (action.start value).hold (recorded serve) state

variable (serve : Request → StateM H Reply) (value : σ) (state : H × List Request)

theorem heldIn_bind (action : Action σ α) (next : α → Action σ β) :
    (action >>= next).heldIn serve value state = match action.heldIn serve value state with
      | ((.ok a, value), state) => (next a).heldIn serve value state
      | ((.error failure, value), state) => ((.error failure, value), state) := by
  rw [heldIn, hold_start_bind, heldIn]
  simp only [bind, StateT.bind]
  obtain ⟨⟨outcome, value⟩, state⟩ : (Except Failure α × σ) × H × List Request :=
    (action.start value).hold (recorded serve) state
  cases outcome <;> rfl

theorem heldIn_send (request : Request) : (send request : Action σ (Option Json)).heldIn serve value state =
    (((serve request state.1).1, value), (serve request state.1).2, state.2 ++ [request]) := rfl

end Action

/-- a hub that stores the customer at a place: it answers with the customer, and writes the manual tags it is sent -/
structure Stores (serve : Request → StateM H Reply) (place : String) (stored : H → Tree) : Prop where
  fetch : ∀ (request : Request) (hub : H), request.method = .get → request.url = place →
    ∃ hub', serve request hub = (.ok (some (.object (stored hub))), hub') ∧ stored hub' = stored hub
  patch : ∀ (request : Request) (hub : H) (tags : List Json), request.method = .patch → request.url = place →
    request.body = some (.object [("tags", .object [("manual", .list tags)])]) →
    ∃ answer hub', serve request hub = (.ok answer, hub') ∧
      (stored hub').at? ["tags", "manual"] = some (.list tags)

/-- a hub with one customer, whose manual tags it writes -/
def oneCustomer (place : String) (request : Request) : StateM Tree Reply := fun customer =>
  if request.url ≠ place then (.ok none, customer)
  else match request.method, (request.body.bind Json.object?).bind (Tree.at? ["tags", "manual"]) with
    | .get, _ => (.ok (some (.object customer)), customer)
    | .patch, some tags => (.ok none, customer.setAt ["tags", "manual"] tags)
    | _, _ => (.ok none, customer)

theorem stores_oneCustomer (place : String) : Stores (oneCustomer place) place fun customer => customer where
  fetch := by
    rintro ⟨method, url, headers, params, body⟩ customer rfl rfl
    exact ⟨customer, by simp [oneCustomer], rfl⟩
  patch := by
    rintro ⟨method, url, headers, params, body⟩ customer tags rfl rfl rfl
    exact ⟨none, customer.setAt ["tags", "manual"] (.list tags), by simp [oneCustomer, Tree.at?, Json.object?],
      Tree.at?_setAt_self (by simp) _ _⟩

end Hub

/-! ## Lists of tags -/

namespace Tags

/-- the list that stands at tags.manual; none when nothing or something else stands there -/
def listed (customer : Tree) : List Json :=
  match customer.at? ["tags", "manual"] with
  | some (.list items) => items
  | _ => []

/-- the texts among the elements -/
def texts (tags : List Json) : Set String := {text | .string text ∈ tags}

/-- the list without a tag, whether it was there or not -/
def without (tag : String) (tags : List Json) : List Json := tags.filter fun item => !isTag tag item

theorem manual_eq_listed (customer : Tree) : manual customer = listed customer := by
  have hpath : Tree.getDotted? "tags.manual" customer = customer.at? ["tags", "manual"] := rfl
  rw [manual, hpath, listed]
  cases customer.at? ["tags", "manual"] with
  | none => rfl
  | some v => cases v <;> rfl

theorem isTag_iff {tag : String} {item : Json} : isTag tag item = true ↔ item = .string tag := by
  rw [isTag, beq_iff_eq, Json.string?_eq_some_iff]

variable {tag : String} {tags : List Json}

theorem any_isTag_iff : tags.any (isTag tag) = true ↔ .string tag ∈ tags := by
  simp [List.any_eq_true, isTag_iff]

theorem added_of_mem (h : .string tag ∈ tags) : added tag tags = tags := if_pos (any_isTag_iff.2 h)

theorem added_of_notMem (h : .string tag ∉ tags) : added tag tags = tags ++ [.string tag] :=
  if_neg (mt any_isTag_iff.1 h)

theorem mem_added (tag : String) (tags : List Json) : .string tag ∈ added tag tags := by
  by_cases h : .string tag ∈ tags
  · rwa [added_of_mem h]
  · rw [added_of_notMem h]
    exact List.mem_append_right _ List.mem_cons_self

/-- as many elements as before are left exactly when the tag was not among them -/
theorem length_without_eq_iff : (without tag tags).length = tags.length ↔ .string tag ∉ tags := by
  rw [without, List.length_filter_eq_length_iff]
  constructor
  · intro hall hmem
    exact absurd (hall _ hmem) (by rw [isTag_iff.2 rfl]; exact Bool.false_ne_true)
  · intro hmem item hi
    rw [Bool.not_eq_true', Bool.eq_false_iff, ne_eq, isTag_iff]
    exact ne_of_mem_of_not_mem hi hmem

theorem removed?_of_mem (h : .string tag ∈ tags) : removed? tag tags = some (without tag tags) :=
  if_neg fun hlen => length_without_eq_iff.1 hlen h

theorem removed?_of_notMem (h : .string tag ∉ tags) : removed? tag tags = none :=
  if_pos (length_without_eq_iff.2 h)

theorem without_of_notMem (h : .string tag ∉ tags) : without tag tags = tags :=
  List.filter_sublist.eq_of_length (length_without_eq_iff.2 h)

theorem texts_added : texts (added tag tags) = insert tag (texts tags) := by
  by_cases h : .string tag ∈ tags
  · have hmem : tag ∈ texts tags := h
    rw [added_of_mem h, Set.insert_eq_of_mem hmem]
  · ext text
    simp [added_of_notMem h, texts, or_comm]

theorem texts_without : texts (without tag tags) = texts tags \ {tag} := by
  ext text
  simp [texts, without, isTag, Json.string?]

end Tags

/-! ## Calls -/

/-- a call about a manual tag -/
inductive TagCall where
  | add (tag : String)
  | remove (tag : String)
  deriving DecidableEq, Repr

namespace TagCall

open Tags (listed texts)

def tag : TagCall → String
  | .add tag => tag
  | .remove tag => tag

/-- what a call makes of the list -/
def effect : TagCall → List Json → List Json
  | .add tag => Tags.added tag
  | .remove tag => Tags.without tag

/-- what a call makes of the set of texts -/
def onSet : TagCall → Set String → Set String
  | .add tag, set => insert tag set
  | .remove tag, set => set \ {tag}

def action (n : Node) (id : String) : TagCall → Action Unit Unit
  | .add tag => n.addTag id tag
  | .remove tag => n.removeTag id tag

/-! ## One effect -/

theorem texts_effect (call : TagCall) (tags : List Json) : texts (call.effect tags) = call.onSet (texts tags) := by
  cases call with
  | add tag => exact Tags.texts_added
  | remove tag => exact Tags.texts_without

/-- a call keeps the elements that are not its tag, as often and in the order in which they stood -/
theorem filter_effect {keeps : Json → Bool} {call : TagCall} (h : keeps (.string call.tag) = false) (tags : List Json) :
    (call.effect tags).filter keeps = tags.filter keeps := by
  cases call with
  | add tag =>
    rw [effect, Tags.added]
    split_ifs
    · rfl
    · rw [List.filter_append, List.filter_singleton, show keeps (.string tag) = false from h]
      exact List.append_nil _
  | remove tag =>
    rw [effect, Tags.without, List.filter_filter]
    refine List.filter_congr fun item _ => ?_
    by_cases hi : Tags.isTag tag item = true
    · rw [Tags.isTag_iff.1 hi, show keeps (.string tag) = false from h, Bool.false_and]
    · rw [Bool.eq_false_iff.2 hi, Bool.not_false, Bool.and_true]

/-- a call makes no tag more frequent, unless the tag was missing -/
theorem countP_effect (call : TagCall) (tag : String) (tags : List Json) :
    (call.effect tags).countP (Tags.isTag tag) ≤ max 1 (tags.countP (Tags.isTag tag)) := by
  cases call with
  | add other =>
    by_cases h : .string other ∈ tags
    · rw [effect, Tags.added_of_mem h]
      exact Nat.le_max_right _ _
    · rw [effect, Tags.added_of_notMem h, List.countP_append]
      by_cases ht : tag = other
      · subst ht
        have hnone : tags.countP (Tags.isTag tag) = 0 := by
          rw [List.countP_eq_zero]
          exact fun item hi heq => h (Tags.isTag_iff.1 heq ▸ hi)
        rw [hnone, Nat.zero_add]
        exact Nat.le_trans List.countP_le_length (Nat.le_max_left _ _)
      · have hother : [Json.string other].countP (Tags.isTag tag) = 0 := by
          simp [Tags.isTag_iff, Ne.symm ht]
        rw [hother, Nat.add_zero]
        exact Nat.le_max_right _ _
  | remove other => exact Nat.le_trans List.filter_sublist.countP_le (Nat.le_max_right _ _)

/-! ## Runs of effects -/

def effects (calls : List TagCall) (tags : List Json) : List Json :=
  calls.foldl (fun tags call => call.effect tags) tags

theorem texts_effects (calls : List TagCall) (tags : List Json) :
    texts (effects calls tags) = calls.foldl (fun set call => call.onSet set) (texts tags) := by
  induction calls generalizing tags with
  | nil => rfl
  | cons call calls ih =>
    rw [effects, List.foldl_cons, List.foldl_cons, ← texts_effect]
    exact ih _

theorem filter_effects {keeps : Json → Bool} {calls : List TagCall}
    (h : ∀ call ∈ calls, keeps (.string call.tag) = false) (tags : List Json) :
    (effects calls tags).filter keeps = tags.filter keeps := by
  induction calls generalizing tags with
  | nil => rfl
  | cons call calls ih =>
    rw [List.forall_mem_cons] at h
    exact (ih h.2 _).trans (filter_effect h.1 tags)

theorem countP_effects (calls : List TagCall) (tag : String) (tags : List Json) :
    (effects calls tags).countP (Tags.isTag tag) ≤ max 1 (tags.countP (Tags.isTag tag)) := by
  induction calls generalizing tags with
  | nil => exact Nat.le_max_right _ _
  | cons call calls ih => exact Nat.le_trans (ih _) (Nat.max_le.2 ⟨Nat.le_max_left _ _, countP_effect call tag tags⟩)

/-! ## Calls to a hub -/

section Calls

variable {H : Type}

/-- what a call has come to -/
structure Made (H : Type) where
  outcome : Except Failure Unit
  sent : List Request
  hub : H

variable (serve : Request → StateM H Reply) (n : Node) (id : String)

def make (call : TagCall) (hub : H) : Made H :=
  let ((outcome, _), hub, sent) := (call.action n id).heldIn serve () (hub, [])
  ⟨outcome, sent, hub⟩

/-- the hub after a row of calls, of which some may have failed -/
def makeAll (calls : List TagCall) (hub : H) : H := calls.foldl (fun hub call => (call.make serve n id hub).hub) hub

def fetching : Request :=
  { method := .get, url := n.address ("/customers/" ++ id), headers := n.credentials, params := [], body := none }

def writing (tags : List Json) : Request :=
  { method := .patch, url := n.address ("/customers/" ++ id), headers := n.credentials, params := [],
    body := some (.object [("tags", .object [("manual", .list tags)])]) }

theorem writing_eq (tags : List Json) :
    (n.request .patch ["customers", id]).withBody (Tags.document tags) = writing n id tags := by
  rw [n.request_customer, Request.withBody_eq]
  rfl

/-- what a call has to do when these are the manual tags before and after it -/
def Obeys (before after : List Json) (made : Made H) : TagCall → Prop
  | .add tag =>
    made.outcome = .ok () ∧ made.sent = [fetching n id, writing n id after] ∧
      (.string tag ∈ before → after = before) ∧ (.string tag ∉ before → after = before ++ [.string tag])
  | .remove tag =>
    (.string tag ∈ before →
      made.outcome = .ok () ∧ made.sent = [fetching n id, writing n id after] ∧
        after = before.filter fun item => item.string? != some tag) ∧
    (.string tag ∉ before →
      made.outcome = .error (.fault (.notFound ("Tag '" ++ tag ++ "'"))) ∧ made.sent = [fetching n id] ∧
        after = before)

variable {serve n id} {stored : H → Tree} (h : Stores serve (n.address ("/customers/" ++ id)) stored)
include h

/-- an action that fetches the tags first goes on with what is stored -/
theorem heldIn_manualTags_bind (hub : H) :
    ∃ hub', stored hub' = stored hub ∧ ∀ next : List Json → Action Unit Unit,
      (n.manualTags id >>= next).heldIn serve () (hub, []) =
        (next (listed (stored hub))).heldIn serve () (hub', [fetching n id]) := by
  obtain ⟨hub', hreply, hstored⟩ := h.fetch (fetching n id) hub rfl rfl
  refine ⟨hub', hstored, fun next => ?_⟩
  have hrequest : n.request .get ["customers", id] = fetching n id := n.request_customer .get id
  rw [← Tags.manual_eq_listed, Action.heldIn_bind, Node.manualTags, Action.heldIn_bind, Node.customer,
    Action.heldIn_bind, Action.sendForTree, Action.heldIn_bind, Action.heldIn_send, hrequest, hreply]
  rfl

theorem heldIn_writeTags (tags : List Json) (hub : H) (sent : List Request) :
    ∃ hub', listed (stored hub') = tags ∧
      (n.writeTags id tags).heldIn serve () (hub, sent) = ((.ok (), ()), hub', sent ++ [writing n id tags]) := by
  obtain ⟨answer, hub', hreply, hstored⟩ := h.patch (writing n id tags) hub tags rfl rfl rfl
  refine ⟨hub', by rw [listed, hstored], ?_⟩
  rw [Node.writeTags, Action.heldIn_bind, Action.heldIn_send, writing_eq, hreply]
  rfl

/-- a call that fetches the tags and goes on by writing others has sent the two requests, and the others are stored -/
theorem make_writes {call : TagCall} {next : List Json → Action Unit Unit} {hub : H} {tags : List Json}
    (hcall : call.action n id = n.manualTags id >>= next) (hnext : next (listed (stored hub)) = n.writeTags id tags) :
    ∃ hub', listed (stored hub') = tags ∧
      call.make serve n id hub = ⟨.ok (), [fetching n id, writing n id tags], hub'⟩ := by
  obtain ⟨read, -, hread⟩ := heldIn_manualTags_bind h hub
  obtain ⟨hub', hlisted, hwrite⟩ := heldIn_writeTags h tags read [fetching n id]
  refine ⟨hub', hlisted, ?_⟩
  rw [make, hcall, hread, hnext, hwrite]
  rfl

theorem make_add (tag : String) (hub : H) :
    ∃ hub', listed (stored hub') = Tags.added tag (listed (stored hub)) ∧
      (add tag).make serve n id hub =
        ⟨.ok (), [fetching n id, writing n id (Tags.added tag (listed (stored hub)))], hub'⟩ :=
  make_writes h rfl rfl

theorem make_remove_of_mem {tag : String} {hub : H} (hmem : .string tag ∈ listed (stored hub)) :
    ∃ hub', listed (stored hub') = Tags.without tag (listed (stored hub)) ∧
      (remove tag).make serve n id hub =
        ⟨.ok (), [fetching n id, writing n id (Tags.without tag (listed (stored hub)))], hub'⟩ :=
  make_writes h rfl (by rw [Tags.removed?_of_mem hmem])

theorem make_remove_of_notMem {tag : String} {hub : H} (hmem : .string tag ∉ listed (stored hub)) :
    ∃ hub', stored hub' = stored hub ∧
      (remove tag).make serve n id hub =
        ⟨.error (.fault (.notFound ("Tag '" ++ tag ++ "'"))), [fetching n id], hub'⟩ := by
  obtain ⟨read, hstored, hread⟩ := heldIn_manualTags_bind h hub
  refine ⟨read, hstored, ?_⟩
  rw [make, action, Node.removeTag, hread, Tags.removed?_of_notMem hmem]
  rfl

/-- **A call changes the stored list as its effect says.** -/
theorem listed_make (call : TagCall) (hub : H) :
    listed (stored (call.make serve n id hub).hub) = call.effect (listed (stored hub)) := by
  cases call with
  | add tag =>
    obtain ⟨hub', hlisted, hmade⟩ := make_add h tag hub
    rw [hmade, effect, hlisted]
  | remove tag =>
    by_cases hmem : .string tag ∈ listed (stored hub)
    · obtain ⟨hub', hlisted, hmade⟩ := make_remove_of_mem h hmem
      rw [hmade, effect, hlisted]
    · obtain ⟨hub', hstored, hmade⟩ := make_remove_of_notMem h hmem
      rw [hmade, effect, hstored, Tags.without_of_notMem hmem]

/-- **A call does what it has to do.** -/
theorem obeys_make (call : TagCall) (hub : H) :
    call.Obeys n id (listed (stored hub)) (listed (stored (call.make serve n id hub).hub))
      (call.make serve n id hub) := by
  rw [listed_make h]
  cases call with
  | add tag =>
    obtain ⟨hub', -, hmade⟩ := make_add h tag hub
    rw [hmade]
    exact ⟨rfl, rfl, Tags.added_of_mem, Tags.added_of_notMem⟩
  | remove tag =>
    constructor
    · intro hmem
      obtain ⟨hub', -, hmade⟩ := make_remove_of_mem h hmem
      rw [hmade]
      exact ⟨rfl, rfl, rfl⟩
    · intro hmem
      obtain ⟨hub', -, hmade⟩ := make_remove_of_notMem h hmem
      rw [hmade]
      exact ⟨rfl, rfl, Tags.without_of_notMem hmem⟩

theorem listed_makeAll (calls : List TagCall) (hub : H) :
    listed (stored (makeAll serve n id calls hub)) = effects calls (listed (stored hub)) := by
  induction calls generalizing hub with
  | nil => rfl
  | cons call calls ih =>
    rw [makeAll, List.foldl_cons, effects, List.foldl_cons, ← listed_make h]
    exact ih _

/-- **Calls about tags are set operations, after any run of them.** Every further call does what it has to do. A tag
that is added twice is added once, and can be removed. The texts in the list are what the run makes of the set of texts.
The elements that are no tag of the run are as they were, whichever of them are looked at (`keeps`), and no tag comes
more often than it did, or than once. -/
theorem calls_as_set_operations (calls : List TagCall) (hub : H) :
    let reached := makeAll serve n id calls hub
    let before := listed (stored hub)
    let tags := listed (stored reached)
    (∀ call : TagCall,
      let made := call.make serve n id reached
      call.Obeys n id tags (listed (stored made.hub)) made) ∧
    (∀ tag,
      let once := makeAll serve n id [add tag] reached
      let twice := makeAll serve n id [add tag, add tag] reached
      listed (stored twice) = listed (stored once) ∧ ((remove tag).make serve n id once).outcome = .ok ()) ∧
    texts tags = calls.foldl (fun set call => call.onSet set) (texts before) ∧
    (∀ keeps : Json → Bool, (∀ call ∈ calls, keeps (.string call.tag) = false) →
      tags.filter keeps = before.filter keeps) ∧
    ∀ tag, tags.countP (fun item => item.string? == some tag) ≤
      max 1 (before.countP fun item => item.string? == some tag) := by
  intro reached before tags
  have htags : tags = effects calls before := listed_makeAll h calls hub
  refine ⟨fun call => obeys_make h call reached, fun tag => ?_, ?_, fun keeps hkeeps => ?_, fun tag => ?_⟩
  · intro once twice
    have honce : listed (stored once) = Tags.added tag tags := listed_makeAll h [add tag] reached
    have htwice : listed (stored twice) = Tags.added tag (Tags.added tag tags) :=
      listed_makeAll h [add tag, add tag] reached
    have hmem : .string tag ∈ Tags.added tag tags := Tags.mem_added tag tags
    refine ⟨?_, ?_⟩
    · rw [htwice, honce, Tags.added_of_mem hmem]
    · obtain ⟨hub', -, hmade⟩ := make_remove_of_mem h (honce ▸ hmem)
      rw [hmade]
  · rw [htags]
    exact texts_effects calls before
  · rw [htags]
    exact filter_effects hkeeps before
  · rw [htags]
    exact countP_effects calls tag before

end Calls

/-- elements of several kinds, and a run that removes, adds, misses and adds again -/
theorem calls_as_set_operations_mixed :
    let n : Node := ⟨.new "w" "t" "n", "n"⟩
    let serve := oneCustomer "https://api.contactlab.it/hub/v1/workspaces/w/customers/01"
    let customer : Tree := [("tags", .object [("manual",
      .list [.string "a", .null, .list [.string "a"], .string "a", .ofNat 7])])]
    let reached := makeAll serve n "01" [remove "a", add "b", remove "c", add "b", add "a"] customer
    let missed := (remove "c").make serve n "01" reached
    listed reached = [.null, .list [.string "a"], .ofNat 7, .string "b", .string "a"] ∧
      missed.outcome = .error (.fault (.notFound "Tag 'c'")) ∧ missed.sent = [fetching n "01"] ∧
      listed missed.hub = listed reached := by
  intro n serve customer reached missed
  have hstores : Stores serve (n.address ("/customers/" ++ "01")) fun customer => customer := stores_oneCustomer _
  obtain ⟨hobeys, -, -, -, -⟩ :=
    calls_as_set_operations hstores [remove "a", add "b", remove "c", add "b", add "a"] customer
  have hlisted : listed reached = [.null, .list [.string "a"], .ofNat 7, .string "b", .string "a"] :=
    listed_makeAll hstores [remove "a", add "b", remove "c", add "b", add "a"] customer
  have hmissing : .string "c" ∉ listed reached := by
    rw [hlisted]
    simp [Json.ofNat]
  exact ⟨hlisted, (hobeys (remove "c")).2 hmissing⟩

end TagCall

end ContactSync
