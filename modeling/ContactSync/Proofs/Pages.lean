/-
Turning the pages of a listing.

A listing carries the request that it came from, which after a turn is one with a page number already. Setting the
number again leaves no trace of the old one, so every request of a walk is the first one with a page number
(`Listing.Reached.requestPage`), and the number is the neighbour of the one that the page itself reports. Where there is
no neighbour, nothing is sent.

A server that reports the number it is asked for makes a walk a walk of the numbers (`Listing.heldBy_walk`): forth over
all pages and back again.
- `Node.listings_paged`: all of this for the listings of customers, of events and of queries.
-/
import ContactSync.Hub.Listing
import ContactSync.Proofs.Dialogues
import ContactSync.Proofs.Requests

namespace ContactSync

open Dialogue (nextReply)

/-! ## Turns -/

/-- a step to a neighbour of a page -/
inductive Turn where
  | next
  | previous
  deriving DecidableEq, Repr

namespace Turn

/-- the number that a turn leads to, among so many pages -/
def move (total number : Nat) : Turn → Except Fault Nat
  | .next => if number + 1 < total then .ok (number + 1) else .error (.notPermitted "Last page reached")
  | .previous => match number with
    | 0 => .error (.notPermitted "First page reached")
    | before + 1 => .ok before

/-- the numbers that a row of turns leads over, from the first on -/
def numbers (total : Nat) : Nat → List Turn → Except Fault (List Nat)
  | number, [] => .ok [number]
  | number, turn :: turns =>
    (turn.move total number).bind fun number' => (numbers total number' turns).map (number :: ·)

theorem move_lt {total number number' : Nat} {turn : Turn} (hn : number < total)
    (h : turn.move total number = .ok number') : number' < total := by
  cases turn with
  | next =>
    rw [move] at h
    split_ifs at h with hlt
    exact Except.ok.inj h ▸ hlt
  | previous =>
    cases number with
    | zero => cases h
    | succ before => exact Except.ok.inj h ▸ Nat.lt_of_succ_lt hn

theorem numbers_next {total number steps : Nat} (h : number + steps < total) (turns : List Turn) :
    numbers total number (List.replicate steps .next ++ turns) =
      (numbers total (number + steps) turns).map (List.range' number steps ++ ·) := by
  induction steps generalizing number with
  | zero => cases hn : numbers total number turns <;> simp [hn, Except.map]
  | succ steps ih =>
    have hmove : Turn.next.move total number = .ok (number + 1) := if_pos (by omega)
    have hsum : number + 1 + steps = number + (steps + 1) := by omega
    rw [List.replicate_succ, List.cons_append, numbers, hmove, Except.bind, ih (by omega), hsum]
    cases numbers total (number + (steps + 1)) turns <;> rfl

theorem numbers_previous (total number steps : Nat) (turns : List Turn) :
    numbers total (number + steps) (List.replicate steps .previous ++ turns) =
      (numbers total number turns).map ((List.range' (number + 1) steps).reverse ++ ·) := by
  induction steps with
  | zero => cases hn : numbers total number turns <;> simp [hn, Except.map]
  | succ steps ih =>
    have hmove : Turn.previous.move total (number + (steps + 1)) = .ok (number + steps) := rfl
    rw [List.replicate_succ, List.cons_append, numbers, hmove, Except.bind, ih, List.range'_1_concat]
    cases numbers total number turns with
    | error fault => rfl
    | ok rest =>
      rw [List.reverse_append]
      simp [Except.map]
      omega

theorem numbers_forth_and_back (last : Nat) :
    let forth := List.replicate last Turn.next
    let back := List.replicate last Turn.previous
    numbers (last + 1) 0 forth = .ok (List.range (last + 1)) ∧
    numbers (last + 1) 0 (forth ++ [.next]) = .error (.notPermitted "Last page reached") ∧
    numbers (last + 1) 0 (forth ++ back) = .ok (List.range (last + 1) ++ (List.range last).reverse) ∧
    numbers (last + 1) 0 (forth ++ (back ++ [.previous])) = .error (.notPermitted "First page reached") := by
  intro forth back
  have hforth : ∀ turns, numbers (last + 1) 0 (forth ++ turns) =
      (numbers (last + 1) last turns).map (List.range last ++ ·) := by
    intro turns
    rw [numbers_next (by omega), Nat.zero_add, List.range_eq_range']
  have hback : ∀ turns, numbers (last + 1) last (back ++ turns) =
      (numbers (last + 1) 0 turns).map ((List.range' 1 last).reverse ++ ·) := by
    intro turns
    have hnumbers := numbers_previous (last + 1) 0 last turns
    rwa [Nat.zero_add] at hnumbers
  have hover : Turn.next.move (last + 1) last = .error (.notPermitted "Last page reached") := if_neg (by omega)
  -- the numbers on the way back are those on the way forth, without the last
  have hrange : (List.range' 1 last).reverse ++ [0] = last :: (List.range last).reverse := by
    rw [← List.reverse_cons, ← List.reverse_concat, ← List.range_succ, List.range_eq_range']
    rfl
  refine ⟨?_, ?_, ?_, ?_⟩
  · rw [← List.append_nil forth, hforth, List.range_succ]
    rfl
  · rw [hforth, numbers, hover]
    rfl
  · rw [← List.append_nil back, hforth, hback, numbers, Except.map, Except.map, hrange, List.range_succ]
    simp
  · rw [hforth, hback]
    rfl

end Turn

variable {α σ : Type} [OfSnapshot α]

namespace Listing

def turn (l : Listing α) : Turn → Action σ (Listing α)
  | .next => l.next
  | .previous => l.previous

/-- the pages that a row of turns leads over, from this one on -/
def walk (l : Listing α) : List Turn → Action σ (List (Listing α))
  | [] => pure [l]
  | turn :: turns => do
    let l' ← l.turn turn
    return l :: (← l'.walk turns)

/-- what the reply to the request of a page comes to -/
def ofReply (request : Request) : Reply → Except Failure (Listing α)
  | .ok (some (.object body)) => match Page.ofJson? (.object body) with
    | some page => .ok ⟨page.elements.map OfSnapshot.ofSnapshot, page.info, request⟩
    | none => .error (.unfit .notAPage)
  | .ok (some other) => .error (.unfit (.notAnObject other))
  | .ok none => .error (.unfit .empty)
  | .error failure => .error failure

theorem start_fetch (request : Request) (value : σ) :
    (fetch request : Action σ (Listing α)).start value =
      .ask request fun reply => .done (ofReply request reply, value) := by
  change Dialogue.ask request (fun reply => _) = _
  congr 1
  funext reply
  cases reply with
  | error failure => rfl
  | ok answer =>
    cases answer with
    | none => rfl
    | some j =>
      cases j with
      | object body =>
        change Action.start (match Page.ofJson? (.object body) with | some page => _ | none => _) value = _
        rw [ofReply]
        cases Page.ofJson? (.object body) <;> rfl
      | _ => rfl

/-- a turn fetches the page with the number that it leads to, or is refused -/
theorem turn_eq (l : Listing α) (turn : Turn) : (l.turn turn : Action σ (Listing α)) =
    Action.require (turn.move l.page.totalPages l.page.number) >>= fun number => fetch (l.requestPage number) := by
  cases turn with
  | next =>
    have hnext : l.page.next = Turn.next.move l.page.totalPages l.page.number := by
      rw [PageInfo.next, PageInfo.isLast, Turn.move]
      by_cases h : l.page.number + 1 < l.page.totalPages
      · rw [if_pos h, if_neg (by simpa using h)]
      · rw [if_neg h, if_pos (by simpa using h)]
    rw [Listing.turn, next, hnext]
  | previous =>
    have hprevious : l.page.previous = Turn.previous.move l.page.totalPages l.page.number := by
      rw [PageInfo.previous, PageInfo.isFirst]
      cases l.page.number <;> rfl
    rw [Listing.turn, previous, hprevious]

end Listing

/-! ## The course of a turn -/

/-- the course of one request for a page: the reply decides, the value stays -/
def Course.fetched (request : Request) (value : σ) (replies : List Reply) : Course σ (Listing α) :=
  ⟨Listing.ofReply request (nextReply replies), value, [request], replies.tail⟩

namespace Listing

theorem against_fetch (request : Request) (value : σ) (replies : List Reply) :
    (fetch request : Action σ (Listing α)).against value replies = .fetched request value replies := by
  rw [Action.against, start_fetch]
  rfl

theorem against_turn (l : Listing α) (turn : Turn) (value : σ) (replies : List Reply) :
    (l.turn turn).against value replies = match turn.move l.page.totalPages l.page.number with
      | .ok number => .fetched (l.requestPage number) value replies
      | .error fault => ⟨.error (.fault fault), value, [], replies⟩ := by
  rw [turn_eq]
  cases hmove : turn.move l.page.totalPages l.page.number with
  | ok number => rw [Action.against_require_ok rfl, against_fetch]
  | error fault => exact Action.against_require_error rfl _

end Listing

/-! ## Walks issue the first request again -/

/-- the listings that a walk can come to: the one that it begins with, and the neighbours of any it has come to -/
inductive Listing.Reached (opening : Action σ (Listing α)) : Listing α → Prop
  | opened {l : Listing α} (value : σ) (replies : List Reply) (h : (opening.against value replies).outcome = .ok l) :
    Reached opening l
  | turned {l l' : Listing α} (h : Reached opening l) (turn : Turn) (value : σ) (replies : List Reply)
    (h' : ((l.turn turn).against value replies).outcome = .ok l') : Reached opening l'

/-- **Turning the pages of a listing.** It is opened by one request. From every page of it that a walk can come to, a
turn that leads to a number sends that request again with the number, and nothing else of it changed; where the turn
leads nowhere, it is refused and nothing is sent. -/
structure Paged (opening : Action σ (Listing α)) (original : Request) : Prop where
  opens : ∀ value replies, opening.against value replies = .fetched original value replies
  named : original.Named
  turns : ∀ l, Listing.Reached opening l → ∀ (turn : Turn) (value : σ) (replies : List Reply),
    match turn.move l.page.totalPages l.page.number with
    | .ok number => ∃ request, original.Reissues "page" (toString number) request ∧
      (l.turn turn).against value replies = .fetched request value replies
    | .error fault => (l.turn turn).against value replies = ⟨.error (.fault fault), value, [], replies⟩

namespace Listing

theorem request_of_fetched {request : Request} {value : σ} {replies : List Reply} {l : Listing α}
    (h : (Course.fetched request value replies).outcome = .ok l) : l.request = request := by
  simp only [Course.fetched, ofReply] at h
  split at h
  · split at h
    · exact Except.ok.inj h ▸ rfl
    · cases h
  all_goals cases h

variable {opening : Action σ (Listing α)} {original : Request}

/-- **The invariant of walks**: a page that was reached is turned with the first request. -/
theorem Reached.requestPage (hopen : ∀ value replies, opening.against value replies = .fetched original value replies)
    {l : Listing α} (h : Reached opening l) (number : Nat) :
    l.requestPage number = original.withParam "page" (toString number) := by
  induction h generalizing number with
  | opened value replies h =>
    rw [hopen] at h
    rw [Listing.requestPage, request_of_fetched h]
  | turned _ turn value replies h ih =>
    rw [against_turn] at h
    split at h
    · rename_i before _
      rw [Listing.requestPage, request_of_fetched h, ih before, Request.withParam_withParam]
    · cases h

theorem paged (hopen : ∀ value replies, opening.against value replies = .fetched original value replies)
    (hn : original.Named) : Paged opening original := by
  refine ⟨hopen, hn, ?_⟩
  intro l h turn value replies
  rw [against_turn]
  cases turn.move l.page.totalPages l.page.number with
  | ok number =>
    dsimp only
    rw [h.requestPage hopen]
    exact ⟨_, Request.reissues_withParam hn _ _, rfl⟩
  | error fault => rfl

end Listing

/-! ## Servers that number their pages -/

/-- a server that has so many pages, and answers with the one whose number it is asked for -/
def Numbered (serve : Request → Reply) (total : Nat) : Prop :=
  ∀ request number, number < total → request.param? "page" = some (toString number) →
    ∃ body page, serve request = .ok (some (.object body)) ∧ Page.ofJson? (.object body) = some page ∧
      page.info.number = number ∧ page.info.totalPages = total

/-- a walk from the first page of a server over all of them and back, refused beyond the last and before the first -/
structure Listing.Traversed (l : Listing α) (serve : Request → Reply) (total : Nat) (value : σ) : Prop where
  forth : ∃ pages, (l.walk (List.replicate (total - 1) .next)).heldBy serve value = (.ok pages, value) ∧
    pages.map (fun p => p.page.number) = List.range total
  beyond : (l.walk (List.replicate (total - 1) .next ++ [.next])).heldBy serve value =
    (.error (.fault (.notPermitted "Last page reached")), value)
  back : ∃ pages, (l.walk (List.replicate (total - 1) .next ++ List.replicate (total - 1) .previous)).heldBy serve
      value = (.ok pages, value) ∧
    pages.map (fun p => p.page.number) = List.range total ++ (List.range (total - 1)).reverse
  before : (l.walk (List.replicate (total - 1) .next ++ (List.replicate (total - 1) .previous ++ [.previous]))).heldBy
    serve value = (.error (.fault (.notPermitted "First page reached")), value)

namespace Listing

variable {serve : Request → Reply} {total : Nat}

theorem heldBy_turn (serve : Request → Reply) (l : Listing α) (turn : Turn) (value : σ) :
    (l.turn turn).heldBy serve value = match turn.move l.page.totalPages l.page.number with
      | .ok number => (ofReply (l.requestPage number) (serve (l.requestPage number)), value)
      | .error fault => (.error (.fault fault), value) := by
  rw [turn_eq, Action.heldBy_bind]
  cases turn.move l.page.totalPages l.page.number with
  | ok number =>
    change Dialogue.hold (m := Id) serve ((fetch (l.requestPage number)).start value) = _
    rw [start_fetch]
    rfl
  | error fault => rfl

theorem ofReply_numbered (h : Numbered serve total) (l : Listing α) {number : Nat} (hn : number < total) :
    ∃ l' : Listing α, ofReply (l.requestPage number) (serve (l.requestPage number)) = .ok l' ∧
      l'.page.number = number ∧ l'.page.totalPages = total := by
  obtain ⟨body, page, hreply, hpage, hnumber, htotal⟩ := h _ number hn (Request.param?_withParam _ _ _)
  refine ⟨⟨page.elements.map OfSnapshot.ofSnapshot, page.info, l.requestPage number⟩, ?_, hnumber, htotal⟩
  rw [show serve (l.requestPage number) = _ from hreply, ofReply, hpage]

/-- **A walk is a walk of the numbers.** It goes as far as they do, over pages with these numbers, and fails where they
end. -/
theorem heldBy_walk (h : Numbered serve total) {l : Listing α} (hl : l.page.number < total)
    (ht : l.page.totalPages = total) (turns : List Turn) (value : σ) :
    match Turn.numbers total l.page.number turns with
    | .ok numbers => ∃ pages, (l.walk turns).heldBy serve value = (.ok pages, value) ∧
      pages.map (fun p => p.page.number) = numbers
    | .error fault => (l.walk turns).heldBy serve value = (.error (.fault fault), value) := by
  induction turns generalizing l with
  | nil => exact ⟨[l], rfl, rfl⟩
  | cons turn turns ih =>
    have hturn := heldBy_turn serve l turn value
    rw [ht] at hturn
    rw [walk, Action.heldBy_bind, hturn, Turn.numbers]
    cases hmove : turn.move total l.page.number with
    | error fault => rfl
    | ok number =>
      obtain ⟨l', hreply, hnumber, htotal⟩ := ofReply_numbered h l (Turn.move_lt hl hmove)
      have ih := ih (hnumber ▸ Turn.move_lt hl hmove) htotal
      rw [hnumber] at ih
      dsimp only [Except.bind]
      rw [hreply]
      dsimp only
      rw [Action.heldBy_bind]
      cases hnumbers : Turn.numbers total number turns with
      | error fault =>
        rw [hnumbers] at ih
        rw [show (l'.walk turns).heldBy serve value = _ from ih]
        rfl
      | ok numbers =>
        rw [hnumbers] at ih
        obtain ⟨pages, hpages, hmap⟩ := ih
        rw [hpages]
        exact ⟨l :: pages, rfl, congrArg (l.page.number :: ·) hmap⟩

/-- **Forth over all pages and back again.** -/
theorem traversed (hpos : 1 ≤ total) (h : Numbered serve total) {l : Listing α} (hl : l.page.number = 0)
    (ht : l.page.totalPages = total) (value : σ) : l.Traversed serve total value := by
  obtain ⟨last, rfl⟩ : ∃ last, total = last + 1 := ⟨total - 1, by omega⟩
  have hwalk := fun turns => heldBy_walk h (hl ▸ Nat.succ_pos last) ht turns value
  rw [hl] at hwalk
  have hreached : ∀ turns numbers, Turn.numbers (last + 1) 0 turns = .ok numbers →
      ∃ pages, (l.walk turns).heldBy serve value = (.ok pages, value) ∧
        pages.map (fun p => p.page.number) = numbers := by
    intro turns numbers hn
    simpa only [hn] using hwalk turns
  have hrefused : ∀ turns fault, Turn.numbers (last + 1) 0 turns = .error fault →
      (l.walk turns).heldBy serve value = (.error (.fault fault), value) := by
    intro turns fault hn
    simpa only [hn] using hwalk turns
  obtain ⟨hforth, hover, hback, hunder⟩ := Turn.numbers_forth_and_back last
  exact ⟨hreached _ _ hforth, hrefused _ _ hover, hreached _ _ hback, hrefused _ _ hunder⟩

end Listing

/-! ## The listings of a node -/

namespace Node

variable {n : Node} {q : Query} {original : Request}

theorem named_request (n : Node) (method : Method) (segments : List String) : (n.request method segments).Named :=
  List.nodup_nil

theorem named_customersRequest (n : Node) (f : CustomerFilter) : (n.customersRequest f).Named := by
  unfold customersRequest
  exact ((((n.named_request _ _).withParam _ _).withParam? _ _).withParam? _ _).withParam? _ _ |>.withParam? _ _

theorem named_eventsRequest (n : Node) (f : EventFilter) : (n.eventsRequest f).Named := by
  unfold eventsRequest
  exact ((((n.named_request _ _).withParam _ _).withParam? _ _).withParam? _ _).withParam? _ _
    |>.withParam? _ _ |>.withParam? _ _ |>.withParam? _ _ |>.withParam? _ _

theorem named_searchRequest (h : n.searchRequest q = .ok original) : original.Named := by
  rw [searchRequest] at h
  split_ifs at h
  exact Except.ok.inj h ▸ ((n.named_request _ _).withParam _ _).withParam? _ _

theorem against_search (h : n.searchRequest q = .ok original) (value : σ) (replies : List Reply) :
    (n.search q).against value replies = .fetched original value replies := by
  rw [search, Action.against_require_ok h, Listing.against_fetch]

theorem against_searchPage (h : n.searchRequest q = .ok original) (number : Nat) (value : σ) (replies : List Reply) :
    (n.searchPage q number).against value replies =
      .fetched (original.withParam "page" (toString number)) value replies := by
  rw [searchPage, Action.against_require_ok h, Listing.against_fetch]

/-- every page of a query that a walk can come to is turned as if its neighbour were searched for -/
theorem against_turn_search (h : n.searchRequest q = .ok original) {l : Listing Customer}
    (hl : Listing.Reached (σ := σ) (n.search q) l ∨ ∃ number, Listing.Reached (σ := σ) (n.searchPage q number) l)
    {turn : Turn} {number : Nat} (hmove : turn.move l.page.totalPages l.page.number = .ok number) (value : σ)
    (replies : List Reply) : (l.turn turn).against value replies = (n.searchPage q number).against value replies := by
  have hrequest : l.requestPage number = original.withParam "page" (toString number) := by
    rcases hl with hl | ⟨first, hl⟩
    · exact hl.requestPage (against_search h) number
    · rw [hl.requestPage (against_searchPage h first), Request.withParam_withParam]
  rw [Listing.against_turn, hmove, against_searchPage h]
  dsimp only
  rw [hrequest]

/-- **Turning pages issues the first request again**, for the listings of customers, of events, and of queries, where
the turn sends what a search for that page would. A server that numbers its pages is walked forth over each of them once
and back again, and refuses at both ends. -/
theorem listings_paged (n : Node) :
    (∀ f, Paged (σ := σ) (n.customers f) (n.customersRequest f)) ∧
    (∀ f, Paged (σ := σ) (n.events f) (n.eventsRequest f)) ∧
    (∀ q original, n.searchRequest q = .ok original →
      Paged (σ := σ) (n.search q) original ∧
      (∀ number, Paged (σ := σ) (n.searchPage q number) (original.withParam "page" (toString number))) ∧
      ∀ l, (Listing.Reached (σ := σ) (n.search q) l ∨ ∃ number, Listing.Reached (σ := σ) (n.searchPage q number) l) →
        ∀ (turn : Turn) number, turn.move l.page.totalPages l.page.number = .ok number →
          ∀ (value : σ) replies, (l.turn turn).against value replies = (n.searchPage q number).against value replies) ∧
    ∀ serve total, 1 ≤ total → Numbered serve total → ∀ l : Listing α, l.page.number = 0 →
      l.page.totalPages = total → ∀ value : σ, l.Traversed serve total value := by
  refine ⟨fun f => ?_, fun f => ?_, fun q original h => ⟨?_, fun number => ?_, ?_⟩, ?_⟩
  · exact Listing.paged (Listing.against_fetch _) (n.named_customersRequest f)
  · exact Listing.paged (Listing.against_fetch _) (n.named_eventsRequest f)
  · exact Listing.paged (against_search h) (named_searchRequest h)
  · exact Listing.paged (against_searchPage h number) ((named_searchRequest h).withParam _ _)
  · exact fun l hl turn number hmove => against_turn_search h hl hmove
  · exact fun serve total hpos hserve l hl ht => Listing.traversed hpos hserve hl ht

/-- a search that a server answers in two pages -/
theorem listings_paged_two :
    let n : Node := ⟨.new "w" "t" "n1", "n1"⟩
    let q : Query := .simple .customer (some (.atomic "base.firstName" .equals (some (.string "Ann"))))
    let original := ((n.request .get ["customers"]).withParam "nodeId" "n1").withParam? "query"
      (q.toWire?.map fun d => d.toJson.text)
    let body (number : Nat) : Json := .object [("page", .object [("size", .ofNat 10), ("totalElements", .ofNat 20),
      ("totalPages", .ofNat 2), ("number", .ofNat number)])]
    let serve : Request → Reply := fun r => .ok (some (body (if r.param? "page" = some "1" then 1 else 0)))
    let first : Listing Customer := ⟨[], ⟨10, 20, 0, 2, 0⟩, original⟩
    Listing.Reached (σ := Unit) (n.search q) first ∧ Numbered serve 2 ∧
    (first.turn .next).against () [] = (n.searchPage q 1).against () [] ∧
    (∃ request, original.Reissues "page" "1" request ∧
      (first.turn .next).against () [.ok (some (body 1))] = .fetched request () [.ok (some (body 1))]) ∧
    first.Traversed serve 2 () := by
  intro n q original body serve first
  have hsearch : n.searchRequest q = .ok original := rfl
  have hfirst : Listing.Reached (σ := Unit) (n.search q) first := .opened () [.ok (some (body 0))] rfl
  have hserve : Numbered serve 2 := by
    intro request number hn hasked
    have hreply : serve request = .ok (some (body (if request.param? "page" = some "1" then 1 else 0))) := rfl
    rw [hasked] at hreply
    obtain rfl | rfl : number = 0 ∨ number = 1 := by omega
    · exact ⟨_, ⟨[], ⟨10, 20, 0, 2, 0⟩⟩, hreply, rfl, rfl, rfl⟩
    · exact ⟨_, ⟨[], ⟨10, 20, 0, 2, 1⟩⟩, hreply, rfl, rfl, rfl⟩
  obtain ⟨-, -, hsearches, hservers⟩ := listings_paged (α := Customer) (σ := Unit) n
  obtain ⟨hpaged, -, hpages⟩ := hsearches q original hsearch
  have hmove : Turn.next.move first.page.totalPages first.page.number = .ok 1 := rfl
  have hturn := hpaged.turns first hfirst .next () [.ok (some (body 1))]
  rw [hmove] at hturn
  exact ⟨hfirst, hserve, hpages first (.inl hfirst) .next 1 hmove () [], hturn,
    hservers serve 2 (by decide) hserve first rfl rfl ()⟩

end Node

end ContactSync
