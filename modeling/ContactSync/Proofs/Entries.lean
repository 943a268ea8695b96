/-
What the operations on entries change.

The customer that is loaded holds its entries in a list. A creation adds the entry at the end of it, a replacement puts
the entry in the place of the first element with its id, a deletion drops every element with its id; the entry goes in
as it is once the members of the answer are written over its attributes. The list is written untracked, and nothing else
of the customer changes (`Record.Relisted`): other places read as before, what is pending stays unless it covers the
list, and then holds the new one.
- `Record.relisted_setUntracked`: an untracked write of a list changes this much, over every sound tracker;
- `Entry.operations_edit_list`: each operation, after every run of tracked writes, with every answer.
-/
import ContactSync.Proofs.Courses
import ContactSync.Proofs.Lens
import ContactSync.Proofs.Untracked

namespace ContactSync

open Dialogue (nextReply)
open Dotted (components isBelow Plain)

/-! ## What is tracked after an untracked write -/

namespace Tracker

variable {t : Tracker} {path : String} {value : Json}

theorem isEmpty_record (t : Tracker) (path : String) (value : Json) : (t.record path value).isEmpty = false := by
  have hinsert : ∀ (k : String) (v : Json) (entries : Tree), (Tree.insert k v entries).isEmpty = false := by
    intro k v entries
    rw [List.isEmpty_eq_false_iff]
    exact fun h => by simpa [h] using Tree.get?_insert_self k v entries
  unfold isEmpty record
  dsimp only
  split <;> exact hinsert _ _ _

/-- an untracked write makes nothing pending, and settles nothing -/
theorem isEmpty_refresh (t : Tracker) (path : String) (value : Json) : (t.refresh path value).isEmpty = t.isEmpty := by
  unfold refresh
  split_ifs with hcov
  · obtain ⟨e, he, -⟩ := List.any_eq_true.1 hcov
    rw [isEmpty_record, isEmpty, eq_comm, List.isEmpty_eq_false_iff]
    exact List.ne_nil_of_mem he
  · rfl

theorem refresh_of_apart
    (h : ∀ k ∈ Tree.keys t.entries, k ≠ path ∧ isBelow path k = false ∧ isBelow k path = false) :
    t.refresh path value = t := by
  have hcov : t.entries.any (covers path) = false := by
    rw [List.any_eq_false]
    intro e he
    obtain ⟨hne, hbelow, habove⟩ := h e.1 (Tree.mem_keys_of_mem he)
    simp [covers, hne, hbelow, habove]
  rw [refresh, hcov]
  rfl

theorem covers_of_mem (h : ∃ k ∈ Tree.keys t.entries, k = path ∨ isBelow path k = true) :
    t.entries.any (covers path) = true := by
  obtain ⟨k, hk, hkp⟩ := h
  obtain ⟨e, he, rfl⟩ := List.mem_map.1 hk
  refine List.any_eq_true.2 ⟨e, he, ?_⟩
  rcases hkp with hk | hk <;> simp [covers, hk]

/-- a recorded list is what the entries resolve to at its place -/
theorem getDotted?_resolve_record (h : Sound t) (hp : Plain path) {items : List Json}
    (hw : (Json.list items).WellFormed) :
    Tree.getDotted? path (t.record path (.list items)).resolve = some (.list items) := by
  refine (Tree.at?_eq_some_iff hp.1 rfl).2 ?_
  have hreplay := outline_replay_record h hp hw []
  have hat := Outline.write_at (components path) [] (.list items) (t.replay []).outline
  rw [List.append_nil] at hat
  rw [resolve, hreplay, hat]
  rfl

end Tracker

/-! ## A list rewritten -/

/-- a list is rewritten at a place of a record, and nothing else is changed -/
structure Record.Relisted (r : Record) (path : String) (items : List Json) (r' : Record) : Prop where
  holds : Tree.getDotted? path r'.attributes = some (.list items)
  elsewhere : ∀ place, ¬components path <+: components place → ¬components place <+: components path →
    Tree.getDotted? place r'.attributes = Tree.getDotted? place r.attributes
  dirty : r'.isDirty = r.isDirty
  untouched : (∀ k ∈ Tree.keys r.tracker.entries, k ≠ path ∧ isBelow path k = false ∧ isBelow k path = false) →
    r'.tracker = r.tracker
  pending : (∃ k ∈ Tree.keys r.tracker.entries, k = path ∨ isBelow path k = true) →
    Tree.getDotted? path r'.partialDocument = some (.list items)

/-- **An untracked write of a list changes the list alone**, and what is pending only where it covers the list. -/
theorem Record.relisted_setUntracked {r : Record} (h : r.tracker.Sound) {path : String} (hp : Plain path)
    {items : List Json} (hw : (Json.list items).WellFormed) :
    r.Relisted path items (r.setUntracked path (.list items)) where
  holds := Tree.at?_setAt_self hp.1 _ _
  elsewhere _ h1 h2 := Tree.at?_setAt_off h1 h2 _
  dirty := congrArg not (Tracker.isEmpty_refresh _ _ _)
  untouched := Tracker.refresh_of_apart
  pending hcov := by
    have hrefresh : r.tracker.refresh path (.list items) = r.tracker.record path (.list items) :=
      if_pos (Tracker.covers_of_mem hcov)
    rw [partialDocument, setUntracked, hrefresh]
    exact Tracker.getDotted?_resolve_record h hp hw

namespace Tree

theorem WellFormed.of_mem_getDotted? {t : Tree} (h : t.WellFormed) {path : String} {item : Json}
    (hi : item ∈ ((getDotted? path t).bind Json.list?).getD []) : item.WellFormed := by
  cases hl : getDotted? path t with
  | none => simp [hl] at hi
  | some v =>
    cases v with
    | list items =>
      have hne : components path ≠ [] := fun hn => by simp [getDotted?, hn, at?] at hl
      have hleaf := (at?_eq_some_iff hne rfl).1 hl
      rw [hl] at hi
      exact Json.wellFormed_list_iff.1 (h.regular.values _ _ hleaf) item hi
    | _ => simp [hl, Json.list?] at hi

theorem WellFormed.insertAll {t : Tree} (h : t.WellFormed) {pairs : Tree} (hp : ∀ e ∈ pairs, e.2.WellFormed) :
    (insertAll t pairs).WellFormed := by
  induction pairs generalizing t with
  | nil => exact h
  | cons e pairs ih =>
    exact ih (h.insert (hp e List.mem_cons_self) e.1) fun e he => hp e (List.mem_cons_of_mem _ he)

end Tree

/-! ## Elements with an id -/

namespace Entry

/-- a list element that is an object with this text as its id -/
def Bears (id : String) (item : Json) : Prop := item.member? "id" = some (.string id)

theorem hasId_iff {id : String} {item : Json} : hasId id item = true ↔ Bears id item := by
  rw [hasId, beq_iff_eq, Option.bind_eq_some_iff, Bears]
  simp only [Json.string?_eq_some_iff, exists_eq_right]

instance (id : String) (item : Json) : Decidable (Bears id item) := decidable_of_iff _ hasId_iff

variable {id : String} {list before after : List Json} {item : Json}

theorem findIdx?_hasId_eq_none (h : ∀ x ∈ list, ¬Bears id x) : list.findIdx? (hasId id) = none := by
  rw [List.findIdx?_eq_none_iff]
  intro x hx
  rw [← Bool.not_eq_true, hasId_iff]
  exact h x hx

theorem findIdx?_hasId (hbefore : ∀ x ∈ before, ¬Bears id x) (hitem : Bears id item) :
    (before ++ item :: after).findIdx? (hasId id) = some before.length := by
  rw [List.findIdx?_append, findIdx?_hasId_eq_none hbefore, List.findIdx?_cons, hasId_iff.2 hitem]
  simp

theorem filter_hasId : (list.filter fun item => !hasId id item) = list.filter fun item => ¬Bears id item := by
  apply List.filter_congr
  intro item _
  simp [← hasId_iff]

/-! ## The entry as the answer leaves it -/

/-- attributes with the members of an answer that is an object written over them one by one -/
def merged (attributes : Tree) : Option Json → Tree
  | some (.object members) => members.foldl (fun t e => Tree.insert e.1 e.2 t) attributes
  | _ => attributes

/-- the entry that an answer leaves: with the members of the answer, and nothing pending -/
def settled (e : Entry) (answer : Option Json) : Entry := ⟨⟨merged e.attributes answer, .empty⟩, e.kind⟩

theorem accept_eq_settled (e : Entry) (answer : Option Json) : e.accept answer = e.settled answer := by
  cases answer with
  | none => rfl
  | some j => cases j <;> rfl

theorem wellFormed_merged {attributes : Tree} (h : attributes.WellFormed) {answer : Option Json}
    (ha : ∀ j, answer = some j → j.WellFormed) : (merged attributes answer).WellFormed := by
  unfold merged
  split
  · rename_i members
    exact h.insertAll (Json.wellFormed_object_iff.1 (ha _ rfl)).2
  · exact h

/-! ## The operations -/

theorem plain_collectionPath (kind : EntryKind) : Plain kind.collectionPath := by
  cases kind <;> decide

theorem relisted_store {c : Customer} (h : c.tracker.Sound) (kind : EntryKind) {items : List Json}
    (hw : ∀ x ∈ items, x.WellFormed) :
    c.toRecord.Relisted kind.collectionPath items (store kind items c).toRecord :=
  Record.relisted_setUntracked h (plain_collectionPath kind) (Json.wellFormed_list_iff.2 hw)

theorem without_of_none {kind : EntryKind} {c : Customer} (h : ∀ x ∈ (loaded? kind c).getD [], ¬Bears id x) :
    without kind id c = c := by
  unfold without
  split
  · rfl
  · rename_i items hl
    rw [hl] at h
    refine if_neg (not_not.2 (List.length_filter_eq_length_iff.2 ?_))
    intro x hx
    simpa [← hasId_iff] using h x hx

/-- a list with such elements is rewritten without them -/
theorem without_of_some {kind : EntryKind} {c : Customer} (h : ∃ x ∈ (loaded? kind c).getD [], Bears id x) :
    without kind id c = store kind (((loaded? kind c).getD []).filter fun x => ¬Bears id x) c := by
  obtain ⟨x, hx, hb⟩ := h
  unfold without
  split
  · rename_i hl
    simp [hl] at hx
  · rename_i items hl
    rw [hl] at hx
    rw [hl, Option.getD_some, filter_hasId]
    refine if_pos fun hlength => ?_
    exact absurd hb (by simpa using List.length_filter_eq_length_iff.1 hlength x hx)

variable {e : Entry} {c : Customer} {customerId : String} {replies : List Reply} {answer : Option Json}

theorem create_succeeds (hid : c.id? = some customerId) (hr : nextReply replies = .ok answer) (n : Node) :
    let course := (create n).against (e, c) replies
    course.outcome = .ok () ∧ course.value =
      (e.settled answer, store e.kind (e.stored c ++ [.object (merged e.attributes answer)]) c) := by
  intro course
  have hcourse : course = _ := against_create n e c replies
  rw [hid] at hcourse
  dsimp only at hcourse
  rw [hcourse, Course.decided_ok hr, accept_eq_settled]
  exact ⟨rfl, rfl⟩

theorem replace_succeeds (hid : c.id? = some customerId) (heid : e.id? = some id)
    (hsplit : e.stored c = before ++ item :: after) (hbefore : ∀ x ∈ before, ¬Bears id x) (hitem : Bears id item)
    (hr : nextReply replies = .ok answer) (n : Node) :
    let course := (replace n).against (e, c) replies
    course.outcome = .ok () ∧ course.value =
      (e.settled answer, store e.kind (before ++ .object (merged e.attributes answer) :: after) c) := by
  intro course
  have hcourse : course = _ := against_replace n e c replies
  rw [hid, heid] at hcourse
  dsimp only at hcourse
  rw [hsplit, findIdx?_hasId hbefore hitem] at hcourse
  dsimp only at hcourse
  rw [hcourse, Course.decided_ok hr, accept_eq_settled]
  simp [settled]

theorem replace_refused (hid : c.id? = some customerId) (heid : e.id? = some id)
    (hnone : ∀ x ∈ e.stored c, ¬Bears id x) (n : Node) :
    (replace n).against (e, c) replies = ⟨.error (.fault (.notFound e.kind.display)), (e, c), [], replies⟩ := by
  rw [against_replace, hid, heid]
  dsimp only
  rw [findIdx?_hasId_eq_none hnone]

theorem remove_succeeds (hid : c.id? = some customerId) (heid : e.id? = some id)
    (hr : nextReply replies = .ok answer) (n : Node) :
    let course := (remove n).against (e, c) replies
    course.outcome = .ok () ∧ course.value = (e, without e.kind id c) := by
  intro course
  have hcourse : course = _ := against_remove n e c replies
  rw [hid, heid] at hcourse
  dsimp only at hcourse
  rw [hcourse, Course.decided_ok hr]
  exact ⟨rfl, rfl⟩

/-- **The operations on entries edit the loaded list and nothing else.** After every run of tracked writes from a
snapshot, with every answer: a creation adds the entry, with the answer's members, at the end; a replacement puts it in
the place of the first element with its id, and without one is refused; a deletion drops all elements with its id, and
without one leaves the customer as it is. -/
theorem operations_edit_list {S : Tree} {edits : List Edit} (hS : S.WellFormed) (pS : S.PlainKeys)
    (he : ∀ e ∈ edits, e.WellFormed ∧ e.PlainKeys) (hc : c.toRecord = (Record.ofSnapshot S).editAll edits)
    (hid : c.id? = some customerId) (hw : e.attributes.WellFormed) (ha : ∀ j, answer = some j → j.WellFormed)
    (hr : nextReply replies = .ok answer) (n : Node) :
    let path := e.kind.collectionPath
    let list := ((Tree.getDotted? path c.attributes).bind Json.list?).getD []
    let stored := Json.object (merged e.attributes answer)
    let creation := (create n).against (e, c) replies
    let replacement := (replace n).against (e, c) replies
    let removal := (remove n).against (e, c) replies
    (creation.outcome = .ok () ∧ ∃ c' : Customer, creation.value = (e.settled answer, c') ∧
      c.toRecord.Relisted path (list ++ [stored]) c'.toRecord) ∧
    ∀ id, e.id? = some id →
      (∀ before item after, list = before ++ item :: after → (∀ x ∈ before, ¬Bears id x) → Bears id item →
        replacement.outcome = .ok () ∧ ∃ c' : Customer, replacement.value = (e.settled answer, c') ∧
          c.toRecord.Relisted path (before ++ stored :: after) c'.toRecord) ∧
      ((∀ x ∈ list, ¬Bears id x) →
        replacement.outcome = .error (.fault (.notFound e.kind.display)) ∧ replacement.value = (e, c)) ∧
      removal.outcome = .ok () ∧ ∃ c' : Customer, removal.value = (e, c') ∧
        ((∃ x ∈ list, Bears id x) → c.toRecord.Relisted path (list.filter fun x => ¬Bears id x) c'.toRecord) ∧
        ((∀ x ∈ list, ¬Bears id x) → c' = c) := by
  intro path list stored creation replacement removal
  have hsync : Record.Synced S c.toRecord := hc ▸ Record.synced_editAll hS pS he
  have hlist : ∀ x ∈ list, x.WellFormed := fun x hx => hsync.wellFormed.of_mem_getDotted? hx
  have hstored : stored.WellFormed := wellFormed_merged hw ha
  have hrelist := fun {items : List Json} (hi : ∀ x ∈ items, x.WellFormed) => relisted_store hsync.sound e.kind hi
  refine ⟨?_, fun id heid => ⟨?_, ?_, ?_⟩⟩
  · obtain ⟨hok, hvalue⟩ := create_succeeds (e := e) hid hr n
    exact ⟨hok, _, hvalue, hrelist (List.forall_mem_append.2 ⟨hlist, List.forall_mem_singleton.2 hstored⟩)⟩
  · intro before item after hsplit hbefore hitem
    obtain ⟨hok, hvalue⟩ := replace_succeeds hid heid hsplit hbefore hitem hr n
    rw [hsplit, List.forall_mem_append, List.forall_mem_cons] at hlist
    obtain ⟨hwbefore, -, hwafter⟩ := hlist
    exact ⟨hok, _, hvalue, hrelist (List.forall_mem_append.2 ⟨hwbefore, List.forall_mem_cons.2 ⟨hstored, hwafter⟩⟩)⟩
  · intro hnone
    have hrefused : replacement = _ := replace_refused hid heid hnone n
    rw [hrefused]
    exact ⟨rfl, rfl⟩
  · obtain ⟨hok, hvalue⟩ := remove_succeeds (e := e) hid heid hr n
    refine ⟨hok, _, hvalue, fun hsome => ?_, without_of_none⟩
    rw [without_of_some hsome]
    exact hrelist fun x hx => hlist x (List.mem_of_mem_filter hx)

/-- a list that is pending itself, with the id twice, once as a number, and with an element that is no object -/
theorem operations_edit_list_pending :
    let n : Node := ⟨.new "w" "t" "n1", "n1"⟩
    let S : Tree := [("id", .string "c1"), ("base", .object [("jobs", .list [.null, .object [("id", .string "j1")],
      .object [("id", .ofNat 1)], .object [("id", .string "j1")]])])]
    let edits : List Edit := [⟨[.child "base", .item "jobs" 1], .set "title" (.string "old")⟩]
    let c : Customer := ⟨(Record.ofSnapshot S).editAll edits⟩
    let e : Entry := .new .job [("id", .string "j1")]
    let answer : Option Json := some (.object [("title", .string "new")])
    let new : Json := .object [("id", .string "j1"), ("title", .string "new")]
    Tree.keys c.tracker.entries = ["base.jobs"] ∧
    (∃ c' : Customer, ((replace n).against (e, c) [.ok answer]).value = (e.settled answer, c') ∧
      c.toRecord.Relisted "base.jobs" [.null, new, .object [("id", .ofNat 1)], .object [("id", .string "j1")]]
        c'.toRecord) ∧
    ∃ c' : Customer, ((remove n).against (e, c) [.ok answer]).value = (e, c') ∧
      c.toRecord.Relisted "base.jobs" [.null, .object [("id", .ofNat 1)]] c'.toRecord := by
  intro n S edits c e answer new
  have ha : ∀ j, answer = some j → j.WellFormed := by
    intro j hj
    obtain rfl : _ = j := Option.some.inj hj
    decide
  have h := operations_edit_list (S := S) (c := c) (by decide) (by decide) (show ∀ e ∈ edits, _ by decide) rfl rfl
    (show e.attributes.WellFormed by decide) ha (show nextReply [.ok answer] = .ok answer from rfl) n
  have hlist : ((Tree.getDotted? e.kind.collectionPath c.attributes).bind Json.list?).getD [] =
      [.null] ++ .object [("id", .string "j1"), ("title", .string "old")] ::
        [.object [("id", .ofNat 1)], .object [("id", .string "j1")]] := by
    dsimp only [c, e, S, edits]
    rfl
  obtain ⟨hreplace, -, -, c', hremoved, hrelisted, -⟩ := h.2 "j1" rfl
  obtain ⟨-, hreplaced⟩ := hreplace _ _ _ hlist (by decide) (by decide)
  rw [hlist] at hrelisted
  exact ⟨rfl, hreplaced, c', hremoved, hrelisted ⟨_, List.mem_of_getElem? (i := 1) rfl, by decide⟩⟩

end Entry

end ContactSync
