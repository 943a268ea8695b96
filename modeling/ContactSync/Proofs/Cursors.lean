/-
Cursors that are open one below another.

Taking a cursor further down borrows the one above it, which goes on where the other has written once that one is given
up. So at any time the open cursors stand on one way down the document (`OpenCursors`), and the innermost is in use. A
write goes into the object that it stands at, which leaves every object and every list on the way what it was
(`Json.updateAt?_append`): no open cursor is ever left without its object, whatever has been written (`live_run`).

- `Cursor.Wrote`: where a written value is, and what else stays.
- `Cursor.untracked`: the same cursor without a tracker. It goes and writes the same way (`run_untracked`).
- `writes_reach_their_place`: every cursor that is open after every row of moves, on every record.
-/
import ContactSync.Proofs.Edits

namespace ContactSync

/-! ## One cursor -/

namespace Cursor

/-- what a write of a value under a name does: the value is there, what lies off the place is as it was, and so far as
the way there goes, objects are objects and lists are as long -/
structure Wrote (c : Cursor) (name : String) (value : Json) (c' : Cursor) : Prop where
  path : c'.path = c.path
  target : Tree.atPath? (c.path.key name) c'.root = some value
  frame : ∀ q : Path, ¬q.segments <+: (c.path.key name).segments → ¬(c.path.key name).segments <+: q.segments →
    Tree.atPath? q c'.root = Tree.atPath? q c.root
  objects : ∀ q : Path, q.segments <+: c.path.segments → ∀ t, Tree.nodeAt? q c.root = some t →
    ∃ t', Tree.nodeAt? q c'.root = some t'
  lists : ∀ q : Path, q.segments <+: c.path.segments → ∀ items, Tree.atPath? q c.root = some (.list items) →
    ∃ items', Tree.atPath? q c'.root = some (.list items') ∧ items'.length = items.length

variable {c c' : Cursor} {node : Tree}

theorem node_of_nodeAt? (h : Tree.nodeAt? c.path c.root = some node) : c.node = .ok node := by
  rw [Cursor.node, h]

theorem wrote_of_updateAt? {name : String} {value : Json} (h : Tree.nodeAt? c.path c.root = some node)
    (hpath : c'.path = c.path) (hup : (Json.object c.root).updateAt? (Tree.insert name value) c.path.segments =
      some (.object c'.root)) : c.Wrote name value c' := by
  refine ⟨hpath, ?_, fun q h1 h2 => Json.at?_updateAt?_off hup h1 h2, ?_, ?_⟩
  · rw [← List.append_nil c.path.segments] at hup
    obtain ⟨x, x', hx, hx', hat⟩ := Json.updateAt?_append hup
    rw [Tree.nodeAt?_eq_some_iff.1 h] at hx
    cases hx
    cases hx'
    rw [Tree.atPath?_key (Tree.nodeAt?_eq_some_iff.2 hat), Tree.get?_insert_self]
  · rintro q ⟨r, hr⟩ t ht
    rw [← hr] at hup
    obtain ⟨x, x', hx, hx', hat⟩ := Json.updateAt?_append hup
    rw [Tree.nodeAt?_eq_some_iff.1 ht] at hx
    cases hx
    obtain ⟨t', rfl⟩ := Json.object_of_updateAt? hx'
    exact ⟨t', Tree.nodeAt?_eq_some_iff.2 hat⟩
  · rintro q ⟨r, hr⟩ items hitems
    rw [← hr] at hup
    obtain ⟨x, x', hx, hx', hat⟩ := Json.updateAt?_append hup
    rw [Tree.atPath?, hx] at hitems
    cases hitems
    obtain ⟨items', rfl, hlen⟩ := Json.list_of_updateAt? hx'
    exact ⟨items', hat, hlen⟩

/-- **A write under a name succeeds wherever a cursor stands at an object**, and reaches its place. -/
theorem set_wrote (h : Tree.nodeAt? c.path c.root = some node) (name : String) (value : Json) :
    ∃ c', c.set name value = .ok c' ∧ c.Wrote name value c' := by
  obtain ⟨j', hup⟩ := Json.exists_updateAt? (Tree.nodeAt?_eq_some_iff.1 h) (Tree.insert name value)
  obtain ⟨root', rfl⟩ := Json.object_of_updateAt? hup
  have hins : Tree.insertAt? c.path name value c.root = some root' := by rw [Tree.insertAt?, hup]; rfl
  let report := reported root' (c.path.key name) (Tree.get? name node) value
  have hset : c.set name value = .ok { c with root := root', tracker := c.tracker.map report } := by
    rw [Cursor.set, node_of_nodeAt? h]
    simp only [bind, Except.bind, hins]
    rfl
  exact ⟨_, hset, wrote_of_updateAt? h rfl hup⟩

/-- lengthening a list is writing the longer one; anything else under the name, and nothing there, is refused -/
theorem extend_eq (h : Tree.nodeAt? c.path c.root = some node) (name : String) (items : List Json) :
    c.extend name items =
      match Tree.atPath? (c.path.key name) c.root with
      | some (.list present) => c.set name (.list (present ++ items))
      | some _ => .error (.notAList (c.path.key name).display)
      | none => .error (TreeView.missing c.path name) := by
  rw [Tree.atPath?_key h, Cursor.extend, Cursor.get, node_of_nodeAt? h]
  simp only [bind, Except.bind]
  cases Tree.get? name node with
  | none => rfl
  | some j => cases j <;> rfl

theorem hop_eq_ok (h : Tree.nodeAt? c.path c.root = some node) (hop : Hop) {t : Tree}
    (ht : Tree.nodeAt? ⟨c.path.segments ++ hop.segments⟩ c.root = some t) :
    c.hop hop = .ok { c with path := ⟨c.path.segments ++ hop.segments⟩ } := by
  rw [Tree.nodeAt?, Tree.atPath?_append h] at ht
  obtain ⟨x, hx, ho⟩ := Option.bind_eq_some_iff.1 ht
  obtain rfl := Json.eq_object_of_object? ho
  cases hop with
  | child name =>
    have hx : Tree.get? name node = some (.object t) := by simpa [Hop.segments, Json.at?] using hx
    simp only [Cursor.hop, Cursor.child, node_of_nodeAt? h, bind, Except.bind, hx]
    rfl
  | item name index =>
    simp only [Hop.segments, Json.at?] at hx
    obtain ⟨j, hj, hx⟩ := Option.bind_eq_some_iff.1 hx
    cases j with
    | list items =>
      have hx : items[index]? = some (.object t) := by simpa [Json.at?] using hx
      simp only [Cursor.hop, Cursor.item, node_of_nodeAt? h, bind, Except.bind, hj, hx]
      simp [Hop.segments, Path.key, Path.index]
    | _ => cases hx

theorem nodeAt?_of_hop_ok {hop : Hop} (hc : c.hop hop = .ok c') :
    ∃ t, Tree.nodeAt? ⟨c.path.segments ++ hop.segments⟩ c.root = some t := by
  cases hop with
  | child name =>
    obtain ⟨node, hn, hc⟩ := bind_ok hc
    split at hc
    · rename_i t ht
      refine ⟨t, Tree.nodeAt?_eq_some_iff.2 ((Tree.atPath?_append (node_ok hn) _).trans ?_)⟩
      simp [Hop.segments, Json.at?, ht]
    · cases hc
    · cases hc
  | item name index =>
    obtain ⟨node, hn, hc⟩ := bind_ok hc
    split at hc
    · rename_i items hitems
      split at hc
      · rename_i t ht
        refine ⟨t, Tree.nodeAt?_eq_some_iff.2 ((Tree.atPath?_append (node_ok hn) _).trans ?_)⟩
        simp [Hop.segments, Json.at?, hitems, ht]
      · cases hc
      · cases hc
    · cases hc
    · cases hc

theorem apply_wrote {w : Write} (h : Tree.nodeAt? c.path c.root = some node) (hc : c.apply w = .ok c') :
    ∃ value, c.Wrote w.name value c' := by
  cases w with
  | set name value =>
    obtain ⟨d, hd, hw⟩ := set_wrote h name value
    obtain rfl : d = c' := Except.ok.inj (hd.symm.trans hc)
    exact ⟨value, hw⟩
  | extend name items =>
    obtain ⟨node', present, -, -, hset⟩ := extend_ok hc
    obtain ⟨d, hd, hw⟩ := set_wrote h name (.list (present ++ items))
    obtain rfl : d = c' := Except.ok.inj (hd.symm.trans hset)
    exact ⟨_, hw⟩

/-! ### Without a tracker -/

/-- the same cursor on a document that is not tracked -/
def untracked (c : Cursor) : Cursor := { c with tracker := none }

theorem hop_untracked (c : Cursor) (hop : Hop) : c.untracked.hop hop = (c.hop hop).map untracked := by
  cases hop with
  | child name =>
    simp only [Cursor.hop, Cursor.child, untracked, Cursor.node, bind, Except.bind]
    repeat' split
    all_goals rfl
  | item name index =>
    simp only [Cursor.hop, Cursor.item, untracked, Cursor.node, bind, Except.bind]
    repeat' split
    all_goals rfl

theorem set_untracked (c : Cursor) (name : String) (value : Json) :
    c.untracked.set name value = (c.set name value).map untracked := by
  simp only [Cursor.set, untracked, Cursor.node, bind, Except.bind]
  repeat' split
  all_goals rfl

theorem extend_untracked (c : Cursor) (name : String) (items : List Json) :
    c.untracked.extend name items = (c.extend name items).map untracked := by
  have hget : c.untracked.get name = c.get name := rfl
  rw [Cursor.extend, Cursor.extend, hget]
  cases c.get name with
  | error fault => rfl
  | ok property =>
    cases property with
    | list present => exact set_untracked c name _
    | _ => rfl

theorem apply_untracked (c : Cursor) (w : Write) : c.untracked.apply w = (c.apply w).map untracked := by
  cases w with
  | set name value => exact set_untracked c name value
  | extend name items => exact extend_untracked c name items

end Cursor

/-! ## Open cursors -/

/-- the cursor in use and those around it, each as it was when the next one was taken -/
structure OpenCursors where
  inner : Cursor
  outer : List Cursor

/-- what can be done with open cursors -/
inductive Move where
  | enter (hop : Hop)
  | leave
  | write (w : Write)

namespace OpenCursors

/-- one cursor alone -/
def of (c : Cursor) : OpenCursors := ⟨c, []⟩

def paths (o : OpenCursors) : List Path := o.inner.path :: o.outer.map Cursor.path

/-- one move, with its fault if it has one. The last cursor is not left -/
def step (o : OpenCursors) : Move → Option Fault × OpenCursors
  | .enter hop =>
    match o.inner.hop hop with
    | .ok c => (none, ⟨c, o.inner :: o.outer⟩)
    | .error fault => (some fault, o)
  | .leave =>
    match o.outer with
    | c :: rest => (none, ⟨c.resume o.inner, rest⟩)
    | [] => (none, o)
  | .write w =>
    match o.inner.apply w with
    | .ok c => (none, { o with inner := c })
    | .error fault => (some fault, o)

def run (o : OpenCursors) : List Move → List (Option Fault) × OpenCursors
  | [] => ([], o)
  | m :: moves =>
    let (fault, next) := o.step m
    let (faults, last) := next.run moves
    (fault :: faults, last)

def untracked (o : OpenCursors) : OpenCursors := ⟨o.inner.untracked, o.outer.map Cursor.untracked⟩

/-- every open cursor stands at an object, on the way to those inside it -/
structure Live (o : OpenCursors) : Prop where
  stands : ∀ p ∈ o.paths, ∃ t, Tree.nodeAt? p o.inner.root = some t
  way : o.paths.Pairwise fun p q => q.segments <+: p.segments

variable {o : OpenCursors}

theorem live_of {c : Cursor} (h : ∃ t, Tree.nodeAt? c.path c.root = some t) : Live (of c) := by
  constructor
  · intro p hp
    obtain rfl := List.mem_singleton.1 hp
    exact h
  · exact List.pairwise_singleton _ _

theorem Live.inner (h : Live o) : ∃ t, Tree.nodeAt? o.inner.path o.inner.root = some t :=
  h.stands _ List.mem_cons_self

/-- open cursors stand on the way to the innermost -/
theorem Live.prefix_inner (h : Live o) {p : Path} (hp : p ∈ o.paths) : p.segments <+: o.inner.path.segments := by
  rcases List.mem_cons.1 hp with rfl | hp
  · exact List.prefix_refl _
  · exact (List.pairwise_cons.1 h.way).1 p hp

/-- **No move takes the object from a cursor that stays open.** -/
theorem live_step (h : Live o) (m : Move) : Live (o.step m).2 := by
  obtain ⟨node, hnode⟩ := h.inner
  cases m with
  | enter hop =>
    simp only [step]
    cases hc : o.inner.hop hop with
    | error fault => exact h
    | ok c =>
      have hstands := Cursor.nodeAt?_of_hop_ok hc
      obtain rfl := Cursor.hop_ok hc
      constructor
      · intro p hp
        rcases List.mem_cons.1 hp with rfl | hp
        · exact hstands
        · exact h.stands p hp
      · refine List.pairwise_cons.2 ⟨?_, h.way⟩
        intro p hp
        exact (h.prefix_inner hp).trans (List.prefix_append _ _)
  | leave =>
    obtain ⟨inner, outer⟩ := o
    cases outer with
    | nil => exact h
    | cons c rest =>
      -- the cursor outside goes on with the document as the inner one leaves it
      constructor
      · intro p hp
        exact h.stands p (List.mem_cons_of_mem _ hp)
      · exact (List.pairwise_cons.1 h.way).2
  | write w =>
    simp only [step]
    cases hc : o.inner.apply w with
    | error fault => exact h
    | ok c =>
      obtain ⟨value, hw⟩ := Cursor.apply_wrote hnode hc
      have hpaths : paths { o with inner := c } = o.paths := by rw [paths, paths, hw.path]
      constructor
      · intro p hp
        rw [hpaths] at hp
        obtain ⟨t, ht⟩ := h.stands p hp
        exact hw.objects p (h.prefix_inner hp) t ht
      · rw [hpaths]
        exact h.way

/-- **No row of moves does.** -/
theorem live_run (h : Live o) (moves : List Move) : Live (o.run moves).2 := by
  induction moves generalizing o with
  | nil => exact h
  | cons m moves ih => exact ih (live_step h m)

theorem step_of_fault {m : Move} (h : (o.step m).1 ≠ none) : (o.step m).2 = o := by
  cases m with
  | enter hop =>
    simp only [step] at h ⊢
    cases hc : o.inner.hop hop with
    | error fault => rfl
    | ok c => rw [hc] at h; exact absurd rfl h
  | leave =>
    obtain ⟨inner, outer⟩ := o
    cases outer <;> exact absurd rfl h
  | write w =>
    simp only [step] at h ⊢
    cases hc : o.inner.apply w with
    | error fault => rfl
    | ok c => rw [hc] at h; exact absurd rfl h

theorem step_untracked (o : OpenCursors) (m : Move) : o.untracked.step m = ((o.step m).1, (o.step m).2.untracked) := by
  cases m with
  | enter hop =>
    simp only [step, untracked, Cursor.hop_untracked]
    cases o.inner.hop hop <;> rfl
  | leave =>
    obtain ⟨inner, outer⟩ := o
    cases outer <;> rfl
  | write w =>
    simp only [step, untracked, Cursor.apply_untracked]
    cases o.inner.apply w <;> rfl

/-- **A document that is not tracked is written the same way**, with the same faults. -/
theorem run_untracked (o : OpenCursors) (moves : List Move) :
    o.untracked.run moves = ((o.run moves).1, (o.run moves).2.untracked) := by
  induction moves generalizing o with
  | nil => rfl
  | cons m moves ih => simp only [run, step_untracked, ih]

/-! ## Every cursor on every record -/

theorem Live.step_enter (h : Live o) (hop : Hop) :
    ((∃ t, Tree.nodeAt? ⟨o.inner.path.segments ++ hop.segments⟩ o.inner.root = some t) →
      o.step (.enter hop) =
        (none, ⟨{ o.inner with path := ⟨o.inner.path.segments ++ hop.segments⟩ }, o.inner :: o.outer⟩)) ∧
    ((¬∃ t, Tree.nodeAt? ⟨o.inner.path.segments ++ hop.segments⟩ o.inner.root = some t) →
      ∃ fault, o.step (.enter hop) = (some fault, o)) := by
  obtain ⟨node, hnode⟩ := h.inner
  constructor
  · rintro ⟨t, ht⟩
    simp only [step, Cursor.hop_eq_ok hnode hop ht]
  · intro hno
    cases hc : o.inner.hop hop with
    | error fault => exact ⟨fault, by simp only [step, hc]⟩
    | ok c => exact absurd (Cursor.nodeAt?_of_hop_ok hc) hno

theorem Live.step_set (h : Live o) (name : String) (value : Json) :
    ∃ c, o.step (.write (.set name value)) = (none, { o with inner := c }) ∧ o.inner.Wrote name value c := by
  obtain ⟨node, hnode⟩ := h.inner
  obtain ⟨c, hc, hw⟩ := Cursor.set_wrote hnode name value
  exact ⟨c, by simp only [step, Cursor.apply, hc], hw⟩

theorem Live.step_extend (h : Live o) (name : String) (items : List Json) :
    match Tree.atPath? (o.inner.path.key name) o.inner.root with
    | some (.list present) =>
      ∃ c, o.step (.write (.extend name items)) = (none, { o with inner := c }) ∧
        o.inner.Wrote name (.list (present ++ items)) c
    | some _ => o.step (.write (.extend name items)) = (some (.notAList (o.inner.path.key name).display), o)
    | none => o.step (.write (.extend name items)) = (some (TreeView.missing o.inner.path name), o) := by
  obtain ⟨node, hnode⟩ := h.inner
  have hextend := Cursor.extend_eq hnode name items
  cases hat : Tree.atPath? (o.inner.path.key name) o.inner.root with
  | none =>
    rw [hat] at hextend
    simp only [step, Cursor.apply, hextend]
  | some j =>
    rw [hat] at hextend
    cases j with
    | list present =>
      obtain ⟨c, hc, hw⟩ := Cursor.set_wrote hnode name (.list (present ++ items))
      exact ⟨c, by simp only [step, Cursor.apply, hextend, hc], hw⟩
    | _ => simp only [step, Cursor.apply, hextend]

/-- **Writes reach their place, spare everything else, and never take the object from an open cursor.** After any moves
on any record: every open cursor stands at an object; the cursor in use goes wherever an object is; a value that it
writes is where it was written, what lies off that place is as it was, and the lists on the way are as long; it
lengthens a list by what is added; whatever is refused changes nothing. Without a tracker the same moves give the same
document and the same faults. -/
theorem writes_reach_their_place (r : Record) (moves : List Move) :
    let o := ((of r.cursor).run moves).2
    (∀ p ∈ o.paths, ∃ t, Tree.nodeAt? p o.inner.root = some t) ∧
    (∀ hop, ((∃ t, Tree.nodeAt? ⟨o.inner.path.segments ++ hop.segments⟩ o.inner.root = some t) →
        o.step (.enter hop) =
          (none, ⟨{ o.inner with path := ⟨o.inner.path.segments ++ hop.segments⟩ }, o.inner :: o.outer⟩)) ∧
      ((¬∃ t, Tree.nodeAt? ⟨o.inner.path.segments ++ hop.segments⟩ o.inner.root = some t) →
        ∃ fault, o.step (.enter hop) = (some fault, o))) ∧
    (∀ name value, ∃ c, o.step (.write (.set name value)) = (none, { o with inner := c }) ∧
      o.inner.Wrote name value c) ∧
    (∀ name items,
      match Tree.atPath? (o.inner.path.key name) o.inner.root with
      | some (.list present) =>
        ∃ c, o.step (.write (.extend name items)) = (none, { o with inner := c }) ∧
          o.inner.Wrote name (.list (present ++ items)) c
      | some _ => o.step (.write (.extend name items)) = (some (.notAList (o.inner.path.key name).display), o)
      | none => o.step (.write (.extend name items)) = (some (TreeView.missing o.inner.path name), o)) ∧
    (∀ m, (o.step m).1 ≠ none → (o.step m).2 = o) ∧
    (of (.detached r.attributes)).run moves = (((of r.cursor).run moves).1, o.untracked) := by
  intro o
  have hstart : Live (of r.cursor) := live_of ⟨r.attributes, rfl⟩
  have hlive : Live o := live_run hstart moves
  exact ⟨hlive.stands, hlive.step_enter, hlive.step_set, hlive.step_extend, fun _ => step_of_fault,
    run_untracked (of r.cursor) moves⟩

/-- inside a list element whose title has become an object: a refused write further down, the way back, a write, and a
hop that has lost its list -/
theorem writes_reach_their_place_in_list :
    let r : Record := .ofSnapshot [("base", .object [("jobs", .list [.object [("title", .list [.null])], .ofNat 7])])]
    let moves : List Move := [.enter (.child "base"), .enter (.item "jobs" 0), .write (.set "title" (.object [])),
      .enter (.child "title"), .write (.extend "short" [.null]), .leave]
    let o := ((of r.cursor).run moves).2
    ((of r.cursor).run moves).1 =
      [none, none, none, none, some (.attributeNotFound "short" "base.jobs[0].title"), none] ∧
    o.paths = [⟨[.key "base", .key "jobs", .index 0]⟩, ⟨[.key "base"]⟩, ⟨[]⟩] ∧
    (∃ c, o.step (.write (.set "end" .null)) = (none, { o with inner := c }) ∧ o.inner.Wrote "end" .null c) ∧
    (∃ fault, o.step (.enter (.item "title" 0)) = (some fault, o)) ∧
    (of (.detached r.attributes)).run moves = (((of r.cursor).run moves).1, o.untracked) := by
  intro r moves o
  obtain ⟨-, henter, hset, -, -, huntracked⟩ := writes_reach_their_place r moves
  have hlost : ¬∃ t, Tree.nodeAt? ⟨o.inner.path.segments ++ (Hop.item "title" 0).segments⟩ o.inner.root = some t := by
    rintro ⟨t, ht⟩
    cases ht
  exact ⟨rfl, rfl, hset "end" .null, (henter (.item "title" 0)).2 hlost, huntracked⟩

end OpenCursors

end ContactSync
