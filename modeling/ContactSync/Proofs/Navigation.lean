/-
Reading and writing go the same way.

A view keeps the object that it stands at and goes on from there. A cursor keeps a path and resolves it from the root
each time. As long as both stand at the same object (`Alongside`), one more hop leads both to the same object, or
neither (`Alongside.hop`), and so a row of hops (`Alongside.walk`). The view has the fault of the cursor, but for a list
position without an object, where it has none (`Unseen`).

- `Property.at_of_reached`, `Property.reached_of_at`: reading leads to what stands at a path, with that path, and to all
  of it.
- `Cursor.walk_agrees`: every row of hops on every document.
-/
import ContactSync.Proofs.Cursors

namespace ContactSync

/-! ## Side by side -/

/-- a cursor and a view stand at the same object, with the same path -/
structure Alongside (c : Cursor) (v : TreeView) : Prop where
  path : c.path = v.path
  node : Tree.nodeAt? c.path c.root = some v.tree

/-- the faults of a hop from a view that the view does not have: a list position past the end, or without an object -/
inductive Unseen (v : TreeView) : Hop → Fault → Prop where
  | past {name : String} {index : Nat} {items : List Json} (list : Tree.get? name v.tree = some (.list items))
    (gone : items[index]? = none) :
    Unseen v (.item name index) (.indexOutOfBounds (v.path.key name).display index items.length)
  | flat {name : String} {index : Nat} {items : List Json} {j : Json}
    (list : Tree.get? name v.tree = some (.list items)) (there : items[index]? = some j)
    (noObject : j.isObject = false) :
    Unseen v (.item name index) (.notATree ((v.path.key name).index index).display)

/-- a cursor and a view that go the same way up to a hop and stop there, the cursor with a fault, and the view with the
same one unless it is one that the view does not have -/
def Stopped (c : Cursor) (v : TreeView) (hops : List Hop) (fault : Fault) : Prop :=
  ∃ before hop after c' v', hops = before ++ hop :: after ∧
    c.walk before = .ok c' ∧ v.walk before = .ok (some v') ∧ c'.hop hop = .error fault ∧
    (v'.hop hop = .error fault ∧ v.walk hops = .error fault ∨
      v'.hop hop = .ok none ∧ v.walk hops = .ok none ∧ Unseen v' hop fault)

namespace Alongside

variable {c : Cursor} {v : TreeView}

theorem view (h : Alongside c v) : c.view = .ok v := by
  rw [Cursor.view, Cursor.node_of_nodeAt? h.node, h.path]
  rfl

theorem get (h : Alongside c v) (name : String) : c.get name = v.get name := by
  rw [Cursor.get, Cursor.node_of_nodeAt? h.node, h.path]
  rfl

theorem nodeAt?_append (h : Alongside c v) {steps : List Segment} {t : Tree}
    (ht : (Json.object v.tree).at? steps = some (.object t)) :
    Tree.nodeAt? ⟨v.path.segments ++ steps⟩ c.root = some t := by
  rw [← h.path, Tree.nodeAt?, Tree.atPath?_append h.node, ht]
  rfl

/-- **One hop leads both to the same object, or neither.** -/
theorem hop (h : Alongside c v) (hop : Hop) :
    match v.hop hop with
    | .ok (some w) => c.hop hop = .ok { c with path := w.path } ∧ Alongside { c with path := w.path } w
    | .ok none => ∃ fault, c.hop hop = .error fault ∧ Unseen v hop fault
    | .error fault => c.hop hop = .error fault := by
  have hnode : c.node = .ok v.tree := Cursor.node_of_nodeAt? h.node
  cases hop with
  | child name =>
    simp only [TreeView.hop, TreeView.child, TreeView.get, Cursor.hop, Cursor.child, hnode, h.path, bind, Except.bind]
    cases hget : Tree.get? name v.tree with
    | none => rfl
    | some j =>
      cases j with
      | object members =>
        refine ⟨rfl, rfl, h.nodeAt?_append ?_⟩
        simp [Json.at?, hget]
      | _ => rfl
  | item name index =>
    simp only [TreeView.hop, TreeView.list, TreeView.get, Cursor.hop, Cursor.item, hnode, h.path, bind, Except.bind]
    cases hget : Tree.get? name v.tree with
    | none => rfl
    | some j =>
      cases j with
      | list items =>
        simp only [Property.ofJson, ListView.get?]
        cases hitem : items[index]? with
        | none => exact ⟨_, rfl, .past hget hitem⟩
        | some j =>
          cases j with
          | object members =>
            refine ⟨rfl, rfl, ?_⟩
            have hat : (Json.object v.tree).at? [.key name, .index index] = some (.object members) := by
              simp [Json.at?, hget, hitem]
            simpa [Path.key, Path.index] using h.nodeAt?_append hat
          | _ => exact ⟨_, rfl, .flat hget hitem rfl⟩
      | _ => rfl

end Alongside

/-! ## A row of hops -/

theorem Cursor.walk_of_hop_ok {c c' : Cursor} {hop : Hop} (h : c.hop hop = .ok c') (hops : List Hop) :
    c.walk (hop :: hops) = c'.walk hops := by
  rw [Cursor.walk_cons, h]
  rfl

theorem Cursor.walk_of_hop_error {c : Cursor} {hop : Hop} {fault : Fault} (h : c.hop hop = .error fault)
    (hops : List Hop) : c.walk (hop :: hops) = .error fault := by
  rw [Cursor.walk_cons, h]
  rfl

theorem TreeView.walk_of_hop_ok {v w : TreeView} {hop : Hop} (h : v.hop hop = .ok (some w)) (hops : List Hop) :
    v.walk (hop :: hops) = w.walk hops := by
  rw [TreeView.walk, h]

theorem Stopped.here {c : Cursor} {v : TreeView} {hop : Hop} {fault : Fault} (hc : c.hop hop = .error fault)
    {hops : List Hop} (hv : v.hop hop = .error fault ∧ v.walk (hop :: hops) = .error fault ∨
      v.hop hop = .ok none ∧ v.walk (hop :: hops) = .ok none ∧ Unseen v hop fault) :
    Stopped c v (hop :: hops) fault :=
  ⟨[], hop, hops, c, v, rfl, rfl, rfl, hc, hv⟩

/-- what stops them further on stops them -/
theorem Stopped.cons {c c' : Cursor} {v v' : TreeView} {hop : Hop} {hops : List Hop} {fault : Fault}
    (hc : c.hop hop = .ok c') (hv : v.hop hop = .ok (some v')) (h : Stopped c' v' hops fault) :
    Stopped c v (hop :: hops) fault := by
  obtain ⟨before, stop, after, c₁, v₁, rfl, hc₁, hv₁, hstop, hend⟩ := h
  refine ⟨hop :: before, stop, after, c₁, v₁, rfl, ?_, ?_, hstop, ?_⟩
  · rw [Cursor.walk_of_hop_ok hc, hc₁]
  · rw [TreeView.walk_of_hop_ok hv, hv₁]
  · rwa [TreeView.walk_of_hop_ok hv]

/-- **A row of hops leads both to the same object, or both stop at the same hop.** -/
theorem Alongside.walk {c : Cursor} {v : TreeView} (h : Alongside c v) (hops : List Hop) :
    (∃ c' w, c.walk hops = .ok c' ∧ v.walk hops = .ok (some w) ∧ Alongside c' w) ∨
      ∃ fault, c.walk hops = .error fault ∧ Stopped c v hops fault := by
  induction hops generalizing c v with
  | nil => exact .inl ⟨c, v, rfl, rfl, h⟩
  | cons hop hops ih =>
    have hstep := h.hop hop
    cases hv : v.hop hop with
    | error fault =>
      rw [hv] at hstep
      have hend : v.walk (hop :: hops) = .error fault := by rw [TreeView.walk, hv]
      exact .inr ⟨fault, Cursor.walk_of_hop_error hstep hops, .here hstep (.inl ⟨hv, hend⟩)⟩
    | ok next =>
      rw [hv] at hstep
      cases next with
      | none =>
        obtain ⟨fault, hc, hunseen⟩ := hstep
        have hend : v.walk (hop :: hops) = .ok none := by rw [TreeView.walk, hv]
        exact .inr ⟨fault, Cursor.walk_of_hop_error hc hops, .here hc (.inr ⟨hv, hend, hunseen⟩)⟩
      | some w =>
        obtain ⟨hc, hside⟩ := hstep
        rw [Cursor.walk_of_hop_ok hc, TreeView.walk_of_hop_ok hv]
        rcases ih hside with harrived | ⟨fault, hend, hstopped⟩
        · exact .inl harrived
        · exact .inr ⟨fault, hend, hstopped.cons hc hv⟩

theorem Stopped.walk {c : Cursor} {v : TreeView} {hops : List Hop} {fault : Fault} (h : Stopped c v hops fault) :
    v.walk hops = .error fault ∨ v.walk hops = .ok none := by
  obtain ⟨-, -, -, -, -, -, -, -, -, ⟨-, hend⟩ | ⟨-, hend, -⟩⟩ := h
  · exact .inl hend
  · exact .inr hend

/-! ## What reading leads to -/

/-- the properties that reading leads to from the root of a document, and where: under a name of an object, or at a
position of a list, alone or among all its elements -/
inductive Property.Reached (t : Tree) : Path → Property → Prop where
  | root : Reached t Path.root (.tree (.ofTree t))
  | name {path : Path} {v : TreeView} {name : String} {p : Property} (object : Reached t path (.tree v))
    (get : v.get name = .ok p) : Reached t (path.key name) p
  | position {path : Path} {l : ListView} {index : Nat} {p : Property} (list : Reached t path (.list l))
    (get : l.get? index = some p) : Reached t (path.index index) p
  | element {path : Path} {l : ListView} {index : Nat} {p : Property} (list : Reached t path (.list l))
    (get : l.properties[index]? = some p) : Reached t (path.index index) p

namespace Property

@[simp] theorem toJson_ofJson (path : Path) (j : Json) : (ofJson path j).toJson = j := by
  cases j <;> rfl

theorem path?_ofJson {path q : Path} {j : Json} (h : (ofJson path j).path? = some q) : q = path := by
  cases j <;> cases h <;> rfl

theorem ofJson_eq_tree {path : Path} {j : Json} {v : TreeView} (h : ofJson path j = .tree v) :
    j = .object v.tree ∧ v.path = path := by
  cases j <;> cases h
  exact ⟨rfl, rfl⟩

theorem ofJson_eq_list {path : Path} {j : Json} {l : ListView} (h : ofJson path j = .list l) :
    j = .list l.items ∧ l.path = path := by
  cases j <;> cases h
  exact ⟨rfl, rfl⟩

end Property

/-- all elements together are the elements one by one -/
theorem ListView.getElem?_properties (l : ListView) (index : Nat) : l.properties[index]? = l.get? index := by
  rw [properties, get?, List.getElem?_mapIdx]

namespace Property

variable {t : Tree} {path : Path} {p : Property}

theorem element_at {l : ListView} {index : Nat} (h : ∃ j, t.atPath? path = some j ∧ .list l = ofJson path j)
    (hget : l.get? index = some p) :
    ∃ j, t.atPath? (path.index index) = some j ∧ p = ofJson (path.index index) j := by
  obtain ⟨j, hj, hl⟩ := h
  obtain ⟨rfl, rfl⟩ := ofJson_eq_list hl.symm
  obtain ⟨item, hitem, rfl⟩ := Option.map_eq_some_iff.1 hget
  refine ⟨item, ?_, rfl⟩
  rw [Path.index, Tree.atPath?_further, hj, Option.bind_some, Json.at?, hitem]
  rfl

/-- reading leads to what stands at a path, with that path -/
theorem at_of_reached (h : Reached t path p) : ∃ j, t.atPath? path = some j ∧ p = ofJson path j := by
  induction h with
  | root => exact ⟨.object t, rfl, rfl⟩
  | @name path v name p object get ih =>
    obtain ⟨j, hj, hv⟩ := ih
    obtain ⟨rfl, rfl⟩ := ofJson_eq_tree hv.symm
    rw [Path.key, Tree.atPath?_further, hj, Option.bind_some, Json.at?]
    rw [TreeView.get] at get
    cases hk : Tree.get? name v.tree with
    | none => rw [hk] at get; cases get
    | some member => rw [hk] at get; cases get; exact ⟨member, rfl, rfl⟩
  | position list get ih => exact element_at ih get
  | element list get ih => exact element_at ih ((ListView.getElem?_properties _ _).symm.trans get)

/-- reading leads everywhere -/
theorem reached_of_at {segments : List Segment} {j : Json} (h : t.atPath? ⟨segments⟩ = some j) :
    Reached t ⟨segments⟩ (ofJson ⟨segments⟩ j) := by
  induction segments using List.reverseRecOn generalizing j with
  | nil => cases h; exact .root
  | append_singleton segments s ih =>
    rw [Tree.atPath?_further ⟨segments⟩ [s] t, Option.bind_eq_some_iff] at h
    obtain ⟨above, habove, hj⟩ := h
    have hreached : Reached t ⟨segments⟩ (ofJson ⟨segments⟩ above) := ih habove
    cases s with
    | key name =>
      cases above with
      | object members =>
        refine .name hreached ?_
        obtain ⟨member, hmember, hj⟩ := Option.bind_eq_some_iff.1 hj
        cases hj
        rw [TreeView.get, hmember]
        rfl
      | _ => cases hj
    | index position =>
      cases above with
      | list items =>
        refine .position hreached ?_
        obtain ⟨item, hitem, hj⟩ := Option.bind_eq_some_iff.1 hj
        cases hj
        rw [ListView.get?, hitem]
        rfl
      | _ => cases hj

end Property

/-! ## Every row of hops on every document -/

namespace Cursor

open Property (Reached)

/-- **A cursor and a view go the same way.** Over every row of hops from the root of a document, tracked or not: one
arrives exactly when the other does, and then they are at the same object, with the path of the hops, and give the same
for every name. Reading leads everywhere; what it leads to is the value at its place, and a nested object or list has
the path of the place. All the elements of a list together are the elements one by one. When the cursor does not arrive,
both stop at the same hop, and with the same fault, unless the hop goes to a list position that is past the end or holds
no object, where the view has none. -/
theorem walk_agrees (t : Tree) (tracker : Option Tracker) (hops : List Hop) :
    let c : Cursor := ⟨t, tracker, Path.root⟩
    let v := TreeView.ofTree t
    ((∃ c', c.walk hops = .ok c') ↔ ∃ w, v.walk hops = .ok (some w)) ∧
    (∀ c' w, c.walk hops = .ok c' → v.walk hops = .ok (some w) →
      c'.path = w.path ∧ w.path.segments = hops.flatMap Hop.segments ∧ c'.view = .ok w ∧
      (∀ name, c'.get name = w.get name) ∧ Reached t w.path (.tree w)) ∧
    (∀ path p, Reached t path p → t.atPath? path = some p.toJson ∧ ∀ q, p.path? = some q → q = path) ∧
    (∀ path j, t.atPath? path = some j → Reached t path (Property.ofJson path j)) ∧
    (∀ (l : ListView) index, l.properties[index]? = l.get? index) ∧
    (∀ fault, c.walk hops = .error fault → Stopped c v hops fault) ∧
    (∀ fault, v.walk hops = .error fault → c.walk hops = .error fault) := by
  intro c v
  have hside : Alongside c v := ⟨rfl, rfl⟩
  have hread : ∀ path p, Reached t path p → t.atPath? path = some p.toJson ∧ ∀ q, p.path? = some q → q = path := by
    intro path p hp
    obtain ⟨j, hj, rfl⟩ := Property.at_of_reached hp
    exact ⟨by rw [Property.toJson_ofJson, hj], fun q => Property.path?_ofJson⟩
  rcases hside.walk hops with ⟨c', w, hc, hv, hend⟩ | ⟨fault, hc, hstopped⟩
  · refine ⟨⟨fun _ => ⟨w, hv⟩, fun _ => ⟨c', hc⟩⟩, ?_, hread, fun _ _ => Property.reached_of_at,
      ListView.getElem?_properties, ?_, ?_⟩
    · intro c₁ w₁ hc₁ hw₁
      cases hc.symm.trans hc₁
      cases hv.symm.trans hw₁
      have hc' := walk_ok hc
      have hat := Tree.nodeAt?_eq_some_iff.1 hend.node
      have hsegments : w.path.segments = hops.flatMap Hop.segments := by
        rw [← hend.path, hc']
        rfl
      have hroot : c'.root = t := by rw [hc']
      rw [hend.path, hroot] at hat
      exact ⟨hend.path, hsegments, hend.view, hend.get, Property.reached_of_at hat⟩
    · intro fault hfault
      cases hc.symm.trans hfault
    · intro fault hfault
      cases hv.symm.trans hfault
  · refine ⟨⟨?_, ?_⟩, ?_, hread, fun _ _ => Property.reached_of_at, ListView.getElem?_properties, ?_, ?_⟩
    · rintro ⟨c', hc'⟩
      cases hc.symm.trans hc'
    · rintro ⟨w, hw⟩
      rcases hstopped.walk with hv | hv <;> cases hv.symm.trans hw
    · intro c' w hc'
      cases hc.symm.trans hc'
    · intro fault' hfault
      cases hc.symm.trans hfault
      exact hstopped
    · intro fault' hfault
      rcases hstopped.walk with hv | hv
      · cases hv.symm.trans hfault
        exact hc
      · cases hv.symm.trans hfault

/-- to an object in a list, to an object in a list in a list, and to a list where an object was asked for -/
theorem walk_agrees_in_list :
    let t : Tree := [("base", .object [("jobs", .list [.object [("title", .string "x")], .list [.object []]])])]
    let c : Cursor := ⟨t, some .empty, Path.root⟩
    let v := TreeView.ofTree t
    let jobs : Path := ⟨[.key "base", .key "jobs"]⟩
    let inner : Path := ⟨[.key "base", .key "jobs", .index 1, .index 0]⟩
    (∃ c' w, c.walk [.child "base", .item "jobs" 0] = .ok c' ∧ v.walk [.child "base", .item "jobs" 0] = .ok (some w) ∧
      c'.path = w.path ∧ c'.view = .ok w ∧ ∀ name, c'.get name = w.get name) ∧
    (∃ p, Reached t inner p ∧ p.path? = some inner ∧ t.atPath? inner = some p.toJson) ∧
    (∃ l, Reached t jobs (.list l) ∧ l.properties.length = 2 ∧ ∀ index, l.properties[index]? = l.get? index) ∧
    (c.walk [.child "base", .item "jobs" 1, .child "title"] = .error (.notATree "base.jobs[1]") ∧
      Stopped c v [.child "base", .item "jobs" 1, .child "title"] (.notATree "base.jobs[1]")) := by
  intro t c v jobs inner
  obtain ⟨-, harrived, hread, hreached, helements, -, -⟩ := walk_agrees t (some .empty) [.child "base", .item "jobs" 0]
  obtain ⟨-, -, -, -, -, hstopped, -⟩ := walk_agrees t (some .empty) [.child "base", .item "jobs" 1, .child "title"]
  obtain ⟨hpath, -, hview, hget, -⟩ := harrived _ _ rfl rfl
  have hinner : Reached t inner (.tree ⟨[], inner⟩) := hreached inner (.object []) rfl
  have hjobs : Reached t jobs (.list ⟨[.object [("title", .string "x")], .list [.object []]], jobs⟩) :=
    hreached jobs (.list _) rfl
  exact ⟨⟨_, _, rfl, rfl, hpath, hview, hget⟩, ⟨_, hinner, rfl, (hread inner _ hinner).1⟩,
    ⟨_, hjobs, rfl, helements _⟩, rfl, hstopped _ rfl⟩

end Cursor

end ContactSync
