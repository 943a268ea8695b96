/-
What a tracked write does to a record.

Every tracked write that succeeds is one write at a row of keys outside lists, its place: the names on its way, or the
names down to the outermost list on its way, which it then writes anew as a whole (`edit_ok`). It is reported there, an
object over an object as the difference of the two, anything else as the value. So a run changes attributes and tracker
at the same places.
-/
import ContactSync.Proofs.Lens
import ContactSync.Proofs.Marks
import ContactSync.Proofs.Replay
import ContactSync.Proofs.Steps
import ContactSync.Record.Basic

namespace ContactSync

/-! ## Places of writes -/

def Hop.segments : Hop → List Segment
  | .child name => [.key name]
  | .item name index => [.key name, .index index]

def Hop.isItem : Hop → Bool
  | .child _ => false
  | .item _ _ => true

/-- the keys to a name behind hops, or to the first list on the way -/
def Hop.place : List Hop → String → List String
  | [], name => [name]
  | .child k :: hops, name => k :: place hops name
  | .item k _ :: _, _ => [k]

def Write.name : Write → String
  | .set name _ => name
  | .extend name _ => name

/-- what a write puts in the place of an old value -/
def Write.Gives (old : Option Json) (value : Json) : Write → Prop
  | .set _ v => value = v
  | .extend _ items => ∃ present, old = some (.list present) ∧ value = .list (present ++ items)

/-- nothing written has an object that writes one key twice -/
def Write.WellFormed : Write → Prop
  | .set _ value => value.WellFormed
  | .extend _ items => ∀ j ∈ items, j.WellFormed

/-- every key outside lists that is written below the name is plain -/
def Write.PlainKeys : Write → Prop
  | .set _ value => value.PlainKeys
  | .extend _ _ => True

instance : (w : Write) → Decidable w.WellFormed
  | .set _ value => inferInstanceAs (Decidable value.WellFormed)
  | .extend _ items => inferInstanceAs (Decidable (∀ j ∈ items, j.WellFormed))

instance : (w : Write) → Decidable w.PlainKeys
  | .set _ value => inferInstanceAs (Decidable value.PlainKeys)
  | .extend _ _ => inferInstanceAs (Decidable True)

namespace Edit

/-- where a write is reported: its own place, or below a list the place of the outermost list -/
def place (e : Edit) : List String := Hop.place e.hops e.write.name

def inList (e : Edit) : Bool := e.hops.any Hop.isItem

def WellFormed (e : Edit) : Prop := e.write.WellFormed

/-- every key outside lists is plain, in the place and, unless it lies below a list, in what is written -/
def PlainKeys (e : Edit) : Prop := Dotted.PlainKeys e.place ∧ (e.inList = false → e.write.PlainKeys)

instance (e : Edit) : Decidable e.WellFormed := inferInstanceAs (Decidable e.write.WellFormed)

instance (e : Edit) : Decidable e.PlainKeys :=
  inferInstanceAs (Decidable (Dotted.PlainKeys e.place ∧ (e.inList = false → e.write.PlainKeys)))

/-- the path of the object that a write goes into -/
def path (e : Edit) : Path := ⟨e.hops.flatMap Hop.segments⟩

end Edit

namespace Hop

theorem place_ne_nil (hops : List Hop) (name : String) : place hops name ≠ [] := by
  cases hops with
  | nil => exact List.cons_ne_nil _ _
  | cons h hops => cases h <;> exact List.cons_ne_nil _ _

theorem segments_of_outside {hops : List Hop} (h : hops.any isItem = false) (name : String) :
    hops.flatMap segments ++ [Segment.key name] = (place hops name).map Segment.key := by
  induction hops with
  | nil => rfl
  | cons hop hops ih =>
    rw [List.any_cons, Bool.or_eq_false_iff] at h
    cases hop with
    | child k => simpa [segments, place] using ih h.2
    | item k i => cases h.1

theorem takeWhile_segments {hops : List Hop} (h : hops.any isItem = true) (name : String) :
    (hops.flatMap segments ++ [Segment.key name]).takeWhile (fun s => !s.isIndex) =
      (place hops name).map Segment.key := by
  induction hops with
  | nil => cases h
  | cons hop hops ih =>
    cases hop with
    | child k => simpa [segments, place, Segment.isIndex] using ih (by simpa [isItem] using h)
    | item k i => simp [segments, place, Segment.isIndex]

theorem any_isIndex (hops : List Hop) (name : String) :
    (hops.flatMap segments ++ [Segment.key name]).any Segment.isIndex = hops.any isItem := by
  induction hops with
  | nil => rfl
  | cons hop hops ih => cases hop <;> simp_all [segments, isItem, Segment.isIndex]

end Hop

theorem Edit.place_ne_nil (e : Edit) : e.place ≠ [] := Hop.place_ne_nil _ _

namespace Path

theorem keys_map_key (ks : List String) : keys ⟨ks.map Segment.key⟩ = ks := by
  simp [keys, List.filterMap_map, Function.comp_def, Segment.key?]

theorem dotted_keys {ks : List String} (h : Dotted.PlainKeys ks) : dotted ⟨ks.map Segment.key⟩ = Dotted.ofKeys ks := by
  rw [dotted, keys_map_key, h.dropWhile_isEmpty]

end Path

/-! ## A write, step by step -/

namespace Cursor

theorem bind_ok {ε α β : Type} {x : Except ε α} {f : α → Except ε β} {b : β} (h : x >>= f = .ok b) :
    ∃ a, x = .ok a ∧ f a = .ok b := by
  cases x with
  | error e => cases h
  | ok a => exact ⟨a, rfl, h⟩

theorem hop_ok {c c' : Cursor} {h : Hop} (hc : c.hop h = .ok c') :
    c' = { c with path := ⟨c.path.segments ++ h.segments⟩ } := by
  cases h with
  | child name =>
    obtain ⟨node, -, h⟩ := bind_ok hc
    split at h
    · cases h; rfl
    · cases h
    · cases h
  | item name index =>
    obtain ⟨node, -, h⟩ := bind_ok hc
    split at h
    · split at h
      · cases h; simp [Path.key, Path.index, Hop.segments]
      · cases h
      · cases h
    · cases h
    · cases h

theorem walk_cons (c : Cursor) (h : Hop) (hops : List Hop) : c.walk (h :: hops) = c.hop h >>= fun c' => c'.walk hops :=
  List.foldlM_cons

/-- a walk goes along its hops and changes nothing -/
theorem walk_ok {c c' : Cursor} {hops : List Hop} (hc : c.walk hops = .ok c') :
    c' = { c with path := ⟨c.path.segments ++ hops.flatMap Hop.segments⟩ } := by
  induction hops generalizing c with
  | nil => cases hc; simp
  | cons h hops ih =>
    rw [walk_cons] at hc
    obtain ⟨c₁, h1, h2⟩ := bind_ok hc
    rw [ih h2, hop_ok h1]
    simp

theorem node_ok {c : Cursor} {node : Tree} (h : c.node = .ok node) : Tree.nodeAt? c.path c.root = some node := by
  unfold Cursor.node at h
  split at h
  · rename_i hn; cases h; exact hn
  · cases h

theorem set_ok {c c' : Cursor} {name : String} {value : Json} (h : c.set name value = .ok c') :
    ∃ node root, Tree.nodeAt? c.path c.root = some node ∧ Tree.insertAt? c.path name value c.root = some root ∧
      c' = { c with root, tracker := c.tracker.map (reported root (c.path.key name) (Tree.get? name node) value) } := by
  obtain ⟨node, hn, h⟩ := bind_ok h
  dsimp only at h
  split at h
  · rename_i root hr
    cases h
    exact ⟨node, root, node_ok hn, hr, rfl⟩
  · cases h

theorem extend_ok {c c' : Cursor} {name : String} {items : List Json} (h : c.extend name items = .ok c') :
    ∃ node present, c.node = .ok node ∧ Tree.get? name node = some (.list present) ∧
      c.set name (.list (present ++ items)) = .ok c' := by
  obtain ⟨prop, hget, h⟩ := bind_ok h
  obtain ⟨node, hnode, hget⟩ := bind_ok hget
  split at hget
  · rename_i j hj
    cases hget
    cases j with
    | list present => exact ⟨node, present, hnode, hj, h⟩
    | _ => cases h
  · cases hget

end Cursor

/-- **A tracked write** finds the object it goes into, writes there, and reports what it has written. -/
theorem Record.edit_steps {r r' : Record} {e : Edit} (h : r.edit e = .ok r') :
    ∃ node root value, Tree.nodeAt? e.path r.attributes = some node ∧
      e.write.Gives (Tree.get? e.write.name node) value ∧
      Tree.insertAt? e.path e.write.name value r.attributes = some root ∧
      r' = ⟨root, Cursor.reported root (e.path.key e.write.name) (Tree.get? e.write.name node) value r.tracker⟩ := by
  unfold Record.edit at h
  cases hc : r.cursor.edit e with
  | error _ => rw [hc] at h; cases h
  | ok c =>
    rw [hc] at h
    cases h
    obtain ⟨inner, hwalk, hc⟩ := Cursor.bind_ok hc
    obtain ⟨c', happly, hc⟩ := Cursor.bind_ok hc
    cases hc
    obtain rfl := Cursor.walk_ok hwalk
    obtain ⟨hops, write⟩ := e
    cases write with
    | set name value =>
      obtain ⟨node, root, hn, hr, rfl⟩ := Cursor.set_ok happly
      exact ⟨node, root, value, hn, rfl, hr, rfl⟩
    | extend name items =>
      obtain ⟨node', present, hn', hp, hset⟩ := Cursor.extend_ok happly
      obtain ⟨node, root, hn, hr, rfl⟩ := Cursor.set_ok hset
      obtain rfl : node = node' := Option.some.inj (hn.symm.trans (Cursor.node_ok hn'))
      exact ⟨node, root, _, hn, ⟨present, hp, rfl⟩, hr, rfl⟩

/-! ## Where the write lands -/

namespace Json

theorem outline_place {hops : List Hop} (hout : hops.any Hop.isItem = false) {j : Json} {node : Tree}
    (h : (j.at? (hops.flatMap Hop.segments)).bind object? = some node) (name : String) (q : List String) :
    j.outline (Hop.place hops name ++ q) = Outline.ofOption (Tree.get? name node) q := by
  induction hops generalizing j with
  | nil =>
    cases j with
    | object members => cases h; exact outline_object_cons node name q
    | _ => cases h
  | cons hop hops ih =>
    rw [List.any_cons, Bool.or_eq_false_iff] at hout
    cases hop with
    | item k i => cases hout.1
    | child k =>
      cases j with
      | object members =>
        unfold Hop.place
        rw [List.cons_append, outline_object_cons]
        simp only [List.flatMap_cons, Hop.segments, List.cons_append, List.nil_append, Json.at?] at h
        cases hk : Tree.get? k members with
        | none => rw [hk] at h; cases h
        | some v => rw [hk] at h; exact ih hout.2 h
      | _ => cases h

/-- **A write behind hops is a write at the place**: of the value itself, or of the list that it changes. -/
theorem outline_updateAt? {hops : List Hop} {name : String} {value j j' : Json}
    (h : j.updateAt? (Tree.insert name value) (hops.flatMap Hop.segments) = some j') :
    ∃ written, j'.outline = j.outline.write (Hop.place hops name) written ∧
      (hops.any Hop.isItem = false ∧ written = value ∨
        hops.any Hop.isItem = true ∧ ∃ before after, j.outline (Hop.place hops name) = .leaf (.list before) ∧
          written = .list after) := by
  induction hops generalizing j j' with
  | nil =>
    cases j with
    | object members => cases h; exact ⟨value, Tree.outline_insert (by simp), .inl ⟨rfl, rfl⟩⟩
    | _ => cases h
  | cons hop hops ih =>
    cases hop with
    | child k =>
      cases j with
      | object members =>
        obtain ⟨v, hv, h⟩ := Option.bind_eq_some_iff.1 h
        obtain ⟨w, hw, rfl⟩ := Option.map_eq_some_iff.1 h
        obtain ⟨written, hout, hcase⟩ := ih hw
        refine ⟨written, Tree.outline_insert (by rw [hout, hv]; rfl), ?_⟩
        rwa [List.any_cons, Hop.isItem, Bool.false_or, Hop.place, outline_object_cons, hv]
      | _ => cases h
    | item k i =>
      cases j with
      | object members =>
        obtain ⟨v, hv, h⟩ := Option.bind_eq_some_iff.1 h
        obtain ⟨w, hw, rfl⟩ := Option.map_eq_some_iff.1 h
        cases v with
        | list before =>
          obtain ⟨x, hx, hw⟩ := Option.bind_eq_some_iff.1 hw
          obtain ⟨y, hy, rfl⟩ := Option.map_eq_some_iff.1 hw
          refine ⟨.list (before.set i y), Tree.outline_insert (by rw [Outline.write_nil]),
            .inr ⟨rfl, before, _, ?_, rfl⟩⟩
          rw [Hop.place, outline_object_cons, hv]; rfl
        | _ => cases hw
      | _ => cases h

end Json

namespace Tree

theorem atPath?_keys {ks : List String} (h : ks ≠ []) (t : Tree) : t.atPath? ⟨ks.map Segment.key⟩ = t.at? ks := by
  obtain ⟨k, ks, rfl⟩ := List.exists_cons_of_ne_nil h
  exact (at?_cons_eq_bind k ks t).symm

end Tree

/-! ## What is reported -/

/-- one value written at one place, and reported there: an object over an object as their difference -/
structure Record.Written (r : Record) (place : List String) (value : Json) (r' : Record) : Prop where
  outline : r'.attributes.outline = r.attributes.outline.write place value
  wellFormed : r'.attributes.WellFormed
  wellFormedValue : value.WellFormed
  tracker : (∃ old new : Tree, old.WellFormed ∧ (∀ q, r.attributes.outline (place ++ q) = old.outline q) ∧
      value = .object new ∧
      r'.tracker = r.tracker.merge (Dotted.ofKeys place) (Tracker.difference old new)) ∨
    ((r.attributes.outline place ≠ .object ∨ value.object? = none) ∧
      r'.tracker = r.tracker.record (Dotted.ofKeys place) value)

/-- writing a top-level name is a tracked write without hops -/
theorem Record.set_eq_edit (r : Record) (name : String) (value : Json) :
    r.set name value = r.edit ⟨[], .set name value⟩ := by
  rw [Record.set, Record.edit, Cursor.edit, Cursor.walk]
  cases h : r.cursor.set name value with
  | error f => simp only [List.foldlM_nil, pure_bind, Cursor.apply, h]; rfl
  | ok c =>
    obtain ⟨node, root, -, -, rfl⟩ := Cursor.set_ok h
    simp only [List.foldlM_nil, pure_bind, Cursor.apply, h]
    rfl

theorem Write.Gives.wellFormed {w : Write} {old : Option Json} {value : Json} (h : w.Gives old value)
    (hw : w.WellFormed) (ho : ∀ j, old = some j → j.WellFormed) : value.WellFormed := by
  cases w with
  | set name v => exact h ▸ hw
  | extend name items =>
    obtain ⟨present, hp, rfl⟩ := h
    rw [Json.wellFormed_list_iff, List.forall_mem_append]
    exact ⟨Json.wellFormed_list_iff.1 (ho _ hp), hw⟩

theorem Write.Gives.plainKeys {w : Write} {old : Option Json} {value : Json} (h : w.Gives old value)
    (hw : w.PlainKeys) : value.PlainKeys := by
  cases w with
  | set name v => exact h ▸ hw
  | extend name items =>
    obtain ⟨present, -, rfl⟩ := h
    exact Json.plainKeys_flat rfl

namespace Cursor

variable {e : Edit} {root : Tree} {old : Option Json} {new : Json} {t : Tracker}

/-- outside lists a write is reported at its own path, as a difference when an object takes the place of an object -/
theorem reported_outside (hin : e.inList = false) (hp : Dotted.PlainKeys e.place) :
    (∃ before after, old = some (.object before) ∧ new = .object after ∧
      reported root (e.path.key e.write.name) old new t =
        t.merge (Dotted.ofKeys e.place) (Tracker.difference before after)) ∨
    ((∀ before after, old = some (.object before) → new ≠ .object after) ∧
      reported root (e.path.key e.write.name) old new t = t.record (Dotted.ofKeys e.place) new) := by
  have hanchor : (e.path.key e.write.name).anchor? = none := by
    rw [Path.anchor?, Path.key, Edit.path, Hop.any_isIndex, ← Edit.inList, hin]
    rfl
  have hdotted : (e.path.key e.write.name).dotted = Dotted.ofKeys e.place := by
    rw [Path.key, Edit.path, Hop.segments_of_outside hin]
    exact Path.dotted_keys hp
  simp only [reported, hanchor, hdotted]
  split
  · exact .inl ⟨_, _, rfl, rfl, rfl⟩
  · rename_i hno
    exact .inr ⟨hno, rfl⟩

/-- below a list the whole list is reported, at the path of the outermost one -/
theorem reported_inList (hin : e.inList = true) (hp : Dotted.PlainKeys e.place) {items : Json}
    (hitems : root.at? e.place = some items) :
    reported root (e.path.key e.write.name) old new t = t.record (Dotted.ofKeys e.place) items := by
  have hanchor : (e.path.key e.write.name).anchor? = some ⟨e.place.map Segment.key⟩ := by
    rw [Path.anchor?, Path.key, Edit.path, Hop.any_isIndex, ← Edit.inList, hin, if_pos rfl, Hop.takeWhile_segments hin]
    rfl
  have hat := Tree.atPath?_keys e.place_ne_nil root
  simp only [reported, hanchor, hat.trans hitems, Path.dotted_keys hp]

end Cursor

/-- **Every tracked write that succeeds is one write at its place.** -/
theorem Record.edit_ok {r r' : Record} {e : Edit} (h : r.edit e = .ok r') (hr : r.attributes.WellFormed)
    (he : e.WellFormed) (hp : e.PlainKeys) : ∃ value, value.PlainKeys ∧ r.Written e.place value r' := by
  obtain ⟨node, root, value, hn, hgives, hroot, rfl⟩ := edit_steps h
  have hnode : Tree.WellFormed node := by
    obtain ⟨x, hx, hxn⟩ := Option.bind_eq_some_iff.1 hn
    obtain rfl := Json.eq_object_of_object? hxn
    exact Json.WellFormed.at? hr hx
  have hvalue : value.WellFormed := hgives.wellFormed he fun j hj => hnode.get? hj
  obtain ⟨j', hj', hobj⟩ := Option.bind_eq_some_iff.1 hroot
  obtain rfl := Json.eq_object_of_object? hobj
  have hwf : root.WellFormed := Json.WellFormed.updateAt? (fun t ht => ht.insert hvalue _) hr hj'
  obtain ⟨written, hout, hcase⟩ := Json.outline_updateAt? hj'
  have hout : root.outline = r.attributes.outline.write e.place written := hout
  rcases hcase with ⟨hin, rfl⟩ | ⟨hin, before, after, hbefore, rfl⟩
  · have hold : ∀ q, r.attributes.outline (e.place ++ q) = Outline.ofOption (Tree.get? e.write.name node) q :=
      fun q => Json.outline_place hin hn e.write.name q
    refine ⟨written, hgives.plainKeys (hp.2 hin), hout, hwf, hvalue, ?_⟩
    rcases @Cursor.reported_outside e root (Tree.get? e.write.name node) written r.tracker hin hp.1 with
      ⟨old, new, ho, rfl, hrep⟩ | ⟨hno, hrep⟩
    · exact .inl ⟨old, new, hnode.get? ho, fun q => (hold q).trans (by rw [ho]; rfl), rfl, hrep⟩
    · refine .inr ⟨?_, hrep⟩
      by_contra hboth
      push Not at hboth
      obtain ⟨new, hnew⟩ := Option.ne_none_iff_exists'.1 hboth.2
      have hat := (hold []).symm
      rw [List.append_nil, hboth.1] at hat
      cases hg : Tree.get? e.write.name node with
      | none => rw [hg] at hat; cases hat
      | some x =>
        rw [hg] at hat
        obtain ⟨old, rfl⟩ := Json.eq_object_of_outline hat
        exact hno old new hg (Json.eq_object_of_object? hnew)
  · have hleaf : root.outline e.place = .leaf (.list after) := by
      have := Outline.write_at e.place [] (.list after) r.attributes.outline
      rwa [List.append_nil, ← hout] at this
    refine ⟨.list after, Json.plainKeys_flat rfl, hout, hwf, hwf.regular.values _ _ hleaf, .inr ⟨.inr rfl, ?_⟩⟩
    exact Cursor.reported_inList hin hp.1 ((Tree.at?_eq_some_iff e.place_ne_nil rfl).2 hleaf)

end ContactSync
