/-
Which attribute a pending change addresses.

A write outside lists is tracked at a dotted text, and the partial document reads keys back out of it. What comes back
are the components of the keys, one key after another (`Path.components_dotted`): a key with points inside comes back as
several keys, an empty one not at all. The attributes themselves are written at the keys as they are. So the change that
is sent is the change that was made exactly when all keys on the way are plain.

- `Tree.only`: the tree with one value in it, and `Tree.only_same`: it tells its keys.
- `partialDocument_addresses`: one write into a record without pending changes.
-/
import ContactSync.Proofs.Cursors

namespace ContactSync

open Dotted (components)

/-! ## The text of a path -/

namespace Path

theorem flatMap_components_dropWhile (ks : List String) :
    (ks.dropWhile fun k => k.isEmpty).flatMap components = ks.flatMap components := by
  induction ks with
  | nil => rfl
  | cons k ks ih =>
    by_cases hk : k = ""
    · subst hk
      rw [List.dropWhile_cons_of_pos (by rfl), ih]
      rfl
    · rw [List.dropWhile_cons_of_neg (by simpa using hk)]

/-- **The components of a path in writing** are those of its keys. -/
theorem components_dotted (p : Path) : components p.dotted = p.keys.flatMap components := by
  rw [dotted, Dotted.components_ofKeys_eq, flatMap_components_dropWhile]

end Path

/-! ## One value alone -/

namespace Tree

/-- the tree that holds a value at the end of a row of keys, and nothing else -/
def only : List String → Json → Tree
  | [], _ => []
  | [key], value => [(key, value)]
  | key :: rest, value => [(key, .object (only rest value))]

variable {ks js : List String} {v : Json}

theorem only_cons {ks : List String} (h : ks ≠ []) (k : String) (v : Json) :
    only (k :: ks) v = [(k, .object (only ks v))] := by
  obtain ⟨k', ks, rfl⟩ := List.exists_cons_of_ne_nil h
  rfl

theorem setAt_nil (ks : List String) (v : Json) : setAt ks v [] = only ks v := by
  induction ks with
  | nil => rfl
  | cons k ks ih =>
    by_cases hn : ks = []
    · subst hn
      rfl
    · have hchild : childOrEmpty k [] = [] := rfl
      rw [setAt_cons hn, only_cons hn, hchild, ih]
      rfl

theorem same_singleton (k j : String) (v w : Json) : same [(k, v)] [(j, w)] = true ↔ k = j ∧ v.same w = true := by
  simp only [same, Json.same, Json.sameMembers, get?_cons, get?_nil, List.length_singleton, beq_self_eq_true,
    Bool.true_and, Bool.and_true]
  by_cases hk : k = j
  · simp [hk]
  · simp [hk, Ne.symm hk]

/-- **A value alone tells its keys**, when it is no object itself. -/
theorem eq_of_only_same (hv : v.isObject = false) (h : (only ks v).same (only js v) = true) : ks = js := by
  induction ks generalizing js with
  | nil =>
    cases js with
    | nil => rfl
    | cons j js => cases js <;> cases h
  | cons k ks ih =>
    cases js with
    | nil => cases ks <;> cases h
    | cons j js =>
      by_cases hks : ks = [] <;> by_cases hjs : js = []
      · subst hks hjs
        rw [((same_singleton k j v v).1 h).1]
      · subst hks
        rw [only_cons hjs] at h
        have hflat := ((same_singleton k j v _).1 h).2
        cases v <;> simp_all [Json.same, Json.isObject]
      · subst hjs
        rw [only_cons hks] at h
        have hflat := ((same_singleton k j _ v).1 h).2
        cases v <;> simp_all [Json.same, Json.isObject]
      · rw [only_cons hks, only_cons hjs] at h
        obtain ⟨rfl, hrest⟩ := (same_singleton k j _ _).1 h
        rw [ih hrest]

end Tree

/-! ## One write -/

namespace Cursor

theorem nodeAt?_of_walk_ok {c c' : Cursor} {hops : List Hop} (hc : c.walk hops = .ok c')
    (h : ∃ t, Tree.nodeAt? c.path c.root = some t) : ∃ t, Tree.nodeAt? c'.path c'.root = some t := by
  induction hops generalizing c with
  | nil => cases hc; exact h
  | cons hop hops ih =>
    rw [walk_cons] at hc
    obtain ⟨c₁, h1, h2⟩ := bind_ok hc
    refine ih h2 ?_
    have hstands := nodeAt?_of_hop_ok h1
    rw [hop_ok h1]
    exact hstands

theorem reported_value {ks : List String} {root : Tree} {old : Option Json} {value : Json} {t : Tracker}
    (hv : value.isObject = false) : reported root ⟨ks.map Segment.key⟩ old value t =
      t.record (Path.dotted ⟨ks.map Segment.key⟩) value := by
  have hanchor : Path.anchor? ⟨ks.map Segment.key⟩ = none := by
    simp [Path.anchor?, Segment.isIndex]
  simp only [reported, hanchor]
  cases value with
  | object members => cases hv
  | _ => split <;> simp_all

end Cursor

namespace Record

/-- one recording into a record without pending changes is all of the partial document -/
theorem resolve_record_empty (path : String) (value : Json) :
    (Tracker.empty.record path value).resolve = Tree.only (components path) value := Tree.setAt_nil _ _

theorem tracker_eq_empty {r : Record} (h : r.isDirty = false) : r.tracker = .empty := by
  obtain ⟨attributes, entries⟩ := r
  cases entries with
  | mk entries =>
    cases entries with
    | nil => rfl
    | cons e entries => cases h

/-- **What is sent for one write.** In a record without pending changes, a value that is no object is written under a
name behind hops through objects. The attributes hold it there. The partial document holds it, and nothing else, at the
components of these keys; that is at the keys themselves exactly when all of them are plain. -/
theorem partialDocument_addresses {r : Record} {ks : List String} {c : Cursor} {value : Json} (ht : r.isDirty = false)
    (hc : r.cursor.walk (ks.map Hop.child) = .ok c) (hv : value.isObject = false) (name : String) :
    ∃ c', c.set name value = .ok c' ∧ c'.root.at? (ks ++ [name]) = some value ∧
      (ofCursor c').partialDocument = Tree.only ((ks ++ [name]).flatMap components) value ∧
      (Dotted.PlainKeys (ks ++ [name]) → (ofCursor c').partialDocument = Tree.only (ks ++ [name]) value) ∧
      (¬Dotted.PlainKeys (ks ++ [name]) →
        (ofCursor c').partialDocument.same (Tree.only (ks ++ [name]) value) = false) := by
  obtain ⟨t, hnode⟩ := Cursor.nodeAt?_of_walk_ok hc ⟨r.attributes, rfl⟩
  obtain ⟨c', hset, hwrote⟩ := Cursor.set_wrote hnode name value
  obtain ⟨node, root, -, -, hc'⟩ := Cursor.set_ok hset
  have hpath : c.path.key name = ⟨(ks ++ [name]).map Segment.key⟩ := by
    have hsegments : (ks.map Hop.child).flatMap Hop.segments = ks.map Segment.key := by
      rw [List.flatMap_map]
      exact List.map_eq_flatMap.symm
    rw [Cursor.walk_ok hc, Path.key, hsegments]
    simp [cursor, Path.root]
  have htracker : c.tracker = some .empty := by
    rw [Cursor.walk_ok hc, cursor, tracker_eq_empty ht]
  have hdoc : (ofCursor c').partialDocument = Tree.only ((ks ++ [name]).flatMap components) value := by
    rw [hc', ofCursor, htracker, hpath]
    simp only [partialDocument, Option.map_some, Option.getD_some, Cursor.reported_value hv, resolve_record_empty,
      Path.components_dotted, Path.keys_map_key]
  refine ⟨c', hset, ?_, hdoc, ?_, ?_⟩
  · rw [← Tree.atPath?_keys (by simp), ← hpath]
    exact hwrote.target
  · intro hplain
    rw [hdoc, Dotted.flatMap_components_eq_self_iff.2 hplain]
  · -- the same document at both rows of keys would make them one row, and every key its own components
    intro hplain
    by_contra hsame
    rw [Bool.not_eq_false, hdoc] at hsame
    exact hplain (Dotted.flatMap_components_eq_self_iff.1 (Tree.eq_of_only_same hv hsame))

/-- a telephone number written behind two hops -/
theorem partialDocument_addresses_plain :
    let r : Record := .ofSnapshot [("base", .object [("contacts", .object [("phone", .string "1")])])]
    let keys := ["base", "contacts", "phone"]
    (r.isDirty = false ∧ Dotted.PlainKeys keys) ∧
    ∃ c c', r.cursor.walk [.child "base", .child "contacts"] = .ok c ∧ c.set "phone" (.string "2") = .ok c' ∧
      c'.root.at? keys = some (.string "2") ∧ (ofCursor c').partialDocument = Tree.only keys (.string "2") := by
  intro r keys
  have hkeys : Dotted.PlainKeys keys := by decide
  have hwalk : r.cursor.walk (["base", "contacts"].map Hop.child) =
      .ok { r.cursor with path := ⟨[.key "base", .key "contacts"]⟩ } := rfl
  have hvalue : (Json.string "2").isObject = false := rfl
  obtain ⟨c', hset, hat, -, hdoc, -⟩ := partialDocument_addresses rfl hwalk hvalue "phone"
  exact ⟨⟨rfl, hkeys⟩, _, c', hwalk, hset, hat, hdoc hkeys⟩

/-- a name with a point in it: what is sent changes another attribute -/
theorem partialDocument_misses_name_with_point :
    let r : Record := .ofSnapshot [("a", .object [("b", .ofNat 2)])]
    ∃ r', r.set "a.b" (.ofNat 1) = .ok r' ∧ r'.attributes = [("a", .object [("b", .ofNat 2)]), ("a.b", .ofNat 1)] ∧
      r'.partialDocument = [("a", .object [("b", .ofNat 1)])] ∧
      r'.partialDocument.same (Tree.only ["a.b"] (.ofNat 1)) = false :=
  ⟨_, rfl, rfl, rfl, rfl⟩

end Record

end ContactSync
