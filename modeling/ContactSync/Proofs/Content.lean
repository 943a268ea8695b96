/-
The strip keeps what has content, and nothing else.

What stands behind keys in a stripped tree is the strip of what stood there before (`Tree.at?_stripped`). So a place is
left exactly when its value has content, and what is left of the value says its kind (`Json.left_of_stripped?`): a
scalar as it is, a list with its length and order, an object with those of its keys that are left, in their order. A
value that is left is left as it is by another strip (`Json.lastingStrip`).

- `Tree.stripped_exact`: all of it.
-/
import ContactSync.Proofs.Lens
import ContactSync.Proofs.Stripped

namespace ContactSync

namespace Json

/-! ## What is left of a value -/

/-- an element of a list afterwards: an object stripped in its place, anything else as it was -/
def ElementLeft : Json → Json → Prop
  | .object members, w => w = .object (Tree.stripped members)
  | v, w => w = v

/-- a value that is left: an object with some of its keys, in their order, a list element by element, anything else as
it was -/
def Left : Json → Json → Prop
  | .object members, w => ∃ kept : Tree, w = .object kept ∧ (Tree.keys kept).Sublist (Tree.keys members)
  | .list items, w => ∃ kept, w = .list kept ∧ List.Forall₂ ElementLeft items kept
  | v, w => w = v

theorem elementLeft_strippedItem (item : Json) : item.ElementLeft item.strippedItem := by
  cases item with
  | object members => rw [strippedItem]; exact rfl
  | _ => rfl

theorem forall₂_strippedItems (items : List Json) : List.Forall₂ ElementLeft items (strippedItems items) := by
  induction items with
  | nil => exact .nil
  | cons item items ih => exact .cons (elementLeft_strippedItem item) ih

theorem left_of_stripped? {v w : Json} (h : v.stripped? = some w) : v.Left w := by
  cases v with
  | object members =>
    rw [stripped?_object] at h
    split_ifs at h
    cases h
    exact ⟨_, rfl, strippedMembers_sublist members⟩
  | list items =>
    cases items with
    | nil => cases h
    | cons item items =>
      cases h
      exact ⟨_, rfl, forall₂_strippedItems (item :: items)⟩
  | null => cases h
  | _ => cases h; rfl

/-! ## Stripping again -/

/-- another strip leaves what this one leaves of the value -/
def LastingStrip (v : Json) : Prop := ∀ w : Json, v.stripped? = some w → w.stripped? = some w

theorem strippedMembers_of_lasting {members : Tree} (h : ∀ e ∈ members, e.2.LastingStrip) :
    strippedMembers (strippedMembers members) = strippedMembers members := by
  induction members with
  | nil => rfl
  | cons e members ih =>
    obtain ⟨k, v⟩ := e
    rw [List.forall_mem_cons] at h
    cases hv : v.stripped? with
    | none => simp only [strippedMembers, hv, ih h.2]
    | some w => simp only [strippedMembers, hv, h.1 w hv, ih h.2]

theorem strippedItem_of_lasting {item : Json} (h : item.LastingStrip) :
    item.strippedItem.strippedItem = item.strippedItem := by
  cases item with
  | object members =>
    rw [strippedItem, strippedItem]
    by_cases hkept : strippedMembers members = []
    · rw [hkept, strippedMembers]
    · -- the object is left, so it is stripped under a key as in a list
      have hleft : stripped? (.object members) = some (.object (strippedMembers members)) := by
        rw [stripped?_object, if_neg hkept]
      have hagain := h _ hleft
      rw [stripped?_object] at hagain
      split_ifs at hagain
      exact Option.some.inj hagain
  | _ => rfl

theorem strippedItems_of_lasting {items : List Json} (h : ∀ item ∈ items, item.LastingStrip) :
    strippedItems (strippedItems items) = strippedItems items := by
  induction items with
  | nil => rfl
  | cons item items ih =>
    rw [List.forall_mem_cons] at h
    rw [strippedItems, strippedItems, strippedItem_of_lasting h.1, ih h.2]

/-- **What is left is left as it is by another strip.** -/
theorem lastingStrip (v : Json) : v.LastingStrip := by
  induction v using valueInduction with
  | scalar v hl ho =>
    intro w hw
    cases v <;> simp_all [stripped?, list?, object?] <;> subst hw <;> rfl
  | list items ih =>
    intro w hw
    cases items with
    | nil => cases hw
    | cons item items =>
      cases hw
      have hagain := strippedItems_of_lasting ih
      rw [strippedItems] at hagain
      rw [strippedItems, stripped?, hagain]
  | object members ih =>
    intro w hw
    rw [stripped?_object] at hw
    split_ifs at hw with hkept
    cases hw
    rw [stripped?_object, strippedMembers_of_lasting ih, if_neg hkept]

end Json

namespace Tree

/-! ## A stripped tree -/

theorem stripped_stripped (t : Tree) : t.stripped.stripped = t.stripped :=
  Json.strippedMembers_of_lasting fun e _ => Json.lastingStrip e.2

/-- **What stands behind keys afterwards** is what is left of the value that stood there. -/
theorem at?_stripped {t : Tree} (h : t.WellFormed) (ks : List String) :
    t.stripped.at? ks = (t.at? ks).bind Json.stripped? := by
  induction ks generalizing t with
  | nil => rfl
  | cons k ks ih =>
    by_cases hks : ks = []
    · subst hks
      exact get?_stripped h k
    · rw [at?_cons hks, at?_cons hks, childOrEmpty_stripped h]
      exact ih (h.childOrEmpty k)

/-- **The strip removes exactly what is empty.** A stripped tree has something behind keys when the tree has a value
with content there, and then has what is left of it: a scalar as it is, a list element by element, its objects stripped
where they stand, an object with the keys that are left in their order. Stripping it again changes nothing. -/
theorem stripped_exact {t : Tree} (h : t.WellFormed) :
    (∀ ks, (t.stripped.at? ks).isSome = true ↔ ∃ v, t.at? ks = some v ∧ v.HasContent) ∧
    (∀ ks v w, t.at? ks = some v → t.stripped.at? ks = some w → v.Left w) ∧
    (keys t.stripped).Sublist (keys t) ∧
    t.stripped.stripped = t.stripped := by
  refine ⟨?_, ?_, Json.strippedMembers_sublist t, stripped_stripped t⟩
  · intro ks
    rw [at?_stripped h]
    cases t.at? ks with
    | none => simp
    | some v => simp [Json.hasContent_iff, Option.isSome_iff_ne_none]
  · intro ks v w hv hw
    rw [at?_stripped h, hv] at hw
    exact Json.left_of_stripped? hw

/-- an object with nothing but empty parts, objects in a list, one of them in a list of its own, and a false -/
theorem stripped_exact_nested :
    let t : Tree := [("a", .object [("b", .list []), ("c", .object [("d", .null)])]), ("e", .bool false),
      ("f", .list [.null, .object [("g", .null)], .list [.object [("h", .null)]]])]
    t.WellFormed ∧
    t.stripped = [("e", .bool false), ("f", .list [.null, .object [], .list [.object [("h", .null)]]])] ∧
    ((t.stripped.at? ["a"]).isSome = true ↔ ∃ v, t.at? ["a"] = some v ∧ v.HasContent) ∧
    (∀ v w, t.at? ["f"] = some v → t.stripped.at? ["f"] = some w → v.Left w) ∧
    (keys t.stripped).Sublist (keys t) ∧ t.stripped.stripped = t.stripped := by
  intro t
  have ht : t.WellFormed := by decide
  obtain ⟨hhas, hleft, hkeys, hagain⟩ := stripped_exact ht
  exact ⟨ht, rfl, hhas ["a"], hleft ["f"], hkeys, hagain⟩

end Tree

end ContactSync
