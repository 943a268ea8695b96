/-
The leaves of a tree, and the tree that they make.

The leaves of a value are those of its grafts that are no objects (`Json.leaves`), and the enumeration lists their keys
(`Json.leavesFrom_eq`): whatever stands above is in front of every row of keys and nowhere else. From the grafts of the
members come:
- `Json.mem_leaves_iff`: the leaves are the values that keys lead to, objects apart;
- `Json.pairwise_leaves`: each is met before the next ones;
- `Json.leaves_eq`: they are the grafts of the value without its hollow objects, those that hold no leaf.

- `Tree.leafPaths_exact`: the same for trees, and that the leaves, written at their dotted places, give the tree again.
-/
import ContactSync.Proofs.Minimality
import ContactSync.Tree.Leaves

namespace ContactSync

namespace Json

open Outline (under)

/-! ## The order of places -/

/-- one row of keys is met before another, depth first and key by key: where the two part, the key of the first stands
before that of the second -/
inductive Precedes : Json → List String → List String → Prop
  | here {members : Tree} {k j : String} (h : [k, j].Sublist (Tree.keys members)) (ks js : List String) :
      Precedes (.object members) (k :: ks) (j :: js)
  | within {members : Tree} {k : String} {v : Json} {ks js : List String} (hk : Tree.get? k members = some v)
      (h : Precedes v ks js) : Precedes (.object members) (k :: ks) (k :: js)

/-- under unique keys no place is met before itself -/
theorem Precedes.ne {v : Json} {ks js : List String} (h : v.Precedes ks js) (hv : v.WellFormed) : ks ≠ js := by
  induction h with
  | here hkeys ks js =>
    intro he
    have hpair := hkeys.nodup (wellFormed_object_iff.1 hv).1
    simp only [List.nodup_cons, List.mem_singleton] at hpair
    exact hpair.1 (List.cons.inj he).1
  | within hk _ ih =>
    intro he
    exact ih (Tree.WellFormed.get? hv hk) (List.cons.inj he).2

/-! ## Leaves -/

/-- the leaves at or below a value, each at its keys -/
def leaves (v : Json) : List (List String × Json) := v.grafts.filter fun u => !u.2.isObject

theorem leaves_object (members : Tree) :
    leaves (.object members) = members.flatMap fun e => (leaves e.2).map (under e.1) := by
  have hmembers : (memberGrafts members).filter (fun u => !u.2.isObject) =
      members.flatMap fun e => (leaves e.2).map (under e.1) := by
    induction members with
    | nil => simp [memberGrafts]
    | cons e members ih =>
      obtain ⟨k, v⟩ := e
      rw [memberGrafts, List.filter_append, ih, List.flatMap_cons, List.filter_map]
      rfl
  by_cases hm : members = []
  · subst hm
    rw [leaves, grafts_leaf rfl]
    rfl
  · rw [leaves, grafts_object hm, hmembers]

theorem members_flat {v : Json} (h : v.isObject = false) : v.members = [] := by
  cases v with
  | object members => cases h
  | _ => rfl

theorem leaves_flat {v : Json} (h : v.isObject = false) : v.leaves = [([], v)] := by
  rw [leaves, grafts_leaf (members_flat h), List.filter_cons_of_pos (by simp [h])]
  rfl

/-- induction over the leaves of a value: it is one, or they are those of its members -/
@[elab_as_elim]
theorem leavesInduction {motive : Json → Prop} (leaf : ∀ v : Json, v.isObject = false → motive v)
    (object : ∀ members : Tree, (∀ e ∈ members, motive e.2) → motive (.object members)) (v : Json) : motive v := by
  induction v using valueInduction with
  | scalar v hl ho =>
    cases v with
    | object members => cases ho
    | _ => exact leaf _ rfl
  | list items _ => exact leaf _ rfl
  | object members ih => exact object members ih

/-- **The enumeration lists the keys of the leaves**, after those that stand above. -/
theorem leavesFrom_eq (v : Json) (above : List String) : leavesFrom above v = v.leaves.map fun u => above ++ u.1 := by
  induction v using leavesInduction generalizing above with
  | leaf v h =>
    rw [leaves_flat h]
    cases v with
    | object members => cases h
    | _ => simp [leavesFrom]
  | object members ih =>
    rw [leaves_object, leavesFrom]
    induction members with
    | nil => rfl
    | cons e members ih' =>
      obtain ⟨k, v⟩ := e
      rw [List.forall_mem_cons] at ih
      rw [memberLeaves, ih.1, ih' ih.2, List.flatMap_cons, List.map_append, List.map_map]
      congr 2
      funext u
      simp [under]

/-- **The leaves are what keys lead to**, objects apart. -/
theorem mem_leaves_iff {v : Json} (h : v.WellFormed) {ks : List String} {x : Json} :
    (ks, x) ∈ v.leaves ↔ v.at? (ks.map Segment.key) = some x ∧ x.isObject = false := by
  induction v using leavesInduction generalizing ks with
  | leaf v hv =>
    rw [leaves_flat hv, List.mem_singleton, Prod.mk.injEq]
    constructor
    · rintro ⟨rfl, rfl⟩
      exact ⟨rfl, hv⟩
    · rintro ⟨hat, -⟩
      cases ks with
      | nil => exact ⟨rfl, (Option.some.inj hat).symm⟩
      | cons k ks =>
        cases v with
        | object members => cases hv
        | _ => cases hat
  | object members ih =>
    obtain ⟨hn, hw⟩ := wellFormed_object_iff.1 h
    rw [leaves_object, List.mem_flatMap]
    constructor
    · rintro ⟨e, he, hmem⟩
      obtain ⟨w, hu, hks⟩ := List.mem_map.1 hmem
      obtain ⟨rfl, rfl⟩ := Prod.mk.inj hks
      obtain ⟨hat, ho⟩ := (ih e he (hw e he)).1 hu
      refine ⟨?_, ho⟩
      rw [List.map_cons, at?, Tree.get?_of_mem hn he]
      exact hat
    · rintro ⟨hat, ho⟩
      cases ks with
      | nil => cases hat; cases ho
      | cons k ks =>
        obtain ⟨v, hk, hv⟩ := Option.bind_eq_some_iff.1 hat
        have hmem := Tree.mem_of_get? hk
        exact ⟨_, hmem, List.mem_map.2 ⟨_, (ih _ hmem (hw _ hmem)).2 ⟨hv, ho⟩, rfl⟩⟩

/-- **Each leaf is met before the next ones.** -/
theorem pairwise_leaves {v : Json} (h : v.WellFormed) : v.leaves.Pairwise fun u w => v.Precedes u.1 w.1 := by
  induction v using leavesInduction with
  | leaf v hv => rw [leaves_flat hv]; exact List.pairwise_singleton _ _
  | object members ih =>
    obtain ⟨hn, hw⟩ := wellFormed_object_iff.1 h
    rw [leaves_object, List.pairwise_flatMap]
    constructor
    · intro e he
      rw [List.pairwise_map]
      exact (ih e he (hw e he)).imp fun hprec => .within (Tree.get?_of_mem hn he) hprec
    · rw [List.pairwise_iff_forall_sublist]
      intro e e' hpair u hu w hu'
      obtain ⟨u, -, rfl⟩ := List.mem_map.1 hu
      obtain ⟨w, -, rfl⟩ := List.mem_map.1 hu'
      exact .here (hpair.map Prod.fst) u.1 w.1

/-! ## Hollow objects -/

mutual
/-- whether a value is a leaf or an object with a leaf at any depth -/
def holdsLeaf : Json → Bool
  | .object members => someHoldsLeaf members
  | _ => true
termination_by structural j => j

def someHoldsLeaf : List (String × Json) → Bool
  | [] => false
  | (_, v) :: rest => holdsLeaf v || someHoldsLeaf rest
termination_by structural members => members
end

mutual
/-- the value with every object removed from it that holds no leaf -/
def filled : Json → Json
  | .object members => .object (filledMembers members)
  | j => j
termination_by structural j => j

/-- the members that hold a leaf, with every object removed from them that holds none -/
def filledMembers : List (String × Json) → List (String × Json)
  | [] => []
  | (k, v) :: rest => if holdsLeaf v then (k, filled v) :: filledMembers rest else filledMembers rest
termination_by structural members => members
end

theorem filled_flat {v : Json} (h : v.isObject = false) : v.filled = v := by
  cases v with
  | object members => cases h
  | _ => rfl

theorem holdsLeaf_flat {v : Json} (h : v.isObject = false) : v.holdsLeaf = true := by
  cases v with
  | object members => cases h
  | _ => rfl

theorem keys_filledMembers_sublist (members : Tree) :
    (Tree.keys (filledMembers members)).Sublist (Tree.keys members) := by
  induction members with
  | nil => exact .slnil
  | cons e members ih =>
    obtain ⟨k, v⟩ := e
    rw [filledMembers]
    split_ifs
    · exact ih.cons_cons k
    · exact ih.cons k

theorem exists_of_mem_filledMembers {members : Tree} {e : String × Json} (h : e ∈ filledMembers members) :
    ∃ v, (e.1, v) ∈ members ∧ e.2 = v.filled := by
  induction members with
  | nil => cases h
  | cons e' members ih =>
    obtain ⟨k, v⟩ := e'
    rw [filledMembers] at h
    split_ifs at h
    · rcases List.mem_cons.1 h with rfl | h
      · exact ⟨v, List.mem_cons_self, rfl⟩
      · obtain ⟨w, hw, he⟩ := ih h
        exact ⟨w, List.mem_cons_of_mem _ hw, he⟩
    · obtain ⟨w, hw, he⟩ := ih h
      exact ⟨w, List.mem_cons_of_mem _ hw, he⟩

theorem WellFormed.filled {v : Json} (h : v.WellFormed) : v.filled.WellFormed := by
  induction v using leavesInduction with
  | leaf v hv => rwa [filled_flat hv]
  | object members ih =>
    obtain ⟨hn, hw⟩ := wellFormed_object_iff.1 h
    refine wellFormed_object_iff.2 ⟨(keys_filledMembers_sublist members).nodup hn, ?_⟩
    intro e he
    obtain ⟨v, hm, hv⟩ := exists_of_mem_filledMembers he
    exact hv ▸ ih _ hm (hw _ hm)

/-- nothing is left when no member holds a leaf -/
theorem filledMembers_eq_nil_iff {members : Tree} : filledMembers members = [] ↔ someHoldsLeaf members = false := by
  induction members with
  | nil => exact iff_of_true rfl rfl
  | cons e members ih =>
    obtain ⟨k, v⟩ := e
    rw [filledMembers, someHoldsLeaf]
    cases v.holdsLeaf with
    | true => simp
    | false => simpa using ih

/-- the grafts of the members that are left are the leaves of all members -/
theorem memberGrafts_filledMembers {members : Tree}
    (h : ∀ e ∈ members, e.2.leaves = if e.2.holdsLeaf then e.2.filled.grafts else []) :
    memberGrafts (filledMembers members) = leaves (.object members) := by
  rw [leaves_object]
  induction members with
  | nil => rfl
  | cons e members ih =>
    obtain ⟨k, v⟩ := e
    rw [List.forall_mem_cons] at h
    rw [filledMembers, List.flatMap_cons, h.1]
    split_ifs
    · rw [memberGrafts, ih h.2]
    · exact ih h.2

/-- **The leaves are what is left without hollow objects**: the grafts of the rest, or none. -/
theorem leaves_eq (v : Json) : v.leaves = if v.holdsLeaf then v.filled.grafts else [] := by
  induction v using leavesInduction with
  | leaf v hv => rw [leaves_flat hv, holdsLeaf_flat hv, filled_flat hv, grafts_leaf (members_flat hv), if_pos rfl]
  | object members ih =>
    rw [← memberGrafts_filledMembers ih, filled, holdsLeaf]
    by_cases hm : filledMembers members = []
    · rw [hm, filledMembers_eq_nil_iff.1 hm]
      rfl
    · rw [grafts_object hm, if_pos (by simpa using mt filledMembers_eq_nil_iff.2 hm)]

end Json

namespace Tree

open Json (leaves memberGrafts)
open Dotted (components ofKeys)

/-! ## Trees -/

/-- one place of a tree is met before another -/
def Precedes (t : Tree) (ks js : List String) : Prop := (Json.object t).Precedes ks js

/-- the tree with every object removed from it that holds no leaf -/
def filled (t : Tree) : Tree := Json.filledMembers t

/-- every leaf at its dotted place, in the order of the enumeration -/
def leafWrites (t : Tree) : List (String × Json) :=
  t.leafPaths.filterMap fun ks => (t.at? ks).map fun v => (ofKeys ks, v)

variable {t : Tree}

theorem leafPaths_eq (t : Tree) : t.leafPaths = (leaves (.object t)).map Prod.fst :=
  Json.leavesFrom_eq (.object t) []

/-- a row of keys of a leaf is what its value is read at -/
theorem at?_of_mem_leaves (h : t.WellFormed) {u : List String × Json} (hu : u ∈ leaves (.object t)) :
    t.at? u.1 = some u.2 ∧ u.2.isObject = false := by
  obtain ⟨ks, x⟩ := u
  obtain ⟨hat, ho⟩ := (Json.mem_leaves_iff h).1 hu
  have hks : ks ≠ [] := by
    rintro rfl
    cases hat
    cases ho
  exact ⟨(atPath?_keys hks t).symm.trans hat, ho⟩

theorem mem_leafPaths_iff (h : t.WellFormed) {ks : List String} :
    ks ∈ t.leafPaths ↔ ∃ v, t.at? ks = some v ∧ v.isObject = false := by
  rw [leafPaths_eq, List.mem_map]
  constructor
  · rintro ⟨u, hu, rfl⟩
    exact ⟨u.2, at?_of_mem_leaves h hu⟩
  · rintro ⟨v, hat, ho⟩
    have hks : ks ≠ [] := by
      rintro rfl
      cases hat
    exact ⟨(ks, v), (Json.mem_leaves_iff h).2 ⟨(atPath?_keys hks t).trans hat, ho⟩, rfl⟩

theorem pairwise_leafPaths (h : t.WellFormed) : t.leafPaths.Pairwise t.Precedes := by
  rw [leafPaths_eq, List.pairwise_map]
  exact Json.pairwise_leaves h

theorem leafWrites_eq (h : t.WellFormed) : t.leafWrites = (leaves (.object t)).map fun u => (ofKeys u.1, u.2) := by
  rw [leafWrites, leafPaths_eq, List.filterMap_map, List.filterMap_eq_map_iff_forall_eq_some]
  intro u hu
  rw [Function.comp_apply, (at?_of_mem_leaves h hu).1]
  rfl

theorem components_leafWrites (h : t.WellFormed) (hp : t.PlainKeys) :
    (t.leafWrites.map fun w => (components w.1, w.2)) = leaves (.object t) := by
  rw [leafWrites_eq h, List.map_map, List.map_congr_left, List.map_id]
  intro u hu
  have hout := (at?_leaf_iff.1 (at?_of_mem_leaves h hu))
  have hkeys : Dotted.PlainKeys u.1 := (Json.plainKeys_iff h).1 hp u.1 fun hno => by
    rw [show (Json.object t).outline = t.outline from rfl, hout] at hno
    cases hno
  exact congrArg (·, u.2) (Dotted.components_ofKeys hkeys)

/-- **The leaves, written one after another, make the tree again** without its hollow objects, keys in their order. -/
theorem setAllDotted_leafWrites (h : t.WellFormed) (hp : t.PlainKeys) : setAllDotted [] t.leafWrites = t.filled := by
  have hfilled : t.filled.WellFormed := Json.WellFormed.filled h
  have hleaves : leaves (.object t) = memberGrafts t.filled :=
    (Json.memberGrafts_filledMembers fun e _ => Json.leaves_eq e.2).symm
  calc
    _ = setAllAt [] (t.leafWrites.map fun w => (components w.1, w.2)) := setAllDotted_eq _ _
    _ = setAllAt [] (memberGrafts t.filled) := by rw [components_leafWrites h hp, hleaves]
    _ = [] ++ t.filled := setAllAt_memberGrafts (fun e he pre k hk =>
        setAllAt_grafts ((wellFormed_iff.1 hfilled).2 e he) hk) (wellFormed_iff.1 hfilled).1
    _ = t.filled := List.nil_append _

/-- **The enumeration of the leaves is exact, and enough to make the tree again.** It lists a row of keys exactly when
these lead through objects to a value that is none, each once, and depth first in the order of the keys. With plain
keys, the leaves written at their dotted places into an empty tree, in this order, give the tree without the objects
that hold no leaf, its keys in their order. -/
theorem leafPaths_exact (h : t.WellFormed) :
    (∀ ks, ks ∈ t.leafPaths ↔ ∃ v, t.at? ks = some v ∧ v.isObject = false) ∧
    t.leafPaths.Nodup ∧
    t.leafPaths.Pairwise t.Precedes ∧
    (t.PlainKeys → setAllDotted [] t.leafWrites = t.filled) :=
  ⟨fun _ => mem_leafPaths_iff h, (pairwise_leafPaths h).imp fun hprec => hprec.ne h, pairwise_leafPaths h,
    setAllDotted_leafWrites h⟩

/-- hollow objects at several depths, one of them before a leaf, and a list with an object in it -/
theorem leafPaths_exact_hollow :
    let t : Tree := [
      ("b", .object [("x", .object [("y", .object [])]), ("c", .object [("d", .ofNat 1), ("e", .null)])]),
      ("h", .list [.object []]), ("a", .object [("z", .object [])])]
    (t.WellFormed ∧ t.PlainKeys) ∧
    t.leafPaths = [["b", "c", "d"], ["b", "c", "e"], ["h"]] ∧
    (["b", "x"] ∈ t.leafPaths ↔ ∃ v, t.at? ["b", "x"] = some v ∧ v.isObject = false) ∧
    t.leafPaths.Nodup ∧ t.leafPaths.Pairwise t.Precedes ∧
    setAllDotted [] t.leafWrites =
      [("b", .object [("c", .object [("d", .ofNat 1), ("e", .null)])]), ("h", .list [.object []])] := by
  intro t
  have h : t.WellFormed := by decide
  have hp : t.PlainKeys := by decide
  obtain ⟨hmem, hnodup, horder, hagain⟩ := leafPaths_exact h
  exact ⟨⟨h, hp⟩, rfl, hmem ["b", "x"], hnodup, horder, hagain hp⟩

end Tree

end ContactSync
