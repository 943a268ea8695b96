/-
Lookup and writing in one object, key by key.

An object is a row of pairs; what counts is what its keys look up. Under unique keys (`WellFormed`), membership and
lookup say the same, and every write keeps the keys unique.

- `Json.valueInduction`: induction over a value, its elements and its members.
- `Tree.get?_insert`: what a write does to every lookup.
- `membersWellFormed_iff`: unique keys, and well-formed values below them.
-/
import ContactSync.Json.Basic
import Mathlib.Data.List.Nodup
import Mathlib.Tactic.Tauto

namespace ContactSync

namespace Json

/-- induction over a value: lists by their elements, objects by their members -/
@[elab_as_elim]
theorem valueInduction {motive : Json → Prop}
    (scalar : ∀ j : Json, j.list? = none → j.object? = none → motive j)
    (list : ∀ items, (∀ j ∈ items, motive j) → motive (.list items))
    (object : ∀ members : Tree, (∀ e ∈ members, motive e.2) → motive (.object members)) (j : Json) : motive j := by
  match j with
  | .null => exact scalar _ rfl rfl
  | .bool _ => exact scalar _ rfl rfl
  | .number _ => exact scalar _ rfl rfl
  | .string _ => exact scalar _ rfl rfl
  | .list items => exact list items fun i _ => valueInduction scalar list object i
  | .object members => exact object members fun e _ => valueInduction scalar list object e.2
termination_by j
decreasing_by
  · have := List.sizeOf_lt_of_mem ‹i ∈ items›
    simp only [Json.list.sizeOf_spec]; omega
  · rename_i he
    have h1 := List.sizeOf_lt_of_mem he
    have h2 : sizeOf e.2 < sizeOf e := by obtain ⟨k, v⟩ := e; simp only [Prod.mk.sizeOf_spec]; omega
    simp only [Json.object.sizeOf_spec]; omega

end Json

namespace Tree

/-! ## Lookup -/

@[simp] theorem get?_nil (k : String) : get? k [] = none := rfl

@[simp] theorem get?_cons (k k' : String) (v : Json) (t : Tree) :
    get? k ((k', v) :: t) = if k' = k then some v else get? k t := rfl

@[simp] theorem keys_nil : keys [] = [] := rfl

@[simp] theorem keys_cons (k : String) (v : Json) (t : Tree) : keys ((k, v) :: t) = k :: keys t := rfl

theorem keys_append (t u : Tree) : keys (t ++ u) = keys t ++ keys u := List.map_append

theorem mem_of_get? {k : String} {v : Json} {t : Tree} (h : get? k t = some v) : (k, v) ∈ t := by
  induction t with
  | nil => simp at h
  | cons e t ih =>
    obtain ⟨k', w⟩ := e
    rw [get?_cons] at h
    split_ifs at h with hk
    · simp only [Option.some.injEq] at h; rw [hk, h]; exact List.mem_cons_self
    · exact List.mem_cons_of_mem _ (ih h)

theorem get?_eq_none_iff {k : String} {t : Tree} : get? k t = none ↔ k ∉ keys t := by
  induction t with
  | nil => simp
  | cons e t ih =>
    obtain ⟨k', w⟩ := e
    rw [get?_cons, keys_cons, List.mem_cons]
    split_ifs with hk
    · simp [hk]
    · rw [ih]; exact ⟨fun h => by rintro (rfl | h'); exacts [hk rfl, h h'], fun h h' => h (Or.inr h')⟩

theorem mem_keys_iff {k : String} {t : Tree} : k ∈ keys t ↔ ∃ v, get? k t = some v := by
  rw [← Option.ne_none_iff_exists', ne_eq, get?_eq_none_iff, not_not]

theorem mem_keys_of_mem {e : String × Json} {t : Tree} (h : e ∈ t) : e.1 ∈ keys t := List.mem_map_of_mem h

theorem get?_of_mem {k : String} {v : Json} {t : Tree} (hn : (keys t).Nodup) (h : (k, v) ∈ t) :
    get? k t = some v := by
  induction t with
  | nil => simp at h
  | cons e t ih =>
    obtain ⟨k', w⟩ := e
    rw [keys_cons, List.nodup_cons] at hn
    rcases List.mem_cons.1 h with h | h
    · obtain ⟨rfl, rfl⟩ := Prod.mk.injEq _ _ _ _ ▸ h
      simp
    · have hk : k' ≠ k := fun hk => hn.1 (hk ▸ mem_keys_of_mem h)
      rw [get?_cons, if_neg hk, ih hn.2 h]

theorem get?_append (k : String) (t u : Tree) : get? k (t ++ u) = (get? k t).or (get? k u) := by
  induction t with
  | nil => rfl
  | cons e t ih =>
    obtain ⟨k', v⟩ := e
    rw [List.cons_append, get?_cons, get?_cons]
    split_ifs
    · rfl
    · exact ih

/-! ## Writing -/

theorem get?_insert (k k' : String) (v : Json) (t : Tree) :
    get? k' (insert k v t) = if k = k' then some v else get? k' t := by
  induction t with
  | nil => simp [insert]
  | cons e t ih =>
    obtain ⟨k₀, w⟩ := e
    unfold insert
    split_ifs with h1 h2 h2
    · simp [h2]
    · simp [h1, h2]
    · subst h2; rw [get?_cons, if_neg h1, ih, if_pos rfl]
    · rw [get?_cons, ih, if_neg h2, get?_cons]

@[simp] theorem get?_insert_self (k : String) (v : Json) (t : Tree) : get? k (insert k v t) = some v := by
  rw [get?_insert, if_pos rfl]

theorem insert_of_notMem {k : String} {v : Json} {t : Tree} (h : k ∉ keys t) : insert k v t = t ++ [(k, v)] := by
  induction t with
  | nil => rfl
  | cons e t ih =>
    obtain ⟨k', w⟩ := e
    rw [keys_cons, List.mem_cons, not_or] at h
    rw [insert, if_neg (Ne.symm h.1), ih h.2]; rfl

theorem insert_append_cons {k : String} {v w : Json} {pre post : Tree} (h : k ∉ keys pre) :
    insert k v (pre ++ (k, w) :: post) = pre ++ (k, v) :: post := by
  induction pre with
  | nil => simp [insert]
  | cons e pre ih =>
    obtain ⟨k', w'⟩ := e
    rw [keys_cons, List.mem_cons, not_or] at h
    rw [List.cons_append, insert, if_neg (Ne.symm h.1), ih h.2]; rfl

theorem split_of_get? {k : String} {v : Json} {t : Tree} (h : get? k t = some v) :
    ∃ pre post, t = pre ++ (k, v) :: post ∧ k ∉ keys pre := by
  induction t with
  | nil => simp at h
  | cons e t ih =>
    obtain ⟨k', w⟩ := e
    rw [get?_cons] at h
    split_ifs at h with hk
    · simp only [Option.some.injEq] at h
      exact ⟨[], t, by rw [hk, h]; rfl, by simp⟩
    · obtain ⟨pre, post, ht, hp⟩ := ih h
      exact ⟨(k', w) :: pre, post, by rw [ht]; rfl, by simp [hp, Ne.symm hk]⟩

theorem keys_insert_of_mem {k : String} {v : Json} {t : Tree} (h : k ∈ keys t) : keys (insert k v t) = keys t := by
  obtain ⟨w, hw⟩ := mem_keys_iff.1 h
  obtain ⟨pre, post, rfl, hp⟩ := split_of_get? hw
  rw [insert_append_cons hp]; simp [keys]

theorem mem_keys_insert {k k' : String} {v : Json} {t : Tree} : k' ∈ keys (insert k v t) ↔ k' = k ∨ k' ∈ keys t := by
  by_cases hk : k ∈ keys t
  · rw [keys_insert_of_mem hk]
    exact ⟨Or.inr, fun h => h.elim (fun h => h ▸ hk) id⟩
  · rw [insert_of_notMem hk]; simp [keys, or_comm]

theorem nodup_keys_insert {k : String} {v : Json} {t : Tree} (h : (keys t).Nodup) : (keys (insert k v t)).Nodup := by
  by_cases hk : k ∈ keys t
  · rwa [keys_insert_of_mem hk]
  · rw [insert_of_notMem hk, keys, List.map_append, List.nodup_append]
    refine ⟨h, by simp, fun a ha b hb hab => hk ?_⟩
    simp only [List.map_cons, List.map_nil, List.mem_singleton] at hb
    rwa [← hb, ← hab]

theorem mem_insert {k : String} {v : Json} {t : Tree} {e : String × Json} (h : e ∈ insert k v t) :
    e = (k, v) ∨ e ∈ t := by
  by_cases hk : k ∈ keys t
  · obtain ⟨w, hw⟩ := mem_keys_iff.1 hk
    obtain ⟨pre, post, rfl, hp⟩ := split_of_get? hw
    rw [insert_append_cons hp] at h
    simp only [List.mem_append, List.mem_cons] at h ⊢
    tauto
  · rw [insert_of_notMem hk, List.mem_append, List.mem_singleton] at h
    exact h.symm

theorem ofPairs_of_nodup {pairs : Tree} (h : (keys pairs).Nodup) : ofPairs pairs = pairs := by
  suffices hs : ∀ t : Tree, (keys (t ++ pairs)).Nodup → insertAll t pairs = t ++ pairs from hs [] h
  clear h
  induction pairs with
  | nil => intro t _; simp [insertAll]
  | cons e pairs ih =>
    intro t ht
    have hk : e.1 ∉ keys t := by
      intro hk
      unfold keys at ht
      rw [List.map_append, List.nodup_append] at ht
      exact ht.2.2 e.1 hk e.1 List.mem_cons_self rfl
    show insertAll (insert e.1 e.2 t) pairs = _
    rw [insert_of_notMem hk, ih _ (by simpa using ht)]; simp

theorem nodup_keys_insertAll {t : Tree} (h : (keys t).Nodup) (pairs : List (String × Json)) :
    (keys (insertAll t pairs)).Nodup := by
  induction pairs generalizing t with
  | nil => exact h
  | cons e pairs ih => exact ih (nodup_keys_insert h)

end Tree

/-! ## Unique keys -/

namespace Json

mutual
/-- unique keys can be checked -/
def decideWellFormed : (j : Json) → Decidable j.WellFormed
  | .null => isTrue trivial
  | .bool _ => isTrue trivial
  | .number _ => isTrue trivial
  | .string _ => isTrue trivial
  | .list items => decideItems items
  | .object members => decideMembers members
termination_by structural j => j

def decideItems : (items : List Json) → Decidable (ItemsWellFormed items)
  | [] => isTrue trivial
  | j :: rest => @instDecidableAnd _ _ (decideWellFormed j) (decideItems rest)
termination_by structural items => items

def decideMembers : (members : List (String × Json)) → Decidable (MembersWellFormed members)
  | [] => isTrue trivial
  | (_, v) :: rest =>
    @instDecidableAnd _ _ (@instDecidableAnd _ _ (decidable_of_iff _ Option.isNone_iff_eq_none) (decideWellFormed v))
      (decideMembers rest)
termination_by structural members => members
end

instance : DecidablePred WellFormed := decideWellFormed

theorem itemsWellFormed_iff {items : List Json} : ItemsWellFormed items ↔ ∀ j ∈ items, j.WellFormed := by
  induction items with
  | nil => simp [ItemsWellFormed]
  | cons j items ih => simp [ItemsWellFormed, ih]

theorem membersWellFormed_iff {members : Tree} :
    MembersWellFormed members ↔ (Tree.keys members).Nodup ∧ ∀ e ∈ members, e.2.WellFormed := by
  induction members with
  | nil => simp [MembersWellFormed]
  | cons e members ih =>
    obtain ⟨k, v⟩ := e
    rw [MembersWellFormed, ih, Tree.get?_eq_none_iff, Tree.keys_cons, List.nodup_cons, List.forall_mem_cons]
    tauto

theorem wellFormed_list_iff {items : List Json} : (Json.list items).WellFormed ↔ ∀ j ∈ items, j.WellFormed := by
  rw [WellFormed, itemsWellFormed_iff]

theorem wellFormed_object_iff {members : Tree} :
    (Json.object members).WellFormed ↔ (Tree.keys members).Nodup ∧ ∀ e ∈ members, e.2.WellFormed := by
  rw [WellFormed, membersWellFormed_iff]

theorem eq_object_of_object? {j : Json} {t : Tree} (h : j.object? = some t) : j = .object t := by
  cases j <;> simp_all [object?]

theorem string?_eq_some_iff {j : Json} {s : String} : j.string? = some s ↔ j = .string s := by
  cases j <;> simp [string?]

theorem wellFormed_of_scalar {j : Json} (hl : j.list? = none) (ho : j.object? = none) : j.WellFormed := by
  cases j <;> simp_all [WellFormed, list?, object?]

end Json

namespace Tree

instance (t : Tree) : Decidable t.WellFormed := inferInstanceAs (Decidable (Json.object t).WellFormed)

theorem wellFormed_iff {t : Tree} : t.WellFormed ↔ (keys t).Nodup ∧ ∀ e ∈ t, e.2.WellFormed :=
  Json.wellFormed_object_iff

theorem wellFormed_nil : WellFormed [] := by simp [wellFormed_iff]

theorem WellFormed.get? {t : Tree} (h : t.WellFormed) {k : String} {v : Json} (hv : Tree.get? k t = some v) :
    v.WellFormed :=
  (wellFormed_iff.1 h).2 _ (mem_of_get? hv)

theorem WellFormed.insert {t : Tree} (h : t.WellFormed) {v : Json} (hv : v.WellFormed) (k : String) :
    (Tree.insert k v t).WellFormed := by
  obtain ⟨hn, hm⟩ := wellFormed_iff.1 h
  refine wellFormed_iff.2 ⟨nodup_keys_insert hn, ?_⟩
  intro e he
  rcases mem_insert he with rfl | he
  · exact hv
  · exact hm e he

end Tree

end ContactSync
