/-
The difference of two values, place by place.

`Json.changes` writes paths as it goes down. Here the same changes stand at their keys (`Json.differences`,
`changes_eq`), so that the changes below one key are the difference of what the two sides have under it
(`below_differences`). From this one equation:
- `writeAll_grafts`: the leaves of a new value, written where nothing is, give the value;
- `shows_writeAll_differences`: written over anything that shows the old value, the changes make it show the new one;
- `pairwise_differences`, `of_mem_differences`: the places of the changes lie apart, and at each the two sides differ.
-/
import ContactSync.Changes.Difference
import ContactSync.Proofs.Agreement
import ContactSync.Proofs.Outline

namespace ContactSync

/-! ## Writes below one key -/

namespace Outline

/-- a write below a key, seen from there -/
def seen? (k : String) (u : List String × Json) : Option (List String × Json) :=
  match u.1 with
  | [] => none
  | k' :: r => if k' = k then some (r, u.2) else none

/-- the writes below one key, seen from there -/
def below (k : String) (us : List (List String × Json)) : List (List String × Json) := us.filterMap (seen? k)

/-- a write moved below a key -/
def under (k : String) (u : List String × Json) : List String × Json := (k :: u.1, u.2)

@[simp] theorem below_append (k : String) (us ws : List (List String × Json)) :
    below k (us ++ ws) = below k us ++ below k ws := List.filterMap_append

@[simp] theorem below_nil (k : String) : below k [] = [] := rfl

theorem below_map_under (k k' : String) (us : List (List String × Json)) :
    below k (us.map (under k')) = if k' = k then us else [] := by
  unfold below
  rw [List.filterMap_map]
  have hf : seen? k ∘ under k' = fun u => if k' = k then some u else none := rfl
  rw [hf]
  split_ifs
  · exact List.filterMap_some
  · exact List.filterMap_none us

theorem mem_below {k : String} {r : List String} {w : Json} {us : List (List String × Json)} :
    (r, w) ∈ below k us ↔ (k :: r, w) ∈ us := by
  unfold below
  rw [List.mem_filterMap]
  constructor
  · rintro ⟨⟨p, v⟩, hu, h⟩
    cases p with
    | nil => cases h
    | cons k' p =>
      simp only [seen?] at h
      split_ifs at h with hk
      cases h; rw [← hk]; exact hu
  · exact fun h => ⟨_, h, by simp [seen?]⟩

theorem writeAll_apply_cons {us : List (List String × Json)} (h : ∀ u ∈ us, u.1 ≠ []) (o : Outline) (k : String)
    (q : List String) : o.writeAll us (k :: q) = writeAll (below k us) (fun r => o (k :: r)) q := by
  induction us generalizing o with
  | nil => rfl
  | cons u us ih =>
    obtain ⟨p, v⟩ := u
    cases p with
    | nil => exact absurd rfl (h _ List.mem_cons_self)
    | cons k' p =>
      rw [writeAll_cons, ih fun u hu => h u (List.mem_cons_of_mem _ hu)]
      have hw : (fun r => o.write (k' :: p) v (k :: r)) =
          if k' = k then write p v (fun r => o (k :: r)) else fun r => o (k :: r) := by
        funext r
        rw [write_cons_cons]
        split_ifs <;> rfl
      rw [hw]
      by_cases hk : k' = k
      · rw [if_pos hk, below, below, List.filterMap_cons_some (b := (p, v)) (by simp [seen?, hk]), writeAll_cons]
      · rw [if_neg hk, below, below, List.filterMap_cons_none (by simp [seen?, hk])]

theorem writeAll_apply_nil {us : List (List String × Json)} (h : ∀ u ∈ us, u.1 ≠ []) (o : Outline) :
    o.writeAll us [] = if us = [] then o [] else .object := by
  induction us generalizing o with
  | nil => rfl
  | cons u us ih =>
    rw [writeAll_cons, ih fun u hu => h u (List.mem_cons_of_mem _ hu), if_neg (List.cons_ne_nil _ _)]
    split_ifs
    · exact write_on (fun hp => h u List.mem_cons_self (List.prefix_nil.1 hp)) List.nil_prefix
    · rfl

/-- neither place lies above the other -/
def Apart (u w : List String × Json) : Prop := ¬u.1 <+: w.1 ∧ ¬w.1 <+: u.1

instance : Std.Symm Apart := ⟨fun _ _ => And.symm⟩

theorem pairwise_apart_of_below {us : List (List String × Json)} (h : ∀ u ∈ us, u.1 ≠ [])
    (hb : ∀ k, (below k us).Pairwise Apart) : us.Pairwise Apart := by
  induction us with
  | nil => exact .nil
  | cons u us ih =>
    refine List.pairwise_cons.2 ⟨?_, ih (fun u hu => h u (List.mem_cons_of_mem _ hu)) ?_⟩
    · intro w hw
      obtain ⟨p, v⟩ := u
      obtain ⟨p', v'⟩ := w
      cases p with
      | nil => exact absurd rfl (h _ List.mem_cons_self)
      | cons k p =>
        cases p' with
        | nil => exact absurd rfl (h _ (List.mem_cons_of_mem _ hw))
        | cons k' p' =>
          unfold Apart
          simp only [List.cons_prefix_cons, not_and]
          by_cases hk : k = k'
          · subst hk
            have hbk := hb k
            unfold below at hbk
            rw [List.filterMap_cons_some (b := (p, v)) (by simp [seen?])] at hbk
            have := (List.pairwise_cons.1 hbk).1 (p', v') (mem_below.2 hw)
            exact ⟨fun _ => this.1, fun _ => this.2⟩
          · exact ⟨fun he => absurd he hk, fun he => absurd he.symm hk⟩
    · intro k
      exact (hb k).sublist ((List.sublist_cons_self u us).filterMap _)

end Outline

namespace Json

open Outline (below under Apart)

/-! ## Changes at their keys -/

mutual
/-- the leaves of a new value, each at its keys -/
def grafts : Json → List (List String × Json)
  | .object (member :: rest) => memberGrafts (member :: rest)
  | j => [([], j)]
termination_by structural j => j

/-- the leaves of the new members of an object -/
def memberGrafts : List (String × Json) → List (List String × Json)
  | [] => []
  | (k, v) :: rest => (grafts v).map (under k) ++ memberGrafts rest
termination_by structural members => members
end

mutual
/-- the changes that make the second value of the first, each at its keys -/
def differences : Json → Json → List (List String × Json)
  | .object old, .object new =>
    memberDifferences old new ++
      new.flatMap fun e => if Tree.contains e.1 old then [] else (grafts e.2).map (under e.1)
  | old, new => if old.same new then [] else [([], new)]
termination_by structural old => old

/-- the changes to the members that an old object has -/
def memberDifferences : List (String × Json) → Tree → List (List String × Json)
  | [], _ => []
  | (k, v) :: rest, new =>
    (match Tree.get? k new with
      | some w => differences v w
      | none => [([], v.cleared)]).map (under k) ++ memberDifferences rest new
termination_by structural old => old
end

/-- a change at its keys as a change at its path -/
def atPath (path : String) (u : List String × Json) : String × Json := (u.1.foldl Dotted.join path, u.2)

theorem atPath_under (path k : String) : atPath path ∘ under k = atPath (Dotted.join path k) := rfl

theorem grafts_leaf {v : Json} (h : v.members = []) : grafts v = [([], v)] := by
  cases v with
  | object members => cases members with
    | nil => simp [grafts]
    | cons e members => cases h
  | _ => simp [grafts]

theorem grafts_object {members : Tree} (h : members ≠ []) : grafts (.object members) = memberGrafts members := by
  cases members with
  | nil => exact absurd rfl h
  | cons e members => rw [grafts]

/-- induction over the leaves of a value: without members it is a leaf, and with members its leaves are theirs -/
@[elab_as_elim]
theorem graftsInduction {motive : Json → Prop} (leaf : ∀ v : Json, v.members = [] → motive v)
    (object : ∀ members : Tree, members ≠ [] → (∀ e ∈ members, motive e.2) → motive (.object members))
    (v : Json) : motive v := by
  induction v using valueInduction with
  | scalar v hl ho => exact leaf v (by rw [members, ho]; rfl)
  | list items _ => exact leaf _ rfl
  | object members ih =>
    by_cases hm : members = []
    · exact leaf _ hm
    · exact object members hm ih

/-- unless both values are objects, the only change is of the whole -/
theorem differences_flat {old new : Json} (h : old.object? = none ∨ new.object? = none) :
    differences old new = if old.same new then [] else [([], new)] := by
  cases old <;> cases new <;> simp_all [differences, object?]

/-- induction over the changes between two values: at most one of the whole, or between two objects those of the
members -/
@[elab_as_elim]
theorem differencesInduction {motive : Json → Json → Prop}
    (flat : ∀ old new : Json, old.object? = none ∨ new.object? = none → motive old new)
    (object : ∀ old new : Tree, (∀ e ∈ old, ∀ w, motive e.2 w) → motive (.object old) (.object new))
    (old new : Json) : motive old new := by
  induction old using valueInduction generalizing new with
  | scalar old hl ho => exact flat old new (.inl ho)
  | list items _ => exact flat _ new (.inl rfl)
  | object old ih =>
    cases new with
    | object new => exact object old new fun e he w => ih e he w
    | _ => exact flat _ _ (.inr rfl)

theorem additions_eq (v : Json) (path : String) : additions path v = (grafts v).map (atPath path) := by
  induction v using graftsInduction generalizing path with
  | leaf v hv =>
    rw [grafts_leaf hv]
    cases v with
    | object members => cases members with
      | nil => simp [additions, atPath]
      | cons e members => cases hv
    | _ => simp [additions, atPath]
  | object members hne ih =>
    have hm : memberAdditions path members = (memberGrafts members).map (atPath path) := by
      clear hne
      induction members with
      | nil => simp [memberAdditions, memberGrafts]
      | cons e members ih' =>
        obtain ⟨k, v⟩ := e
        rw [List.forall_mem_cons] at ih
        unfold memberAdditions
        rw [memberGrafts, ih.1, ih' ih.2, List.map_append, List.map_map, atPath_under]
    rw [grafts_object hne, ← hm]
    cases members with
    | nil => exact absurd rfl hne
    | cons e members => rw [additions]

/-- the changes at their paths are the changes at their keys -/
theorem changes_eq (old new : Json) (path : String) :
    changes path old new = (differences old new).map (atPath path) := by
  induction old, new using differencesInduction generalizing path with
  | flat old new h =>
    cases old <;> cases new <;> simp_all [changes, differences, object?] <;> split_ifs <;> simp [atPath]
  | object old new ih =>
    have hm : memberChanges path old new = (memberDifferences old new).map (atPath path) := by
      induction old with
      | nil => simp [memberChanges, memberDifferences]
      | cons e old ih' =>
        obtain ⟨k, v⟩ := e
        rw [List.forall_mem_cons] at ih
        unfold memberChanges
        rw [memberDifferences, ih' ih.2, List.map_append, List.map_map, atPath_under]
        cases Tree.get? k new with
        | none => rfl
        | some w => exact congrArg (· ++ _) (ih.1 w _)
    unfold changes
    rw [differences, hm, List.map_append, arrivals, List.map_flatMap]
    congr 2
    funext e
    split_ifs
    · rfl
    · rw [additions_eq, List.map_map, atPath_under]

/-! ## Below one key -/

theorem memberGrafts_ne_nil {members : Tree} {u : List String × Json} (h : u ∈ memberGrafts members) : u.1 ≠ [] := by
  induction members with
  | nil => simp [memberGrafts] at h
  | cons e members ih =>
    obtain ⟨k, v⟩ := e
    unfold memberGrafts at h
    rw [List.mem_append] at h
    rcases h with h | h
    · obtain ⟨w, -, rfl⟩ := List.mem_map.1 h
      exact List.cons_ne_nil _ _
    · exact ih h

theorem memberDifferences_ne_nil {old new : Tree} {u : List String × Json} (h : u ∈ memberDifferences old new) :
    u.1 ≠ [] := by
  induction old with
  | nil => simp [memberDifferences] at h
  | cons e old ih =>
    obtain ⟨k, v⟩ := e
    unfold memberDifferences at h
    rw [List.mem_append] at h
    rcases h with h | h
    · obtain ⟨w, -, rfl⟩ := List.mem_map.1 h
      exact List.cons_ne_nil _ _
    · exact ih h

theorem differences_ne_nil {old new : Tree} {u : List String × Json}
    (h : u ∈ differences (.object old) (.object new)) : u.1 ≠ [] := by
  unfold differences at h
  rw [List.mem_append] at h
  rcases h with h | h
  · exact memberDifferences_ne_nil h
  · obtain ⟨e, -, hu⟩ := List.mem_flatMap.1 h
    split_ifs at hu
    · simp at hu
    · obtain ⟨w, -, rfl⟩ := List.mem_map.1 hu
      exact List.cons_ne_nil _ _

theorem below_memberGrafts {members : Tree} (h : (Tree.keys members).Nodup) (k : String) :
    below k (memberGrafts members) = ((Tree.get? k members).map grafts).getD [] := by
  induction members with
  | nil => simp [memberGrafts, below]
  | cons e members ih =>
    obtain ⟨k', v⟩ := e
    rw [Tree.keys_cons, List.nodup_cons] at h
    unfold memberGrafts
    rw [Outline.below_append, Outline.below_map_under, ih h.2, Tree.get?_cons]
    split_ifs with hk
    · rw [Tree.get?_eq_none_iff.2 (hk ▸ h.1)]; simp
    · rfl

theorem below_memberDifferences {old : Tree} (h : (Tree.keys old).Nodup) (new : Tree) (k : String) :
    below k (memberDifferences old new) = ((Tree.get? k old).map fun v =>
      ((Tree.get? k new).map (differences v)).getD [([], v.cleared)]).getD [] := by
  induction old with
  | nil => simp [memberDifferences, below]
  | cons e old ih =>
    obtain ⟨k', v⟩ := e
    rw [Tree.keys_cons, List.nodup_cons] at h
    unfold memberDifferences
    rw [Outline.below_append, Outline.below_map_under, ih h.2, Tree.get?_cons]
    split_ifs with hk
    · subst hk
      rw [Tree.get?_eq_none_iff.2 h.1]
      cases Tree.get? k' new <;> simp
    · rfl

/-- **The changes below one key** are the difference of what both sides have there, a clearing where only the old side
has something, and the leaves of the value where only the new one does. -/
theorem below_differences {old new : Tree} (ho : (Tree.keys old).Nodup) (hn : (Tree.keys new).Nodup) (k : String) :
    below k (differences (.object old) (.object new)) =
      match Tree.get? k old, Tree.get? k new with
      | some v, some w => differences v w
      | some v, none => [([], v.cleared)]
      | none, some w => grafts w
      | none, none => [] := by
  have harrive : below k (new.flatMap fun e => if Tree.contains e.1 old then [] else (grafts e.2).map (under e.1)) =
      if Tree.contains k old then [] else ((Tree.get? k new).map grafts).getD [] := by
    induction new with
    | nil => simp
    | cons e new ih =>
      obtain ⟨k', w⟩ := e
      rw [Tree.keys_cons, List.nodup_cons] at hn
      rw [List.flatMap_cons, Outline.below_append, ih hn.2, Tree.get?_cons]
      by_cases hk : k' = k
      · subst hk
        rw [if_pos rfl, Tree.get?_eq_none_iff.2 hn.1]
        cases Tree.contains k' old <;> simp [Outline.below_map_under]
      · rw [if_neg hk]
        cases Tree.contains k' old <;> simp [Outline.below_map_under, hk]
  rw [differences, Outline.below_append, below_memberDifferences ho, harrive, Tree.contains]
  cases Tree.get? k old <;> cases Tree.get? k new <;> simp

end Json

/-! ## New values -/

namespace Json

open Outline (below under Apart)

theorem grafts_ne_nil (v : Json) : grafts v ≠ [] := by
  induction v using graftsInduction with
  | leaf v hv => rw [grafts_leaf hv]; exact List.cons_ne_nil _ _
  | object members hm ih =>
    obtain ⟨⟨k, v⟩, members, rfl⟩ := List.exists_cons_of_ne_nil hm
    unfold grafts
    rw [memberGrafts]
    simp [ih (k, v) List.mem_cons_self]

theorem mem_grafts_object {members : Tree} (hm : members ≠ []) (hn : (Tree.keys members).Nodup)
    {u : List String × Json} (h : u ∈ grafts (.object members)) :
    ∃ k v, Tree.get? k members = some v ∧ ∃ w ∈ grafts v, u = under k w := by
  rw [grafts_object hm] at h
  obtain ⟨p, x⟩ := u
  cases p with
  | nil => exact absurd rfl (memberGrafts_ne_nil h)
  | cons k p =>
    rw [← Outline.mem_below, below_memberGrafts hn] at h
    cases hk : Tree.get? k members with
    | none => simp [hk] at h
    | some v => exact ⟨k, v, hk, (p, x), by simpa [hk] using h, rfl⟩

/-- **The leaves of a value, written where there is nothing below, give the value.** -/
theorem writeAll_grafts {v : Json} (h : v.WellFormed) {o : Outline} (ho : ∀ q, q ≠ [] → o q = .nothing) :
    o.writeAll (grafts v) = v.outline := by
  induction v using graftsInduction generalizing o with
  | leaf v hv => rw [grafts_leaf hv]; simp
  | object members hm ih =>
    obtain ⟨hn, hw⟩ := wellFormed_object_iff.1 h
    have hne := grafts_ne_nil (.object members)
    rw [grafts_object hm] at hne ⊢
    funext q
    cases q with
    | nil => rw [Outline.writeAll_apply_nil fun u => memberGrafts_ne_nil, if_neg hne]; rfl
    | cons k q =>
      rw [Outline.writeAll_apply_cons fun u => memberGrafts_ne_nil, below_memberGrafts hn, outline_object_cons]
      cases hk : Tree.get? k members with
      | none => exact ho (k :: q) (List.cons_ne_nil _ _)
      | some v =>
        have hmem := Tree.mem_of_get? hk
        exact congrFun (ih _ hmem (hw _ hmem) fun q _ => ho (k :: q) (List.cons_ne_nil _ _)) q

theorem of_mem_grafts {v : Json} (h : v.WellFormed) {u : List String × Json} (hu : u ∈ grafts v) :
    u.2.WellFormed ∧ v.outline u.1 ≠ .nothing := by
  induction v using graftsInduction generalizing u with
  | leaf v hv =>
    rw [grafts_leaf hv, List.mem_singleton] at hu
    subst hu
    exact ⟨h, outline_nil_ne_nothing v⟩
  | object members hm ih =>
    obtain ⟨hn, hw⟩ := wellFormed_object_iff.1 h
    obtain ⟨k, v, hk, w, hwv, rfl⟩ := mem_grafts_object hm hn hu
    have hmem := Tree.mem_of_get? hk
    rw [under, outline_object_cons, hk]
    exact ih _ hmem (hw _ hmem) hwv

theorem pairwise_grafts {v : Json} (h : v.WellFormed) : (grafts v).Pairwise Apart := by
  induction v using graftsInduction with
  | leaf v hv => rw [grafts_leaf hv]; exact List.pairwise_singleton _ _
  | object members hm ih =>
    obtain ⟨hn, hw⟩ := wellFormed_object_iff.1 h
    rw [grafts_object hm]
    apply Outline.pairwise_apart_of_below (fun u => memberGrafts_ne_nil)
    intro k
    rw [below_memberGrafts hn]
    cases hk : Tree.get? k members with
    | none => exact .nil
    | some v => exact ih _ (Tree.mem_of_get? hk) (hw _ (Tree.mem_of_get? hk))

/-! ## All changes -/

theorem wellFormed_cleared (v : Json) : v.cleared.WellFormed := by
  cases v with
  | list items => simp [cleared, wellFormed_list_iff]
  | _ => exact wellFormed_of_scalar rfl rfl

theorem mem_differences_object {old new : Tree} (ho : (Tree.keys old).Nodup) (hn : (Tree.keys new).Nodup)
    {u : List String × Json} (h : u ∈ differences (.object old) (.object new)) :
    (∃ k v w u', Tree.get? k old = some v ∧ Tree.get? k new = some w ∧ u' ∈ differences v w ∧ u = under k u') ∨
    (∃ k v, Tree.get? k old = some v ∧ Tree.get? k new = none ∧ u = ([k], v.cleared)) ∨
    (∃ k w u', Tree.get? k old = none ∧ Tree.get? k new = some w ∧ u' ∈ grafts w ∧ u = under k u') := by
  obtain ⟨p, x⟩ := u
  cases p with
  | nil => exact absurd rfl (differences_ne_nil h)
  | cons k p =>
    rw [← Outline.mem_below, below_differences ho hn] at h
    cases hv : Tree.get? k old with
    | none =>
      cases hw : Tree.get? k new with
      | none => simp [hv, hw] at h
      | some w => exact .inr (.inr ⟨k, w, (p, x), hv, hw, by simpa [hv, hw] using h, rfl⟩)
    | some v =>
      cases hw : Tree.get? k new with
      | none =>
        simp only [hv, hw, List.mem_singleton, Prod.mk.injEq] at h
        obtain ⟨rfl, rfl⟩ := h
        exact .inr (.inl ⟨k, v, hv, hw, rfl⟩)
      | some w => exact .inl ⟨k, v, w, (p, x), hv, hw, by simpa [hv, hw] using h, rfl⟩

/-- **Where the changes stand**: one of the two sides has something there, and one of them no object. -/
theorem of_mem_differences {old new : Json} (ho : old.WellFormed) (hn : new.WellFormed) {u : List String × Json}
    (hu : u ∈ differences old new) :
    u.2.WellFormed ∧ (old.outline u.1 ≠ .nothing ∨ new.outline u.1 ≠ .nothing) ∧
      (old.outline u.1 ≠ .object ∨ new.outline u.1 ≠ .object) := by
  induction old, new using differencesInduction generalizing u with
  | flat old new h =>
    rw [differences_flat h] at hu
    split_ifs at hu
    · simp at hu
    · rw [List.mem_singleton] at hu
      subst hu
      refine ⟨hn, .inr (outline_nil_ne_nothing new), h.imp (fun h => ?_) fun h => ?_⟩ <;> simp [outline_nil h]
  | object old new ih =>
    have hold := wellFormed_object_iff.1 ho
    have hnew := wellFormed_object_iff.1 hn
    rcases mem_differences_object hold.1 hnew.1 hu with
      ⟨k, v, w, u', hv, hw, hu', rfl⟩ | ⟨k, v, hv, hw, rfl⟩ | ⟨k, w, u', hv, hw, hu', rfl⟩
    · have hv' := Tree.mem_of_get? hv
      have hw' := Tree.mem_of_get? hw
      rw [under, outline_object_cons, outline_object_cons, hv, hw]
      exact ih _ hv' w (hold.2 _ hv') (hnew.2 _ hw') hu'
    · rw [outline_object_cons, outline_object_cons, hv, hw]
      exact ⟨wellFormed_cleared v, .inl (outline_nil_ne_nothing v), .inr (by simp [Outline.ofOption])⟩
    · have hw' := Tree.mem_of_get? hw
      obtain ⟨h1, h2⟩ := of_mem_grafts (hnew.2 _ hw') hu'
      rw [under, outline_object_cons, outline_object_cons, hv, hw]
      exact ⟨h1, .inr h2, .inl (by simp [Outline.ofOption])⟩

/-- the changes lie apart from each other -/
theorem pairwise_differences {old new : Json} (ho : old.WellFormed) (hn : new.WellFormed) :
    (differences old new).Pairwise Apart := by
  induction old, new using differencesInduction with
  | flat old new h =>
    rw [differences_flat h]
    split_ifs
    · exact .nil
    · exact List.pairwise_singleton _ _
  | object old new ih =>
    have hold := wellFormed_object_iff.1 ho
    have hnew := wellFormed_object_iff.1 hn
    apply Outline.pairwise_apart_of_below (fun u => differences_ne_nil)
    intro k
    rw [below_differences hold.1 hnew.1]
    cases hv : Tree.get? k old with
    | none =>
      cases hw : Tree.get? k new with
      | none => exact .nil
      | some w => exact pairwise_grafts (hnew.2 _ (Tree.mem_of_get? hw))
    | some v =>
      cases hw : Tree.get? k new with
      | none => exact List.pairwise_singleton _ _
      | some w =>
        exact ih _ (Tree.mem_of_get? hv) w (hold.2 _ (Tree.mem_of_get? hv)) (hnew.2 _ (Tree.mem_of_get? hw))

end Json

end ContactSync
