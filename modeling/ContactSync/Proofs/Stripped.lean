/-
What the strip keeps, place by place.

Two trees agree once their empty parts are gone exactly when at every row of keys the strip keeps the same of what
stands there (`stripped_same_iff`): an object is kept for the sake of its leaves, so only leaves count, and null and
empty lists count as nothing. Content is what the strip keeps (`hasContent_iff`).
-/
import ContactSync.Proofs.Agreement
import ContactSync.Proofs.Outline
import ContactSync.Tree.Content

namespace ContactSync

/-- agreement of two values that may not be there -/
abbrev Agree : Option Json → Option Json → Prop := Option.Rel fun a b => a.same b = true

/-- what the strip keeps of a place: an object stays only for its members -/
def Spot.kept : Spot → Option Json
  | .leaf x => x.stripped?
  | _ => none

namespace Json

/-! ## The strip of one object -/

theorem strippedMembers_sublist (members : Tree) :
    (Tree.keys (strippedMembers members)).Sublist (Tree.keys members) := by
  induction members with
  | nil => simp [strippedMembers]
  | cons e members ih =>
    obtain ⟨k, v⟩ := e
    unfold strippedMembers
    split
    · exact ih.cons_cons k
    · exact ih.cons k

theorem nodup_strippedMembers {members : Tree} (h : (Tree.keys members).Nodup) :
    (Tree.keys (strippedMembers members)).Nodup :=
  (strippedMembers_sublist members).nodup h

theorem get?_strippedMembers {members : Tree} (h : (Tree.keys members).Nodup) (k : String) :
    Tree.get? k (strippedMembers members) = (Tree.get? k members).bind stripped? := by
  induction members with
  | nil => simp [strippedMembers]
  | cons e members ih =>
    obtain ⟨k', v⟩ := e
    rw [Tree.keys_cons, List.nodup_cons] at h
    unfold strippedMembers
    rw [Tree.get?_cons]
    by_cases hk : k' = k
    · rw [if_pos hk, Option.bind_some]
      cases hv : v.stripped? with
      | some w => rw [Tree.get?_cons, if_pos hk]
      | none =>
        -- the key is gone for good: no later member has it
        have hm : k ∉ Tree.keys members := hk ▸ h.1
        simpa [ih h.2, Tree.get?_eq_none_iff] using fun v' hv' => absurd (Tree.mem_keys_iff.2 ⟨v', hv'⟩) hm
    · rw [if_neg hk, ← ih h.2]
      cases v.stripped? with
      | some w => rw [Tree.get?_cons, if_neg hk]
      | none => rfl

theorem stripped?_object (members : Tree) :
    stripped? (.object members) =
      if strippedMembers members = [] then none else some (.object (strippedMembers members)) := by
  unfold stripped?
  cases strippedMembers members <;> rfl

theorem stripped?_object_eq_none_iff {members : Tree} (h : (Tree.keys members).Nodup) :
    stripped? (.object members) = none ↔ ∀ k, (Tree.get? k members).bind stripped? = none := by
  simp only [← get?_strippedMembers h, Tree.get?_eq_none_iff]
  rw [stripped?_object]
  cases strippedMembers members with
  | nil => simp
  | cons e rest => simpa using ⟨e.1, by simp [Tree.keys]⟩

theorem object?_of_stripped? {v x : Json} (hv : v.object? = none) (h : v.stripped? = some x) : x.object? = none := by
  cases v with
  | object members => cases hv
  | list items =>
    cases items with
    | nil => cases h
    | cons i items => cases h; rfl
  | null => cases h
  | _ => cases h; rfl

theorem agree_stripped?_object {a b : Tree} :
    Agree (stripped? (.object a)) (stripped? (.object b)) ↔
      (Json.object (strippedMembers a)).same (.object (strippedMembers b)) = true := by
  rw [stripped?_object, stripped?_object]
  cases ha : strippedMembers a <;> cases hb : strippedMembers b <;> simp [Agree, same, sameMembers]

/-- objects with unique keys agree once stripped when the strips of all their lookups do -/
theorem agree_object_iff {a b : Tree} (ha : (Tree.keys a).Nodup) (hb : (Tree.keys b).Nodup) :
    Agree (stripped? (.object a)) (stripped? (.object b)) ↔
      ∀ k, Agree ((Tree.get? k a).bind stripped?) ((Tree.get? k b).bind stripped?) := by
  rw [agree_stripped?_object, same_object_iff (nodup_strippedMembers ha) (nodup_strippedMembers hb)]
  simp only [get?_strippedMembers ha, get?_strippedMembers hb]

theorem agree_none_left {o : Option Json} : Agree none o ↔ o = none := by
  cases o <;> simp [Agree]

theorem agree_none_right {o : Option Json} : Agree o none ↔ o = none := by
  cases o with
  | none => simp [Agree]
  | some v => simp [Agree]

/-- a stripped object agrees with no stripped value of another kind, unless nothing is left of either -/
theorem agree_leaf_object {v : Json} (hv : v.object? = none) (b : Tree) :
    (Agree v.stripped? (stripped? (.object b)) ↔ v.stripped? = none ∧ stripped? (.object b) = none) ∧
    (Agree (stripped? (.object b)) v.stripped? ↔ v.stripped? = none ∧ stripped? (.object b) = none) := by
  cases hx : v.stripped? with
  | none => simp [agree_none_left, agree_none_right]
  | some x =>
    have hxo := object?_of_stripped? hv hx
    rw [stripped?_object]
    split_ifs
    · simp [Agree]
    · cases x <;> simp_all [Agree, same, object?]

theorem wellFormed_strippedItems {items : List Json} (h : ∀ j ∈ items, j.WellFormed)
    (ih : ∀ j ∈ items, ∀ w : Json, j.stripped? = some w → w.WellFormed) : ∀ j ∈ strippedItems items, j.WellFormed := by
  induction items with
  | nil => simp [strippedItems]
  | cons item items ih' =>
    rw [List.forall_mem_cons] at h ih
    rw [strippedItems, List.forall_mem_cons]
    refine ⟨?_, ih' h.2 ih.2⟩
    cases item with
    | object members =>
      unfold strippedItem
      have hm := stripped?_object members
      split_ifs at hm with hnil
      · rw [hnil]; exact Tree.wellFormed_nil
      · exact ih.1 _ hm
    | _ => exact h.1

theorem WellFormed.stripped? {v w : Json} (h : v.WellFormed) (hw : v.stripped? = some w) : w.WellFormed := by
  induction v using valueInduction generalizing w with
  | scalar v hl ho =>
    obtain rfl : v = w := by cases v <;> simp_all [Json.stripped?, list?, object?]
    exact h
  | list items ih =>
    rw [wellFormed_list_iff] at h
    cases items with
    | nil => cases hw
    | cons item items =>
      cases hw
      exact wellFormed_list_iff.2 (wellFormed_strippedItems h fun j hj w => ih j hj (h j hj))
  | object members ih =>
    obtain ⟨hn, hm⟩ := wellFormed_object_iff.1 h
    rw [stripped?_object] at hw
    split_ifs at hw
    cases hw
    refine wellFormed_object_iff.2 ⟨nodup_strippedMembers hn, ?_⟩
    intro e he
    have hk := Tree.get?_of_mem (nodup_strippedMembers hn) he
    rw [get?_strippedMembers hn, Option.bind_eq_some_iff] at hk
    obtain ⟨v, hv, hvw⟩ := hk
    exact ih _ (Tree.mem_of_get? hv) (hm _ (Tree.mem_of_get? hv)) hvw

/-! ## Nothing kept -/

/-- nothing is left of a value when nothing is kept anywhere in it -/
theorem stripped?_eq_none_iff {v : Json} (h : v.WellFormed) :
    v.stripped? = none ↔ ∀ q, (v.outline q).kept = none := by
  induction v using valueInduction with
  | scalar v hl ho =>
    constructor
    · intro hs q
      cases q with
      | nil => rw [outline_nil ho]; exact hs
      | cons k q => rw [outline_cons ho]; rfl
    · intro hq
      have := hq []
      rwa [outline_nil ho] at this
  | list items _ =>
    refine ⟨?_, fun hq => hq []⟩
    intro hs q
    cases q with
    | nil => exact hs
    | cons k q => rw [outline_cons rfl]; rfl
  | object members ih =>
    obtain ⟨hn, hw⟩ := wellFormed_object_iff.1 h
    rw [stripped?_object_eq_none_iff hn]
    have hmem : ∀ k v, Tree.get? k members = some v →
        (v.stripped? = none ↔ ∀ q, (v.outline q).kept = none) := fun k v hk =>
      ih _ (Tree.mem_of_get? hk) (hw _ (Tree.mem_of_get? hk))
    constructor
    · intro hs q
      cases q with
      | nil => rfl
      | cons k q =>
        rw [outline_object_cons]
        have hk := hs k
        cases hg : Tree.get? k members with
        | none => rfl
        | some v => rw [hg] at hk; exact (hmem k v hg).1 hk q
    · intro hq k
      cases hg : Tree.get? k members with
      | none => rfl
      | some v =>
        apply (hmem k v hg).2
        intro q
        have := hq (k :: q)
        rwa [outline_object_cons, hg] at this

/-! ## Agreement, place by place -/

/-- the strips of two values agree when what is kept of them alone agrees, and the strips of their members do -/
theorem agree_stripped?_iff_members {v w : Json} (hv : v.WellFormed) (hw : w.WellFormed) :
    Agree v.stripped? w.stripped? ↔ Agree (v.outline []).kept (w.outline []).kept ∧
      ∀ k, Agree ((Tree.get? k v.members).bind stripped?) ((Tree.get? k w.members).bind stripped?) := by
  have hleaf : ∀ {u : Json}, u.object? = none → (u.outline []).kept = u.stripped? ∧ u.members = [] := fun hu =>
    ⟨by rw [outline_nil hu]; rfl, by rw [Json.members, hu]; rfl⟩
  cases hvo : v.object? with
  | none =>
    obtain ⟨h1, h2⟩ := hleaf hvo
    rw [h1, h2]
    cases hwo : w.object? with
    | none =>
      obtain ⟨h3, h4⟩ := hleaf hwo
      rw [h3, h4]; simp
    | some b =>
      obtain rfl := eq_object_of_object? hwo
      rw [(agree_leaf_object hvo b).1, stripped?_object_eq_none_iff (wellFormed_object_iff.1 hw).1]
      simp [agree_none_left, agree_none_right, Spot.kept, Json.members, object?]
  | some a =>
    obtain rfl := eq_object_of_object? hvo
    cases hwo : w.object? with
    | none =>
      obtain ⟨h3, h4⟩ := hleaf hwo
      rw [h3, h4, (agree_leaf_object hwo a).2, stripped?_object_eq_none_iff (wellFormed_object_iff.1 hv).1]
      simp [agree_none_left, agree_none_right, Spot.kept, Json.members, object?]
    | some b =>
      obtain rfl := eq_object_of_object? hwo
      rw [agree_object_iff (wellFormed_object_iff.1 hv).1 (wellFormed_object_iff.1 hw).1]
      simp [Spot.kept, Json.members, object?, Agree]

/-- what is left of two values agrees when what is kept does at every place -/
theorem agree_stripped?_iff {v w : Json} (hv : v.WellFormed) (hw : w.WellFormed) :
    Agree v.stripped? w.stripped? ↔ ∀ q, Agree (v.outline q).kept (w.outline q).kept := by
  have hcons : ∀ {v w : Json}, v.WellFormed → w.WellFormed →
      (∀ k a b, Tree.get? k v.members = some a → Tree.get? k w.members = some b →
        (Agree a.stripped? b.stripped? ↔ ∀ q, Agree (a.outline q).kept (b.outline q).kept)) →
      (Agree v.stripped? w.stripped? ↔ ∀ q, Agree (v.outline q).kept (w.outline q).kept) := by
    intro v w hv hw ih
    rw [agree_stripped?_iff_members hv hw]
    have hk : ∀ k, Agree ((Tree.get? k v.members).bind stripped?) ((Tree.get? k w.members).bind stripped?) ↔
        ∀ q, Agree (v.outline (k :: q)).kept (w.outline (k :: q)).kept := by
      intro k
      simp only [outline_members_cons]
      cases ha : Tree.get? k v.members <;> cases hb : Tree.get? k w.members
      · simp [Outline.ofOption, Spot.kept, Agree]
      · simpa [agree_none_left, Outline.ofOption, Spot.kept] using stripped?_eq_none_iff (hw.members.get? hb)
      · simpa [agree_none_right, Outline.ofOption, Spot.kept] using stripped?_eq_none_iff (hv.members.get? ha)
      · exact ih k _ _ ha hb
    simp only [hk]
    constructor
    · rintro ⟨h0, h1⟩ q
      cases q with
      | nil => exact h0
      | cons k q => exact h1 k q
    · exact fun h => ⟨h [], fun k q => h (k :: q)⟩
  induction v using valueInduction generalizing w with
  | scalar v hl ho => exact hcons hv hw fun k a b ha => by simp [Json.members, ho] at ha
  | list items _ => exact hcons hv hw fun k a b ha => by simp [Json.members, object?] at ha
  | object t ih =>
    apply hcons hv hw
    intro k a b ha hb
    exact ih _ (Tree.mem_of_get? ha) (hv.members.get? ha) (hw.members.get? hb)

/-! ## Equal values -/

/-- equal values have equal strips -/
theorem agree_stripped?_of_same {v w : Json} (hv : v.WellFormed) (hw : w.WellFormed) (h : v.same w = true) :
    Agree v.stripped? w.stripped? := by
  induction v using valueInduction generalizing w with
  | scalar v hl ho => cases v <;> cases w <;> simp_all [same, list?, object?, stripped?, Agree]
  | list as ih =>
    cases w with
    | list bs =>
      rw [wellFormed_list_iff] at hv hw
      rw [same_list_iff] at h
      have hitems : List.Forall₂ (fun a b => a.same b = true) (strippedItems as) (strippedItems bs) := by
        induction h with
        | nil => simp [strippedItems]
        | @cons a b as bs hab h ih' =>
          rw [List.forall_mem_cons] at ih hv hw
          rw [strippedItems, strippedItems]
          refine .cons ?_ (ih' ih.2 hv.2 hw.2)
          cases a with
          | object a =>
            cases b with
            | object b => exact agree_stripped?_object.1 (ih.1 hv.1 hw.1 hab)
            | _ => simp [same] at hab
          | _ =>
            cases b with
            | object b => simp [same] at hab
            | _ => exact hab
      cases h with
      | nil => exact .none
      | cons => rw [stripped?, stripped?, Agree, Option.rel_some_some, same_list_iff]; exact hitems
    | _ => simp [same] at h
  | object as ih =>
    cases w with
    | object bs =>
      have ha := wellFormed_object_iff.1 hv
      have hb := wellFormed_object_iff.1 hw
      apply (agree_object_iff ha.1 hb.1).2
      intro k
      rcases get?_of_same_object ha.1 hb.1 h k with ⟨hx, hy⟩ | ⟨x, y, hx, hy, hxy⟩
      · rw [hx, hy]
        exact .none
      · rw [hx, hy]
        have hx := Tree.mem_of_get? hx
        have hy := Tree.mem_of_get? hy
        exact ih _ hx (ha.2 _ hx) (hb.2 _ hy) hxy
    | _ => simp [same] at h

/-! ## Content -/

/-- content is what the strip keeps -/
theorem hasContent_iff (v : Json) : v.HasContent ↔ v.stripped? ≠ none := by
  induction v using valueInduction with
  | scalar v hl ho => cases v <;> simp_all [HasContent, stripped?, list?, object?]
  | list items _ => cases items <;> simp [HasContent, stripped?]
  | object t ih =>
    rw [HasContent, stripped?_object]
    induction t with
    | nil => simp [SomeContent, strippedMembers]
    | cons e t ih' =>
      obtain ⟨k, v⟩ := e
      rw [List.forall_mem_cons] at ih
      rw [SomeContent, ih.1, ih' ih.2, strippedMembers]
      cases v.stripped? <;> simp

end Json

namespace Tree

theorem WellFormed.stripped {t : Tree} (h : t.WellFormed) : t.stripped.WellFormed := by
  have hm := Json.stripped?_object t
  split_ifs at hm with hnil
  · rw [Tree.stripped, hnil]; exact wellFormed_nil
  · exact Json.WellFormed.stripped? h hm

/-! ## Writing content -/

theorem get?_stripped {t : Tree} (h : t.WellFormed) (k : String) :
    get? k t.stripped = (get? k t).bind Json.stripped? :=
  Json.get?_strippedMembers (wellFormed_iff.1 h).1 k

/-- what is left of a tree with a key that content is written under -/
theorem get?_stripped_insert {t : Tree} (h : t.WellFormed) {v w : Json} (hv : v.WellFormed)
    (hw : v.stripped? = some w) (k k' : String) :
    get? k' (insert k v t).stripped = get? k' (insert k w t.stripped) := by
  rw [get?_stripped (h.insert hv k), get?_insert, get?_insert, get?_stripped h]
  split_ifs
  · exact hw
  · rfl

theorem childOrEmpty_stripped {t : Tree} (h : t.WellFormed) (k : String) :
    childOrEmpty k t.stripped = (childOrEmpty k t).stripped := by
  rw [childOrEmpty, childOrEmpty, get?_stripped h]
  cases get? k t with
  | none => rfl
  | some v =>
    cases v with
    | object members =>
      rw [Option.bind_some, Json.stripped?_object]
      split_ifs with hm
      · exact hm.symm
      · rfl
    | list items => cases items <;> rfl
    | _ => rfl

/-- **Content can be written before the strip or after it.** -/
theorem outline_stripped_setAt {t : Tree} (ht : t.WellFormed) {v w : Json} (hv : v.WellFormed)
    (hw : v.stripped? = some w) {ks : List String} (hks : ks ≠ []) :
    (setAt ks v t).stripped.outline = t.stripped.outline.write ks w := by
  induction ks generalizing t with
  | nil => exact absurd rfl hks
  | cons k ks ih =>
    cases ks with
    | nil =>
      rw [← outline_setAt hks]
      exact outline_congr (get?_stripped_insert ht hv hw k)
    | cons k' ks =>
      rw [setAt_cons_cons]
      have hks' : k' :: ks ≠ [] := List.cons_ne_nil _ _
      have hchild : (childOrEmpty k t).WellFormed := ht.childOrEmpty k
      let child := setAt (k' :: ks) v (childOrEmpty k t)
      have hout : child.stripped.outline = (childOrEmpty k t.stripped).outline.write (k' :: ks) w := by
        rw [childOrEmpty_stripped ht]
        exact ih hchild hks'
      -- with content in it, the object on the way is not empty
      have hleft : Json.stripped? (.object child) = some (.object child.stripped) := by
        rw [Json.stripped?_object, if_neg]
        · rfl
        · intro hnil
          have hat := Outline.write_at (k' :: ks) [] w (childOrEmpty k t.stripped).outline
          rw [List.append_nil, ← hout, stripped, hnil, outline_empty hks'] at hat
          exact Json.outline_nil_ne_nothing w hat.symm
      have hwritten := get?_stripped_insert ht (hchild.setAt hv _) hleft k
      rw [outline_congr hwritten]
      exact outline_insert (hout.trans (Outline.write_congr (agreeOff_childOrEmpty k k' ks t.stripped)))

/-! ## Agreement of trees -/

/-- **Trees agree once stripped when the strip keeps the same at every place.** -/
theorem stripped_same_iff {t u : Tree} (ht : t.WellFormed) (hu : u.WellFormed) :
    t.stripped.same u.stripped = true ↔ ∀ q, Agree (t.outline q).kept (u.outline q).kept :=
  Json.agree_stripped?_object.symm.trans (Json.agree_stripped?_iff ht hu)

end Tree

end ContactSync
