/-
Equality of values is an equality.

`Json.same` compares objects by counting their keys and looking each one up. On well-formed values this is agreement of
all lookups (`same_object_iff`), and so it is reflexive, symmetric and transitive: `same_refl`, `same_symm`,
`same_trans`. The two double zeros agree, so it is coarser than being equal.
-/
import ContactSync.Proofs.Lookup
import Mathlib.Data.List.Forall2
import Mathlib.Data.List.Perm.Subperm

namespace ContactSync

/-! ## Numbers -/

theorem Number.same_refl (n : Number) : n.same n = true := by
  cases n <;> simp [Number.same, Double.same]

theorem Number.same_symm {m n : Number} (h : m.same n = true) : n.same m = true := by
  cases m <;> cases n <;> simp only [Number.same, Double.same, Bool.or_eq_true, Bool.and_eq_true, beq_iff_eq] at h ⊢
  · exact h.symm
  · cases h
  · cases h
  · rcases h with h | h
    · exact Or.inl h.symm
    · exact Or.inr h.symm

theorem Number.same_trans {l m n : Number} (h1 : l.same m = true) (h2 : m.same n = true) : l.same n = true := by
  cases l <;> cases m <;> cases n <;>
    simp only [Number.same, Double.same, Bool.or_eq_true, Bool.and_eq_true, beq_iff_eq, Bool.false_eq_true] at h1 h2 ⊢
  · exact h1.trans h2
  · rcases h1 with rfl | h1
    · exact h2
    · rcases h2 with rfl | h2
      · exact Or.inr h1
      · exact Or.inr ⟨h1.1, h2.2⟩

namespace Json

/-! ## Lists and objects, part by part -/

theorem sameItems_iff {as bs : List Json} :
    sameItems as bs = true ↔ List.Forall₂ (fun a b => a.same b = true) as bs := by
  induction as generalizing bs with
  | nil => cases bs <;> simp [sameItems]
  | cons a as ih => cases bs <;> simp [sameItems, ih]

theorem same_list_iff {as bs : List Json} :
    (Json.list as).same (.list bs) = true ↔ List.Forall₂ (fun a b => a.same b = true) as bs := by
  rw [same, sameItems_iff]

theorem sameMembers_iff {members other : Tree} :
    sameMembers members other = true ↔ ∀ e ∈ members, ∃ w, Tree.get? e.1 other = some w ∧ e.2.same w = true := by
  induction members with
  | nil => simp [sameMembers]
  | cons e members ih =>
    obtain ⟨k, v⟩ := e
    unfold sameMembers
    rw [Bool.and_eq_true, ih, List.forall_mem_cons]
    cases Tree.get? k other <;> simp

/-- objects with unique keys agree when all their lookups do -/
theorem same_object_iff {a b : Tree} (ha : (Tree.keys a).Nodup) (hb : (Tree.keys b).Nodup) :
    (Json.object a).same (.object b) = true ↔
      ∀ k, Option.Rel (fun v w => v.same w = true) (Tree.get? k a) (Tree.get? k b) := by
  rw [same, Bool.and_eq_true, beq_iff_eq, sameMembers_iff]
  have hlen : ∀ t : Tree, t.length = (Tree.keys t).length := fun t => by simp [Tree.keys]
  constructor
  · rintro ⟨hl, hm⟩ k
    have hsub : Tree.keys a ⊆ Tree.keys b := by
      intro k hk
      obtain ⟨v, hv⟩ := Tree.mem_keys_iff.1 hk
      obtain ⟨w, hw, -⟩ := hm _ (Tree.mem_of_get? hv)
      exact Tree.mem_keys_iff.2 ⟨w, hw⟩
    -- as many keys, none twice: the keys are the same ones
    have hperm : (Tree.keys a).Perm (Tree.keys b) :=
      (List.subperm_of_subset ha hsub).perm_of_length_le (by rw [← hlen, ← hlen]; omega)
    cases hv : Tree.get? k a with
    | some v =>
      obtain ⟨w, hw, hvw⟩ := hm _ (Tree.mem_of_get? hv)
      rw [hw]; exact .some hvw
    | none =>
      rw [Tree.get?_eq_none_iff, hperm.mem_iff, ← Tree.get?_eq_none_iff] at hv
      rw [hv]; exact .none
  · intro h
    constructor
    · have hperm : (Tree.keys a).Perm (Tree.keys b) := by
        apply (List.perm_ext_iff_of_nodup ha hb).2
        intro k
        rw [Tree.mem_keys_iff, Tree.mem_keys_iff]
        have hk := h k
        cases hv : Tree.get? k a <;> cases hw : Tree.get? k b <;> rw [hv, hw] at hk <;> simp_all
      rw [hlen, hlen, hperm.length_eq]
    · intro e he
      have hk := h e.1
      rw [Tree.get?_of_mem ha he] at hk
      cases hw : Tree.get? e.1 b with
      | none => rw [hw] at hk; simp at hk
      | some w => rw [hw] at hk; exact ⟨w, rfl, by simpa using hk⟩

theorem get?_of_same_object {a b : Tree} (ha : (Tree.keys a).Nodup) (hb : (Tree.keys b).Nodup)
    (h : (Json.object a).same (.object b) = true) (k : String) :
    (Tree.get? k a = none ∧ Tree.get? k b = none) ∨
      ∃ v w, Tree.get? k a = some v ∧ Tree.get? k b = some w ∧ v.same w = true := by
  have hk := (same_object_iff ha hb).1 h k
  cases hv : Tree.get? k a <;> cases hw : Tree.get? k b <;> rw [hv, hw] at hk
  · exact .inl ⟨rfl, rfl⟩
  · simp at hk
  · simp at hk
  · exact .inr ⟨_, _, rfl, rfl, by simpa using hk⟩

theorem object?_of_same {a b : Json} (h : a.same b = true) : a.object?.isSome = b.object?.isSome := by
  cases a <;> cases b <;> simp_all [same, object?]

/-! ## An equivalence -/

theorem same_refl {j : Json} (h : j.WellFormed) : j.same j = true := by
  induction j using valueInduction with
  | scalar j hl ho => cases j <;> simp_all [same, list?, object?, Number.same_refl]
  | list items ih =>
    rw [wellFormed_list_iff] at h
    exact same_list_iff.2 (List.forall₂_same.2 fun j hj => ih j hj (h j hj))
  | object members ih =>
    rw [wellFormed_object_iff] at h
    apply (same_object_iff h.1 h.1).2
    intro k
    cases hv : Tree.get? k members with
    | none => exact .none
    | some v => exact .some (ih _ (Tree.mem_of_get? hv) (h.2 _ (Tree.mem_of_get? hv)))

theorem same_symm {a b : Json} (ha : a.WellFormed) (hb : b.WellFormed) (h : a.same b = true) : b.same a = true := by
  induction a using valueInduction generalizing b with
  | scalar a hl ho => cases a <;> cases b <;> simp_all [same, list?, object?, Number.same_symm]
  | list as ih =>
    cases b with
    | list bs =>
      rw [wellFormed_list_iff] at ha hb
      rw [same_list_iff] at h ⊢
      refine List.forall₂_iff_get.2 ⟨h.length_eq.symm, ?_⟩
      intro i h1 h2
      exact ih _ (List.get_mem _ _) (ha _ (List.get_mem _ _)) (hb _ (List.get_mem _ _)) (h.get h2 h1)
    | _ => simp [same] at h
  | object as ih =>
    cases b with
    | object bs =>
      rw [wellFormed_object_iff] at ha hb
      apply (same_object_iff hb.1 ha.1).2
      intro k
      rcases get?_of_same_object ha.1 hb.1 h k with ⟨hv, hw⟩ | ⟨v, w, hv, hw, hvw⟩
      · rw [hv, hw]
        exact .none
      · rw [hv, hw]
        have hv := Tree.mem_of_get? hv
        have hw := Tree.mem_of_get? hw
        exact .some (ih _ hv (ha.2 _ hv) (hb.2 _ hw) hvw)
    | _ => simp [same] at h

theorem same_trans {a b c : Json} (ha : a.WellFormed) (hb : b.WellFormed) (hc : c.WellFormed)
    (hab : a.same b = true) (hbc : b.same c = true) : a.same c = true := by
  induction a using valueInduction generalizing b c with
  | scalar a hl ho =>
    cases a <;> cases b <;> cases c <;> simp_all [same, list?, object?]
    exact Number.same_trans hab hbc
  | list as ih =>
    cases b with
    | list bs =>
      cases c with
      | list cs =>
        rw [wellFormed_list_iff] at ha hb hc
        rw [same_list_iff] at hab hbc ⊢
        refine List.forall₂_iff_get.2 ⟨hab.length_eq.trans hbc.length_eq, ?_⟩
        intro i h1 h2
        have h3 : i < bs.length := hab.length_eq ▸ h1
        exact ih _ (List.get_mem _ _) (ha _ (List.get_mem _ _)) (hb _ (List.get_mem _ _)) (hc _ (List.get_mem _ _))
          (hab.get h1 h3) (hbc.get h3 h2)
      | _ => simp [same] at hbc
    | _ => simp [same] at hab
  | object as ih =>
    cases b with
    | object bs =>
      cases c with
      | object cs =>
        rw [wellFormed_object_iff] at ha hb hc
        apply (same_object_iff ha.1 hc.1).2
        intro k
        rcases get?_of_same_object ha.1 hb.1 hab k with ⟨hu, hv⟩ | ⟨u, v, hu, hv, huv⟩
        · rcases get?_of_same_object hb.1 hc.1 hbc k with ⟨-, hw⟩ | ⟨v', w, hv', -⟩
          · rw [hu, hw]
            exact .none
          · rw [hv] at hv'; cases hv'
        · rcases get?_of_same_object hb.1 hc.1 hbc k with ⟨hv', -⟩ | ⟨v', w, hv', hw, hvw⟩
          · rw [hv] at hv'; cases hv'
          · obtain rfl : v = v' := Option.some.inj (hv.symm.trans hv')
            rw [hu, hw]
            have hu := Tree.mem_of_get? hu
            have hv := Tree.mem_of_get? hv
            have hw := Tree.mem_of_get? hw
            exact .some (ih _ hu (ha.2 _ hu) (hb.2 _ hv) (hc.2 _ hw) huv hvw)
      | _ => simp [same] at hbc
    | _ => simp [same] at hab

end Json

end ContactSync
