/-
What stands at a row of steps, and what a change there does.

A step goes from a value to one in it, and `Json.put` puts another in its place. A row of steps is one step after another
(`Json.at?_cons`), and a change at its end is a change of each value on the way, put back in its place
(`Json.updateAt?_cons_eq_some`). Everything here follows by induction on the steps from what one step does:
- `Json.updateAt?_append`: what stands on the way is changed further down, and is still found there;
- `Json.object_of_updateAt?`, `Json.list_of_updateAt?`: it stays an object, or a list as long as before;
- `Json.at?_updateAt?_off`: what lies off the change is as it was.
-/
import ContactSync.Proofs.Lookup
import ContactSync.Record.Location

namespace ContactSync

/-! ## One step -/

namespace Json

variable {j j' v w x' : Json} {s s' : Segment} {p q r : List Segment} {change : Tree → Tree}

/-- puts a value in the place of the one that a step leads to -/
def put : Json → Segment → Json → Json
  | .object members, .key name, w => .object (Tree.insert name w members)
  | .list items, .index position, w => .list (items.set position w)
  | j, _, _ => j

theorem at?_cons (s : Segment) (q : List Segment) (j : Json) : j.at? (s :: q) = (j.at? [s]).bind (at? q) := by
  cases s <;> cases j <;> simp [at?]

theorem updateAt?_cons (s : Segment) (r : List Segment) (j : Json) :
    j.updateAt? change (s :: r) = (j.at? [s]).bind fun v => (v.updateAt? change r).map fun w => j.put s w := by
  cases s <;> cases j <;> simp [at?, updateAt?, put]

theorem at?_put_self (h : j.at? [s] = some v) (w : Json) : (j.put s w).at? [s] = some w := by
  cases s with
  | key name =>
    cases j with
    | object members => simp [put, at?]
    | _ => cases h
  | index position =>
    cases j with
    | list items =>
      obtain ⟨y, hy, -⟩ := Option.bind_eq_some_iff.1 h
      have hset : (items.set position w)[position]? = some w :=
        List.getElem?_set_self (List.getElem?_eq_some_iff.1 hy).1
      rw [put, at?, hset]
      rfl
    | _ => cases h

theorem at?_put_of_ne (h : s ≠ s') (j w : Json) : (j.put s w).at? [s'] = j.at? [s'] := by
  cases s with
  | key name =>
    cases j with
    | object members =>
      cases s' with
      | key name' =>
        have hne : name ≠ name' := fun he => h (congrArg Segment.key he)
        simp only [put, at?, Tree.get?_insert, if_neg hne]
      | index position => rfl
    | _ => rfl
  | index position =>
    cases j with
    | list items =>
      cases s' with
      | key name => rfl
      | index position' =>
        have hne : position ≠ position' := fun he => h (congrArg Segment.index he)
        simp only [put, at?, List.getElem?_set_ne hne]
    | _ => rfl

/-! ## A row of steps -/

theorem at?_append (p r : List Segment) (j : Json) : j.at? (p ++ r) = (j.at? p).bind (at? r) := by
  induction p generalizing j with
  | nil => rfl
  | cons s p ih =>
    rw [List.cons_append, at?_cons, at?_cons s p]
    cases j.at? [s] with
    | none => rfl
    | some v => exact ih v

/-- what a change at the end of a row of steps does to the first of them -/
theorem updateAt?_cons_eq_some (h : j.updateAt? change (s :: r) = some j') :
    ∃ v w, j.at? [s] = some v ∧ v.updateAt? change r = some w ∧ j' = j.put s w := by
  rw [updateAt?_cons] at h
  obtain ⟨v, hv, h⟩ := Option.bind_eq_some_iff.1 h
  obtain ⟨w, hw, rfl⟩ := Option.map_eq_some_iff.1 h
  exact ⟨v, w, hv, hw, rfl⟩

theorem exists_updateAt? {t : Tree} (h : j.at? p = some (.object t)) (change : Tree → Tree) :
    ∃ j', j.updateAt? change p = some j' := by
  induction p generalizing j with
  | nil => cases h; exact ⟨_, rfl⟩
  | cons s p ih =>
    rw [at?_cons] at h
    obtain ⟨v, hv, h⟩ := Option.bind_eq_some_iff.1 h
    obtain ⟨w, hw⟩ := ih h
    exact ⟨j.put s w, by rw [updateAt?_cons, hv, Option.bind_some, hw]; rfl⟩

/-- **A change at the end of a row of steps is a change of what stands on the way there.** -/
theorem updateAt?_append (h : j.updateAt? change (p ++ r) = some j') :
    ∃ x x', j.at? p = some x ∧ x.updateAt? change r = some x' ∧ j'.at? p = some x' := by
  induction p generalizing j j' with
  | nil => exact ⟨j, j', rfl, h, rfl⟩
  | cons s p ih =>
    obtain ⟨v, w, hv, hw, rfl⟩ := updateAt?_cons_eq_some h
    obtain ⟨x, x', hx, hup, hx'⟩ := ih hw
    exact ⟨x, x', by rw [at?_cons, hv]; exact hx, hup, by rw [at?_cons, at?_put_self hv]; exact hx'⟩

theorem object_of_updateAt? {t : Tree} (h : (Json.object t).updateAt? change r = some x') :
    ∃ t', x' = .object t' := by
  cases r with
  | nil => cases h; exact ⟨_, rfl⟩
  | cons s r =>
    obtain ⟨v, w, -, -, rfl⟩ := updateAt?_cons_eq_some h
    cases s <;> exact ⟨_, rfl⟩

theorem list_of_updateAt? {items : List Json} (h : (Json.list items).updateAt? change r = some x') :
    ∃ items', x' = .list items' ∧ items'.length = items.length := by
  cases r with
  | nil => cases h
  | cons s r =>
    obtain ⟨v, w, -, -, rfl⟩ := updateAt?_cons_eq_some h
    cases s with
    | key name => exact ⟨items, rfl, rfl⟩
    | index position => exact ⟨_, rfl, List.length_set⟩

/-- **What lies off a written place is as before**, in objects and in lists. -/
theorem at?_updateAt?_off {name : String} {value : Json} (h : j.updateAt? (Tree.insert name value) p = some j')
    (h1 : ¬q <+: p ++ [.key name]) (h2 : ¬p ++ [.key name] <+: q) : j'.at? q = j.at? q := by
  induction p generalizing j j' q with
  | nil =>
    cases j with
    | object members =>
      cases h
      cases q with
      | nil => exact absurd List.nil_prefix h1
      | cons s q =>
        have hs : .key name ≠ s := by
          rintro rfl
          exact h2 (List.prefix_append _ q)
        rw [at?_cons, at?_cons s q]
        exact congrArg (Option.bind · (at? q)) (at?_put_of_ne hs (.object members) value)
    | _ => cases h
  | cons s p ih =>
    obtain ⟨v, w, hv, hw, rfl⟩ := updateAt?_cons_eq_some h
    cases q with
    | nil => exact absurd List.nil_prefix h1
    | cons s' q =>
      rw [List.cons_append, List.cons_prefix_cons, not_and] at h1 h2
      rw [at?_cons, at?_cons s' q]
      -- as long as the two ways agree the induction goes on; where they part, the other way is not touched
      by_cases hs : s = s'
      · subst hs
        rw [at?_put_self hv, hv]
        exact ih hw (h1 rfl) (h2 rfl)
      · rw [at?_put_of_ne hs]

/-! ## Unique keys -/

theorem WellFormed.step (h : j.WellFormed) (hv : j.at? [s] = some v) : v.WellFormed := by
  cases s with
  | key name =>
    cases j with
    | object members =>
      obtain ⟨x, hx, hv⟩ := Option.bind_eq_some_iff.1 hv
      cases hv
      exact Tree.WellFormed.get? h hx
    | _ => cases hv
  | index position =>
    cases j with
    | list items =>
      obtain ⟨x, hx, hv⟩ := Option.bind_eq_some_iff.1 hv
      cases hv
      exact wellFormed_list_iff.1 h _ (List.mem_of_getElem? hx)
    | _ => cases hv

theorem WellFormed.put (h : j.WellFormed) (hw : w.WellFormed) (s : Segment) : (j.put s w).WellFormed := by
  cases s with
  | key name =>
    cases j with
    | object members => exact Tree.WellFormed.insert h hw name
    | _ => exact h
  | index position =>
    cases j with
    | list items =>
      rw [Json.put, wellFormed_list_iff]
      intro x hx
      rcases List.mem_or_eq_of_mem_set hx with hx | rfl
      · exact wellFormed_list_iff.1 h x hx
      · exact hw
    | _ => exact h

theorem WellFormed.at? (h : j.WellFormed) (hx : j.at? p = some x') : x'.WellFormed := by
  induction p generalizing j with
  | nil => cases hx; exact h
  | cons s p ih =>
    rw [at?_cons] at hx
    obtain ⟨v, hv, hx⟩ := Option.bind_eq_some_iff.1 hx
    exact ih (h.step hv) hx

theorem WellFormed.updateAt? (hc : ∀ t : Tree, t.WellFormed → (change t).WellFormed) (h : j.WellFormed)
    (hj : j.updateAt? change p = some j') : j'.WellFormed := by
  induction p generalizing j j' with
  | nil =>
    cases j with
    | object members => cases hj; exact hc members h
    | _ => cases hj
  | cons s p ih =>
    obtain ⟨v, w, hv, hw, rfl⟩ := updateAt?_cons_eq_some hj
    exact h.put (ih (h.step hv) hw) s

end Json

namespace Tree

variable {p : Path} {t node : Tree}

theorem nodeAt?_eq_some_iff : nodeAt? p t = some node ↔ (Json.object t).at? p.segments = some (.object node) := by
  unfold nodeAt? atPath?
  constructor
  · intro h
    obtain ⟨x, hx, ho⟩ := Option.bind_eq_some_iff.1 h
    rw [hx, Json.eq_object_of_object? ho]
  · intro h
    rw [h]
    rfl

/-- what stands further down is looked up in what stands at the path -/
theorem atPath?_further (p : Path) (r : List Segment) (t : Tree) :
    atPath? ⟨p.segments ++ r⟩ t = (atPath? p t).bind (Json.at? r) :=
  Json.at?_append p.segments r (.object t)

/-- below a path that leads to an object, the object decides -/
theorem atPath?_append (h : nodeAt? p t = some node) (r : List Segment) :
    atPath? ⟨p.segments ++ r⟩ t = (Json.object node).at? r := by
  rw [atPath?_further, atPath?, nodeAt?_eq_some_iff.1 h, Option.bind_some]

theorem atPath?_key (h : nodeAt? p t = some node) (name : String) : atPath? (p.key name) t = get? name node := by
  rw [Path.key, atPath?_append h]
  simp [Json.at?]

end Tree

end ContactSync
