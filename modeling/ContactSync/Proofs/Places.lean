/-
Equality of values, place by place.

Two values agree exactly when they hold the same at every row of keys (`Json.same_iff_outline`): an object where the
other has one, values that agree, or nothing on both sides. So trees with one outline agree (`Tree.same_of_outline`),
and equalities of outlines, where the laws of writing are short, give equalities of trees.
-/
import ContactSync.Proofs.Agreement
import ContactSync.Proofs.Outline

namespace ContactSync

/-- the same, up to equality of values -/
def Spot.Same : Spot → Spot → Prop
  | .object, .object => True
  | .leaf x, .leaf y => x.same y = true
  | .nothing, .nothing => True
  | _, _ => False

/-- one outline holds the same as another at every place -/
def Outline.Same (o o' : Outline) : Prop := ∀ q, (o q).Same (o' q)

namespace Json

/-- without objects on the left, the whole value decides -/
theorem same_iff_outline_flat {v : Json} (hv : v.object? = none) (w : Json) :
    v.same w = true ↔ v.outline.Same w.outline := by
  cases hw : w.object? with
  | some b =>
    obtain rfl := eq_object_of_object? hw
    have hno : v.same (.object b) = false := by cases v <;> simp_all [same, object?]
    refine iff_of_false (by simp [hno]) ?_
    intro hq
    have h0 := hq []
    rw [outline_nil hv] at h0
    exact h0
  | none =>
    constructor
    · intro h q
      cases q with
      | nil => rw [outline_nil hv, outline_nil hw]; exact h
      | cons k q => rw [outline_cons hv, outline_cons hw]; trivial
    · intro hq
      have h0 := hq []
      rwa [outline_nil hv, outline_nil hw] at h0

/-- values that may not be there, of which those that are there are compared place by place -/
theorem rel_iff_ofOption {x y : Option Json}
    (h : ∀ v w, x = some v → y = some w → (v.same w = true ↔ v.outline.Same w.outline)) :
    Option.Rel (fun v w => v.same w = true) x y ↔ (Outline.ofOption x).Same (Outline.ofOption y) := by
  -- a value stands at its own place, so nothing there is no value
  cases x with
  | none =>
    cases y with
    | none => simp [Outline.Same, Outline.ofOption, Spot.Same]
    | some w =>
      refine iff_of_false (by simp) ?_
      intro hq
      cases w <;> exact hq []
  | some v =>
    cases y with
    | none =>
      refine iff_of_false (by simp) ?_
      intro hq
      cases v <;> exact hq []
    | some w => rw [Option.rel_some_some]; exact h v w rfl rfl

/-- **Values agree when they hold the same at every place.** -/
theorem same_iff_outline {v w : Json} (hv : v.WellFormed) (hw : w.WellFormed) :
    v.same w = true ↔ v.outline.Same w.outline := by
  induction v using valueInduction generalizing w with
  | scalar v hl ho => exact same_iff_outline_flat ho w
  | list items _ => exact same_iff_outline_flat rfl w
  | object a ih =>
    cases hwo : w.object? with
    | none =>
      have hno : (Json.object a).same w = false := by cases w <;> simp_all [same, object?]
      refine iff_of_false (by simp [hno]) ?_
      intro hq
      have h0 := hq []
      rw [outline_nil hwo] at h0
      exact h0
    | some b =>
      obtain rfl := eq_object_of_object? hwo
      obtain ⟨hna, ha⟩ := wellFormed_object_iff.1 hv
      obtain ⟨hnb, hb⟩ := wellFormed_object_iff.1 hw
      have hkey : ∀ k, Option.Rel (fun v w => v.same w = true) (Tree.get? k a) (Tree.get? k b) ↔
          (Outline.ofOption (Tree.get? k a)).Same (Outline.ofOption (Tree.get? k b)) := fun k =>
        rel_iff_ofOption fun x y hx hy =>
          ih _ (Tree.mem_of_get? hx) (ha _ (Tree.mem_of_get? hx)) (hb _ (Tree.mem_of_get? hy))
      rw [same_object_iff hna hnb]
      simp only [hkey]
      constructor
      · intro h q
        cases q with
        | nil => trivial
        | cons k q =>
          rw [outline_object_cons, outline_object_cons]
          exact h k q
      · intro h k q
        have hq := h (k :: q)
        rwa [outline_object_cons, outline_object_cons] at hq

end Json

namespace Tree

theorem same_iff_outline {t u : Tree} (ht : t.WellFormed) (hu : u.WellFormed) :
    t.same u = true ↔ t.outline.Same u.outline :=
  Json.same_iff_outline ht hu

/-- **Trees with one outline agree.** -/
theorem same_of_outline {t u : Tree} (ht : t.WellFormed) (hu : u.WellFormed) (h : t.outline = u.outline) :
    t.same u = true := by
  rw [same_iff_outline ht hu, ← h, ← same_iff_outline ht ht]
  exact Json.same_refl ht

end Tree

end ContactSync
