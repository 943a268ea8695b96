/-
Marks of what was removed.

Where a value was removed, a replay keeps a mark, null or an empty list. One outline shows another when it holds the
same everywhere, marks aside (`Outline.Shows`). Writes keep this (`Shows.write`), and the changes that make a new value
of an old one turn what shows the old one into what shows the new one, whatever marks it has (`Shows.differences`). Once
empty parts are gone, an outline agrees with what it shows (`stripped_same_of_shows`).
-/
import ContactSync.Proofs.Differences
import ContactSync.Proofs.Stripped

namespace ContactSync

/-! ## Showing -/

/-- what a removed value leaves -/
def Json.IsMark (x : Json) : Prop := x = .null ∨ x = .list []

/-- the same, or a mark where nothing is -/
def Spot.Shows : Spot → Spot → Prop
  | .object, .object => True
  | .leaf x, .leaf y => x.same y = true
  | .leaf x, .nothing => x.IsMark
  | .nothing, .nothing => True
  | _, _ => False

/-- one outline holds the same as another, marks aside -/
def Outline.Shows (o o' : Outline) : Prop := ∀ q, (o q).Shows (o' q)

/-- nothing stands below a place without an object, and all values are well formed: as in a tree -/
structure Outline.Regular (o : Outline) : Prop where
  ends : ∀ q, o q ≠ .object → ∀ r, r ≠ [] → o (q ++ r) = .nothing
  values : ∀ q x, o q = .leaf x → x.WellFormed

theorem Json.WellFormed.regular {j : Json} (h : j.WellFormed) : j.outline.Regular := by
  constructor
  · intro q hq r hr
    induction q generalizing j with
    | nil =>
      cases r with
      | nil => exact absurd rfl hr
      | cons k r => cases j <;> simp_all [outline]
    | cons k q ih =>
      cases j with
      | object members =>
        rw [List.cons_append, outline_object_cons]
        rw [outline_object_cons] at hq
        cases hk : Tree.get? k members with
        | none => rfl
        | some v =>
          rw [hk] at hq
          exact ih (Tree.WellFormed.get? h hk) hq
      | _ => rfl
  · intro q x hq
    induction q generalizing j with
    | nil => exact (eq_of_outline hq).1 ▸ h
    | cons k q ih =>
      cases j with
      | object members =>
        rw [outline_object_cons] at hq
        cases hk : Tree.get? k members with
        | none => rw [hk] at hq; cases hq
        | some v =>
          rw [hk] at hq
          exact ih (Tree.WellFormed.get? h hk) hq
      | _ => cases hq

theorem Tree.WellFormed.regular {t : Tree} (h : t.WellFormed) : t.outline.Regular := Json.WellFormed.regular h

namespace Outline

variable {o o' : Outline}

theorem Regular.under (h : o.Regular) (p : List String) : Regular fun q => o (p ++ q) := by
  refine ⟨?_, fun q x hx => h.values _ x hx⟩
  intro q hq r hr
  have := h.ends (p ++ q) hq r hr
  rwa [List.append_assoc] at this

/-- objects stand above everything -/
theorem Regular.object_above (h : o.Regular) {p q : List String} (hp : o p ≠ .nothing) (hqp : q <+: p) (hne : q ≠ p) :
    o q = .object := by
  by_contra hq
  obtain ⟨r, rfl⟩ := hqp
  exact hp (h.ends q hq r fun hr => hne (by rw [hr, List.append_nil]))

theorem shows_refl (h : o.Regular) : o.Shows o := by
  intro q
  cases hq : o q with
  | leaf x => exact Json.same_refl (h.values q x hq)
  | _ => trivial

/-- what shows nothing is a mark or nothing, and has nothing below it -/
theorem Shows.eq_nothing (h : o.Shows o') (hr : o.Regular) {q : List String} (hq : o' q = .nothing) {r : List String}
    (hne : r ≠ []) : o (q ++ r) = .nothing := by
  refine hr.ends q ?_ r hne
  intro ho
  have := h q
  rw [ho, hq] at this
  exact this

theorem Shows.object_iff (h : o.Shows o') (q : List String) : o q = .object ↔ o' q = .object := by
  have := h q
  cases ho : o q <;> cases ho' : o' q <;> simp_all [Spot.Shows]

/-- **A write keeps what is shown.** -/
theorem Shows.write (h : o.Shows o') {v : Json} (hv : v.WellFormed) (p : List String) :
    (o.write p v).Shows (o'.write p v) := by
  intro q
  unfold Outline.write
  split_ifs
  · exact shows_refl hv.regular _
  · trivial
  · exact h q

/-! ## Changes over marks -/

theorem Shows.differences_flat {old new : Json} (h : o.Shows old.outline) (ho : old.WellFormed) (hn : new.WellFormed)
    (hr : o.Regular) (hflat : old.object? = none ∨ new.object? = none) :
    (o.writeAll (old.differences new)).Shows new.outline := by
  rw [Json.differences_flat hflat]
  split_ifs with hsame
  · have hobj := Json.object?_of_same hsame
    obtain ⟨hold, hnew⟩ : old.object? = none ∧ new.object? = none := by
      rcases hflat with hf | hf <;> simp_all
    intro q
    have hq := h q
    cases q with
    | nil =>
      rw [Json.outline_nil hold] at hq
      rw [writeAll_nil, Json.outline_nil hnew]
      cases hx : o [] with
      | leaf x =>
        rw [hx] at hq
        exact Json.same_trans (hr.values _ x hx) ho hn hq hsame
      | _ => rw [hx] at hq; exact hq
    | cons k q =>
      rw [Json.outline_cons hold] at hq
      rwa [Json.outline_cons hnew]
  · rw [writeAll_cons, writeAll_nil, write_nil]
    exact shows_refl hn.regular

/-- **The changes from an old to a new value, over what shows the old one, show the new one.** -/
theorem Shows.differences {old new : Json} (h : o.Shows old.outline) (ho : old.WellFormed) (hn : new.WellFormed)
    (hr : o.Regular) : (o.writeAll (old.differences new)).Shows new.outline := by
  induction old, new using Json.differencesInduction generalizing o with
  | flat old new hflat => exact h.differences_flat ho hn hr hflat
  | object old new ih =>
    have hold := Json.wellFormed_object_iff.1 ho
    have hnew := Json.wellFormed_object_iff.1 hn
    intro q
    cases q with
    | nil =>
      have h0 : o [] = .object := (h.object_iff []).2 rfl
      rw [writeAll_apply_nil fun u => Json.differences_ne_nil, h0]
      split_ifs <;> trivial
    | cons k q =>
      rw [writeAll_apply_cons fun u => Json.differences_ne_nil, Json.below_differences hold.1 hnew.1,
        Json.outline_object_cons]
      have hk : Shows (fun q => o (k :: q)) (ofOption (Tree.get? k old)) := fun q => by
        have := h (k :: q)
        rwa [Json.outline_object_cons] at this
      have hrk : Regular fun q => o (k :: q) := hr.under [k]
      cases hv : Tree.get? k old with
      | none =>
        rw [hv] at hk
        cases hw : Tree.get? k new with
        | none => exact hk q
        | some w =>
          -- at most a mark stands there, and the new value takes its place
          have hwf := hnew.2 _ (Tree.mem_of_get? hw)
          have hfree : ∀ r, r ≠ [] → o (k :: r) = .nothing := fun r hr => hk.eq_nothing hrk (q := []) rfl hr
          have hgrafts := Json.writeAll_grafts hwf hfree
          simp only [hgrafts]
          exact shows_refl hwf.regular q
      | some v =>
        have hv' := Tree.mem_of_get? hv
        rw [hv] at hk
        cases hw : Tree.get? k new with
        | none =>
          rw [writeAll_cons, writeAll_nil, write_nil]
          cases q with
          | nil => cases v <;> simp [Json.cleared, Json.outline, ofOption, Spot.Shows, Json.IsMark]
          | cons k' q => rw [Json.outline_cons (by cases v <;> rfl)]; trivial
        | some w => exact ih _ hv' w hk (hold.2 _ hv') (hnew.2 _ (Tree.mem_of_get? hw)) hrk q

theorem writeAll_outside {us : List (List String × Json)} {p q : List String} (hus : ∀ u ∈ us, p <+: u.1)
    (ho : ∀ q, q <+: p → ¬p <+: q → o q = .object) (hq : ¬p <+: q) : o.writeAll us q = o q := by
  induction us generalizing o with
  | nil => rfl
  | cons u us ih =>
    have hu := hus u List.mem_cons_self
    have hw : ∀ q, ¬p <+: q → o.write u.1 u.2 q = o q := by
      intro q hq
      have hnu : ¬u.1 <+: q := fun h => hq (hu.trans h)
      by_cases hqu : q <+: u.1
      · rw [write_on hnu hqu]
        rcases List.prefix_or_prefix_of_prefix hqu hu with h | h
        exacts [(ho q h hq).symm, absurd h hq]
      · exact write_off hnu hqu
    rw [writeAll_cons, ih (fun u hu => hus u (List.mem_cons_of_mem _ hu)) fun q hqp hq => ?_, hw q hq]
    rw [hw q hq, ho q hqp hq]

/-- **The changes from an old to a new object at a place**, over what shows the whole, show the whole with the new
object written there. -/
theorem Shows.differences_at {old new : Tree} {p : List String} (h : o.Shows o') (hr : o.Regular) (hr' : o'.Regular)
    (ho : old.WellFormed) (hn : new.WellFormed) (hold : ∀ q, o' (p ++ q) = old.outline q) :
    (o.writeAll (((Json.object old).differences (.object new)).map fun u => (p ++ u.1, u.2))).Shows
      (o'.write p (.object new)) := by
  have hp : o' p = .object := by simpa using hold []
  have habove : ∀ q, q <+: p → ¬p <+: q → o q = .object := fun q hqp hq =>
    (h.object_iff q).2 (hr'.object_above (by simp [hp]) hqp fun he => hq (he ▸ List.prefix_refl _))
  intro q
  by_cases hq : p <+: q
  · obtain ⟨r, rfl⟩ := hq
    rw [writeAll_below, write_at]
    have hin : Shows (fun r => o (p ++ r)) (Json.object old).outline := fun r => by
      have := h (p ++ r)
      rwa [hold] at this
    exact hin.differences ho hn (hr.under p) r
  · have hus : ∀ u ∈ ((Json.object old).differences (.object new)).map fun u => (p ++ u.1, u.2), p <+: u.1 := by
      rintro _ hu
      obtain ⟨u, -, rfl⟩ := List.mem_map.1 hu
      exact List.prefix_append p u.1
    rw [writeAll_outside hus habove hq]
    by_cases hqp : q <+: p
    · rw [write_on hq hqp, habove q hqp hq]; trivial
    · rw [write_off hq hqp]
      exact h q

end Outline

/-! ## Once empty parts are gone -/

theorem Json.IsMark.stripped? {x : Json} (h : x.IsMark) : x.stripped? = none := by
  rcases h with rfl | rfl <;> rfl

/-- the strip keeps the same of what shows and of what is shown -/
theorem Outline.Shows.kept {o o' : Outline} (h : o.Shows o') (hr : o.Regular) (hr' : o'.Regular) (q : List String) :
    Agree (o q).kept (o' q).kept := by
  have hq := h q
  cases ho : o q <;> cases ho' : o' q <;> rw [ho, ho'] at hq <;> simp only [Spot.Shows] at hq
  · exact .none
  · exact .none
  · rw [Spot.kept, hq.stripped?]; exact .none
  · exact Json.agree_stripped?_of_same (hr.values q _ ho) (hr'.values q _ ho') hq

/-- **A tree that shows another agrees with it once empty parts are gone.** -/
theorem Tree.stripped_same_of_shows {t u : Tree} (ht : t.WellFormed) (hu : u.WellFormed)
    (h : t.outline.Shows u.outline) : t.stripped.same u.stripped = true :=
  (Tree.stripped_same_iff ht hu).2 fun q => h.kept ht.regular hu.regular q

end ContactSync
