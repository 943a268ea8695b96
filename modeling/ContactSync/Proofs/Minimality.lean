/-
A difference says no more than it has to.

It is empty exactly when the two trees agree, whatever their keys (`Json.differences_eq_nil_iff`). With plain keys its
paths lie apart from each other, and each names a place where the two trees hold different values: the entry there is
the new value, or where there is none what clears the old one (`Json.realChange_of_mem_differences`).

- `Tracker.difference_minimal`: both, for the difference as a tracker.
-/
import ContactSync.Proofs.Overlays

namespace ContactSync

theorem Outline.eq_nil_iff_below {us : List (List String × Json)} (h : ∀ u ∈ us, u.1 ≠ []) :
    us = [] ↔ ∀ k, below k us = [] := by
  constructor
  · rintro rfl k
    rfl
  · intro hb
    by_contra hne
    obtain ⟨⟨p, v⟩, us, rfl⟩ := List.exists_cons_of_ne_nil hne
    cases p with
    | nil => exact h _ List.mem_cons_self rfl
    | cons k p =>
      have hmem : (p, v) ∈ below k ((k :: p, v) :: us) := mem_below.2 List.mem_cons_self
      rw [hb k] at hmem
      cases hmem

/-- a change of what stands at a place, where either value may be missing: the values differ, and the change gives the
new one, or when there is none the empty list for a list and null for anything else -/
structure RealChange (old new : Option Json) (value : Json) : Prop where
  differs : ¬Agree old new
  given : ∀ w, new = some w → value = w
  cleared : new = none → value = match old with
    | some (.list _) => .list []
    | _ => .null

namespace Tree

/-- writing leaves nothing only when nothing was there and nothing is written -/
theorem insertAll_eq_nil_iff {t : Tree} {pairs : List (String × Json)} :
    insertAll t pairs = [] ↔ t = [] ∧ pairs = [] := by
  induction pairs generalizing t with
  | nil => simp [insertAll]
  | cons e pairs ih =>
    have hkey : e.1 ∈ keys (insert e.1 e.2 t) := mem_keys_insert.2 (.inl rfl)
    have hne : insert e.1 e.2 t ≠ [] := by
      intro h
      rw [h] at hkey
      cases hkey
    refine iff_of_false (fun h => hne (ih.1 h).1) (by simp)

end Tree

namespace Json

open Outline (under)

/-- **There is nothing to change exactly when the values agree.** -/
theorem differences_eq_nil_iff {old new : Json} (ho : old.WellFormed) (hn : new.WellFormed) :
    differences old new = [] ↔ old.same new = true := by
  induction old, new using differencesInduction with
  | flat old new h =>
    rw [differences_flat h]
    split_ifs with hsame <;> simp [hsame]
  | object old new ih =>
    obtain ⟨hold, ho⟩ := wellFormed_object_iff.1 ho
    obtain ⟨hnew, hn⟩ := wellFormed_object_iff.1 hn
    rw [Outline.eq_nil_iff_below fun u => differences_ne_nil, same_object_iff hold hnew]
    apply forall_congr'
    intro k
    rw [below_differences hold hnew]
    -- a key of one side alone is a change: a clearing, or the leaves of a value, and every value has some
    cases hv : Tree.get? k old with
    | none =>
      cases hw : Tree.get? k new with
      | none => simp
      | some w => simp [grafts_ne_nil]
    | some v =>
      cases hw : Tree.get? k new with
      | none => simp
      | some w =>
        have hv := Tree.mem_of_get? hv
        rw [Option.rel_some_some]
        exact ih _ hv w (ho _ hv) (hn _ (Tree.mem_of_get? hw))

/-- the leaves of a value are what stands at their keys -/
theorem at?_of_mem_grafts {v : Json} (h : v.WellFormed) {u : List String × Json} (hu : u ∈ grafts v) :
    v.at? (u.1.map Segment.key) = some u.2 := by
  induction v using graftsInduction generalizing u with
  | leaf v hv =>
    rw [grafts_leaf hv, List.mem_singleton] at hu
    subst hu
    rfl
  | object members hm ih =>
    obtain ⟨hn, hw⟩ := wellFormed_object_iff.1 h
    obtain ⟨k, v, hk, w, hwv, rfl⟩ := mem_grafts_object hm hn hu
    have hmem := Tree.mem_of_get? hk
    rw [under, List.map_cons, at?, hk]
    exact ih _ hmem (hw _ hmem) hwv

/-- **Every change is a real one** at its keys. -/
theorem realChange_of_mem_differences {old new : Json} (ho : old.WellFormed) (hn : new.WellFormed)
    {u : List String × Json} (hu : u ∈ differences old new) :
    RealChange (old.at? (u.1.map Segment.key)) (new.at? (u.1.map Segment.key)) u.2 := by
  induction old, new using differencesInduction generalizing u with
  | flat old new h =>
    rw [differences_flat h] at hu
    split_ifs at hu with hsame
    · simp at hu
    · rw [List.mem_singleton] at hu
      subst hu
      refine ⟨by simpa [at?, Agree] using hsame, fun w hw => Option.some.inj hw, fun hnone => ?_⟩
      cases hnone
  | object old new ih =>
    obtain ⟨hold, ho⟩ := wellFormed_object_iff.1 ho
    obtain ⟨hnew, hn⟩ := wellFormed_object_iff.1 hn
    rcases mem_differences_object hold hnew hu with
      ⟨k, v, w, u', hv, hw, hu', rfl⟩ | ⟨k, v, hv, hw, rfl⟩ | ⟨k, w, u', hv, hw, hu', rfl⟩
    · have hv' := Tree.mem_of_get? hv
      rw [under, List.map_cons, at?, at?, hv, hw]
      exact ih _ hv' w (ho _ hv') (hn _ (Tree.mem_of_get? hw)) hu'
    · rw [List.map_singleton, at?, at?, hv, hw]
      refine ⟨by simp [at?, Agree], fun w hw => ?_, fun _ => ?_⟩
      · cases hw
      · cases v <;> rfl
    · have hw' := Tree.mem_of_get? hw
      have hat := at?_of_mem_grafts (hn _ hw') hu'
      rw [under, List.map_cons, at?, at?, hv, hw, Option.bind_none, Option.bind_some, hat]
      refine ⟨by simp [Agree], fun x hx => Option.some.inj hx, fun hnone => ?_⟩
      cases hnone

end Json

/-! ## The difference as a tracker -/

namespace Tracker

open Dotted (ofKeys isBelow)

variable {old new : Tree}

/-- a tracker of changes is empty when there are none, even where their paths are the same text -/
theorem isEmpty_difference (old new : Tree) :
    (difference old new).isEmpty = true ↔ (Json.object old).differences (.object new) = [] := by
  rw [isEmpty, List.isEmpty_iff, difference, Tree.ofPairs, Tree.insertAll_eq_nil_iff, Tree.changes, Json.changes_eq,
    List.map_eq_nil_iff]
  simp

/-- **A difference is as short as can be.** It is empty exactly when the two trees agree, whatever their keys. With
plain keys no path of it is another one, or lies below another one; and every entry names a place where the trees hold
different values, with the new value, or where there is none what clears the old one. -/
theorem difference_minimal (ho : old.WellFormed) (hn : new.WellFormed) :
    let d := difference old new
    (d.isEmpty = true ↔ old.same new = true) ∧
    (old.PlainKeys → new.PlainKeys →
      (d.entries.Pairwise fun e f => e.1 ≠ f.1 ∧ isBelow e.1 f.1 = false ∧ isBelow f.1 e.1 = false) ∧
      ∀ e ∈ d.entries, RealChange (old.getDotted? e.1) (new.getDotted? e.1) e.2) := by
  intro d
  refine ⟨(isEmpty_difference old new).trans (Json.differences_eq_nil_iff ho hn), ?_⟩
  intro po pn
  constructor
  · have hunique : (Tree.keys d.entries).Nodup := (sound_difference ho hn po pn).unique
    have hbelow := isBelow_difference ho hn po pn
    rw [Tree.keys, List.Nodup, List.pairwise_map] at hunique
    apply hunique.imp_of_mem
    intro e f he hf hne
    have he := Tree.mem_keys_of_mem he
    have hf := Tree.mem_keys_of_mem hf
    exact ⟨hne, hbelow e.1 he f.1 hf, hbelow f.1 hf e.1 he⟩
  · intro e he
    rw [entries_difference ho hn po pn] at he
    obtain ⟨u, hu, rfl⟩ := List.mem_map.1 he
    have hkeys : ∀ t : Tree, t.getDotted? (ofKeys u.1) = (Json.object t).at? (u.1.map Segment.key) := by
      intro t
      rw [Tree.getDotted?, Dotted.components_ofKeys (plainKeys_of_mem_differences ho hn po pn hu)]
      exact (Tree.atPath?_keys (Json.differences_ne_nil hu) t).symm
    rw [atKeys, hkeys, hkeys]
    exact Json.realChange_of_mem_differences ho hn hu

/-- a list and a value gone, a value that becomes an object, and a new object without members -/
theorem difference_minimal_retyped :
    let old : Tree := [("a", .object [("b", .list [.null]), ("c", .bool true)]), ("d", .null), ("e", .string "x")]
    let new : Tree := [("a", .object [("f", .object [("g", .object [])])]), ("d", .null), ("e", .object [("k", .null)])]
    let d := difference old new
    (old.WellFormed ∧ new.WellFormed ∧ old.PlainKeys ∧ new.PlainKeys) ∧
    d.entries = [("a.b", .list []), ("a.c", .null), ("a.f.g", .object []), ("e", .object [("k", .null)])] ∧
    (d.isEmpty = true ↔ old.same new = true) ∧
    (d.entries.Pairwise fun e f => e.1 ≠ f.1 ∧ isBelow e.1 f.1 = false ∧ isBelow f.1 e.1 = false) ∧
    ∀ e ∈ d.entries, RealChange (old.getDotted? e.1) (new.getDotted? e.1) e.2 := by
  intro old new d
  have ho : old.WellFormed := by decide
  have hn : new.WellFormed := by decide
  have po : old.PlainKeys := by decide
  have pn : new.PlainKeys := by decide
  obtain ⟨hempty, hplain⟩ := difference_minimal ho hn
  exact ⟨⟨ho, hn, po, pn⟩, rfl, hempty, hplain po pn⟩

end Tracker

end ContactSync
