/-
What a difference makes of the old tree.

The overlay of two trees says it without the changes: objects on both sides overlaid, what is new, and a cleared value
where something is gone (`get?_overlay`).
- `writeAll_differences`: the changes, written over the old value, give the overlay;
- `outline_merged_difference`: merging them as one nested tree gives the same, since every change puts a value that is
  no object where an old object stood;
- `resolve_difference_nil`: the changes that make a tree of nothing give that tree, its keys in order.
-/
import ContactSync.Proofs.Places
import ContactSync.Proofs.Updates
import Mathlib.Data.List.Pairwise

namespace ContactSync

/-! ## The overlay -/

namespace Json

theorem keys_memberOverlay (old new : Tree) : Tree.keys (memberOverlay old new) = Tree.keys old := by
  induction old with
  | nil => rfl
  | cons e old ih => rw [memberOverlay, Tree.keys_cons, Tree.keys_cons, ih]

theorem get?_memberOverlay (old new : Tree) (k : String) :
    Tree.get? k (memberOverlay old new) =
      (Tree.get? k old).map fun v => ((Tree.get? k new).map (overlay v)).getD v.cleared := by
  induction old with
  | nil => rfl
  | cons e old ih =>
    obtain ⟨k', v⟩ := e
    rw [memberOverlay, Tree.get?_cons, Tree.get?_cons]
    split_ifs with hk
    · subst hk
      cases Tree.get? k' new <;> rfl
    · exact ih

end Json

namespace Tree

theorem get?_filter_lacking (old new : Tree) (k : String) :
    get? k (new.filter fun e => !contains e.1 old) = if contains k old then none else get? k new := by
  induction new with
  | nil => simp
  | cons e new ih =>
    obtain ⟨k', v⟩ := e
    rw [List.filter_cons, get?_cons]
    by_cases hk : k' = k
    · subst hk
      cases hc : contains k' old <;> simp [hc, ih]
    · cases hc : contains k' old <;> simp [hk, ih]

/-- **What the overlay holds under a key.** -/
theorem get?_overlay (old new : Tree) (k : String) :
    get? k (old.overlay new) = match get? k old, get? k new with
      | some v, some w => some (v.overlay w)
      | some v, none => some v.cleared
      | none, w => w := by
  have hlook : get? k (old.overlay new) = get? k (Json.memberOverlay old new ++
      new.filter fun e => !contains e.1 old) := by
    rw [overlay, Json.overlay]; rfl
  rw [hlook, get?_append, Json.get?_memberOverlay, get?_filter_lacking, contains]
  cases get? k old <;> cases get? k new <;> rfl

theorem nodup_keys_overlay {old new : Tree} (ho : (keys old).Nodup) (hn : (keys new).Nodup) :
    (keys (old.overlay new)).Nodup := by
  have hkeys : keys (old.overlay new) = keys old ++ keys (new.filter fun e => !contains e.1 old) := by
    rw [overlay, Json.overlay, ← Json.keys_memberOverlay old new, keys, keys, keys, ← List.map_append]; rfl
  rw [hkeys, List.nodup_append]
  refine ⟨ho, (List.filter_sublist.map Prod.fst).nodup hn, ?_⟩
  rintro k hk _ hk' rfl
  obtain ⟨e, he, rfl⟩ := List.mem_map.1 hk'
  obtain ⟨v, hv⟩ := mem_keys_iff.1 hk
  simp [contains, hv] at he

end Tree

namespace Json

theorem overlay_object (old new : Tree) : (Json.object old).overlay (.object new) = .object (old.overlay new) := by
  rw [Tree.overlay, overlay]; rfl

/-- unless both values are objects, the new one takes the place of the old one -/
theorem overlay_flat {old new : Json} (h : old.object? = none ∨ new.object? = none) : old.overlay new = new := by
  cases old <;> cases new <;> simp_all [overlay, object?]

theorem WellFormed.overlay {old new : Json} (ho : old.WellFormed) (hn : new.WellFormed) :
    (old.overlay new).WellFormed := by
  induction old, new using differencesInduction with
  | flat old new h => rw [overlay_flat h]; exact hn
  | object old new ih =>
    obtain ⟨hold, ho⟩ := wellFormed_object_iff.1 ho
    obtain ⟨hnew, hn⟩ := wellFormed_object_iff.1 hn
    rw [overlay_object]
    refine wellFormed_object_iff.2 ⟨Tree.nodup_keys_overlay hold hnew, ?_⟩
    intro e he
    have hk := Tree.get?_of_mem (Tree.nodup_keys_overlay hold hnew) he
    rw [Tree.get?_overlay] at hk
    cases hv : Tree.get? e.1 old with
    | none =>
      rw [hv] at hk
      exact hn _ (Tree.mem_of_get? hk)
    | some v =>
      have hv' := Tree.mem_of_get? hv
      rw [hv] at hk
      cases hw : Tree.get? e.1 new with
      | none =>
        rw [hw] at hk
        exact Option.some.inj hk ▸ wellFormed_cleared v
      | some w =>
        rw [hw] at hk
        exact Option.some.inj hk ▸ ih _ hv' w (ho _ hv') (hn _ (Tree.mem_of_get? hw))

/-! ## Writing the changes -/

/-- **The changes from an old to a new value, written over the old one, give their overlay.** -/
theorem writeAll_differences {old new : Json} (ho : old.WellFormed) (hn : new.WellFormed) :
    (old.outline.writeAll (old.differences new)).Same (old.overlay new).outline := by
  induction old, new using differencesInduction with
  | flat old new h =>
    rw [differences_flat h, overlay_flat h]
    split_ifs with hsame
    · exact (same_iff_outline ho hn).1 hsame
    · rw [Outline.writeAll_cons, Outline.writeAll_nil, Outline.write_nil]
      exact (same_iff_outline hn hn).1 (same_refl hn)
  | object old new ih =>
    obtain ⟨hold, ho⟩ := wellFormed_object_iff.1 ho
    obtain ⟨hnew, hn⟩ := wellFormed_object_iff.1 hn
    intro q
    cases q with
    | nil =>
      rw [Outline.writeAll_apply_nil fun u => differences_ne_nil, overlay_object]
      split_ifs <;> trivial
    | cons k q =>
      have hbase : (fun r => (Json.object old).outline (k :: r)) = Outline.ofOption (Tree.get? k old) :=
        funext fun r => outline_object_cons old k r
      rw [Outline.writeAll_apply_cons fun u => differences_ne_nil, below_differences hold hnew, hbase, overlay_object,
        outline_object_cons, Tree.get?_overlay]
      cases hv : Tree.get? k old with
      | none =>
        cases hw : Tree.get? k new with
        | none => trivial
        | some w =>
          have hwf := hn _ (Tree.mem_of_get? hw)
          have hgrafts : Outline.writeAll (grafts w) (Outline.ofOption none) = w.outline :=
            writeAll_grafts hwf fun _ _ => rfl
          simp only [hgrafts]
          exact (same_iff_outline hwf hwf).1 (same_refl hwf) q
      | some v =>
        have hv' := Tree.mem_of_get? hv
        cases hw : Tree.get? k new with
        | none =>
          simp only [Outline.writeAll_cons, Outline.writeAll_nil, Outline.write_nil]
          exact (same_iff_outline (wellFormed_cleared v) (wellFormed_cleared v)).1 (same_refl (wellFormed_cleared v)) q
        | some w => exact ih _ hv' w (ho _ hv') (hn _ (Tree.mem_of_get? hw)) q

/-- where an old object stood, a change leaves none -/
theorem object?_of_mem_differences {old new : Json} (ho : old.WellFormed) (hn : new.WellFormed)
    {u : List String × Json} (hu : u ∈ differences old new) (hobj : old.outline u.1 = .object) :
    u.2.object? = none := by
  induction old, new using differencesInduction generalizing u with
  | flat old new h =>
    rw [differences_flat h] at hu
    split_ifs at hu
    · simp at hu
    · rw [List.mem_singleton] at hu
      subst hu
      obtain ⟨t, rfl⟩ := eq_object_of_outline hobj
      exact h.resolve_left (by simp [object?])
  | object old new ih =>
    obtain ⟨hold, ho⟩ := wellFormed_object_iff.1 ho
    obtain ⟨hnew, hn⟩ := wellFormed_object_iff.1 hn
    rcases mem_differences_object hold hnew hu with
      ⟨k, v, w, u', hv, hw, hu', rfl⟩ | ⟨k, v, hv, hw, rfl⟩ | ⟨k, w, u', hv, hw, hu', rfl⟩
    · have hv' := Tree.mem_of_get? hv
      rw [Outline.under, outline_object_cons, hv] at hobj
      have hval : u'.2.object? = none := ih _ hv' w (ho _ hv') (hn _ (Tree.mem_of_get? hw)) hu' hobj
      exact hval
    · cases v <;> rfl
    · rw [Outline.under, outline_object_cons, hv] at hobj
      cases hobj

end Json

/-! ## The difference as a tracker -/

/-- among writes apart from each other, each is what stands at its place in the end -/
theorem Outline.writeAll_apply_of_mem {us : List (List String × Json)} (h : us.Pairwise Apart)
    {u : List String × Json} (hu : u ∈ us) (o : Outline) (q : List String) :
    o.writeAll us (u.1 ++ q) = u.2.outline q := by
  obtain ⟨pre, post, rfl⟩ := List.append_of_mem hu
  have hpost : ∀ w ∈ post, ¬u.1 <+: w.1 ∧ ¬w.1 <+: u.1 :=
    (List.pairwise_cons.1 (List.pairwise_append.1 h).2.1).1
  rw [writeAll_append, writeAll_cons, ← writeAll_comm hpost, write_at]

namespace Tracker

open Dotted (ofKeys isBelow)

variable {old new : Tree}

/-- no change of a difference lies below another -/
theorem isBelow_difference (ho : old.WellFormed) (hn : new.WellFormed) (po : old.PlainKeys) (pn : new.PlainKeys) :
    ∀ a ∈ Tree.keys (difference old new).entries, ∀ b ∈ Tree.keys (difference old new).entries,
      isBelow a b = false := by
  have hplain := fun u hu => @plainKeys_of_mem_differences old new ho hn po pn u hu
  have hkeys : Tree.keys (difference old new).entries =
      ((Json.object old).differences (.object new)).map fun u => ofKeys u.1 := by
    rw [entries_difference ho hn po pn, Tree.keys, List.map_map]; rfl
  rw [hkeys]
  intro a ha b hb
  obtain ⟨u, hu, rfl⟩ := List.mem_map.1 ha
  obtain ⟨w, hw, rfl⟩ := List.mem_map.1 hb
  by_contra hbelow
  rw [Bool.not_eq_false, Dotted.isBelow_ofKeys (hplain u hu) (hplain w hw) (Json.differences_ne_nil hu)] at hbelow
  have hne : u ≠ w := fun he => hbelow.2 (congrArg Prod.fst he)
  exact ((Json.pairwise_differences ho hn).forall hu hw hne).1 hbelow.1

theorem sound_difference (ho : old.WellFormed) (hn : new.WellFormed) (po : old.PlainKeys) (pn : new.PlainKeys) :
    Sound (difference old new) := by
  have hbelow := isBelow_difference ho hn po pn
  refine ⟨⟨Tree.nodup_keys_insertAll (by simp) _, List.pairwise_of_forall_mem_list fun a ha b hb => hbelow b hb a ha,
    fun e he _ _ k hk => hbelow e.1 (Tree.mem_keys_of_mem he) k hk⟩, ?_, ?_⟩ <;>
    rw [entries_difference ho hn po pn] <;> intro e he <;> obtain ⟨u, hu, rfl⟩ := List.mem_map.1 he
  · exact Dotted.plain_ofKeys (plainKeys_of_mem_differences ho hn po pn hu) (Json.differences_ne_nil hu)
  · exact (Json.of_mem_differences ho hn hu).1

theorem writes_difference (ho : old.WellFormed) (hn : new.WellFormed) (po : old.PlainKeys) (pn : new.PlainKeys) :
    (difference old new).writes = (Json.object old).differences (.object new) := by
  rw [writes, entries_difference ho hn po pn]
  exact Record.components_atKeys fun u hu => plainKeys_of_mem_differences ho hn po pn hu

/-- the difference, replayed over the old tree, writes its changes there -/
theorem outline_replay_difference (ho : old.WellFormed) (hn : new.WellFormed) (po : old.PlainKeys)
    (pn : new.PlainKeys) : ((difference old new).replay old).outline =
      old.outline.writeAll ((Json.object old).differences (.object new)) := by
  rw [outline_replay (sound_difference ho hn po pn), writes_difference ho hn po pn]

/-- **Merging a difference as one nested tree into the old tree is replaying it there.** -/
theorem outline_merged_difference (ho : old.WellFormed) (hn : new.WellFormed) (po : old.PlainKeys)
    (pn : new.PlainKeys) :
    (old.merged (difference old new).resolve).outline = ((difference old new).replay old).outline := by
  have hsound := sound_difference ho hn po pn
  funext q
  rcases outline_merged_resolve hsound ho q with hm | ⟨hs, -, ht, hm⟩
  · exact hm
  rw [hm, ht]
  by_contra hthere
  -- what the replay has lost went with a change above it, where an object stood, and that change is a value
  have hgone := ht
  rw [outline_replay_difference ho hn po pn] at hgone
  rcases Outline.nothing_writeAll hgone with hno | ⟨u, hu, huq, hne, -⟩
  · exact hthere hno
  have hobj : old.outline u.1 = .object := ho.regular.object_above hthere huq hne
  have hvalue : (difference old new).resolve.outline u.1 = .leaf u.2 := by
    have hat := Outline.writeAll_apply_of_mem (Json.pairwise_differences ho hn) hu (Tree.outline []) []
    rw [List.append_nil, ← writes_difference ho hn po pn, ← outline_resolve hsound] at hat
    rw [hat]
    exact Json.outline_nil (Json.object?_of_mem_differences ho hn hu hobj)
  exact hs u.1 huq u.2 hvalue

end Tracker

/-! ## A tree made of nothing -/

namespace Tree

open Json (grafts memberGrafts)
open Outline (under)

/-- writes at rows of keys, one after another -/
def setAllAt (t : Tree) (us : List (List String × Json)) : Tree :=
  us.foldl (fun t u => setAt u.1 u.2 t) t

@[simp] theorem setAllAt_nil (t : Tree) : t.setAllAt [] = t := rfl

@[simp] theorem setAllAt_cons (t : Tree) (u : List String × Json) (us : List (List String × Json)) :
    t.setAllAt (u :: us) = (setAt u.1 u.2 t).setAllAt us := rfl

theorem setAllAt_append (t : Tree) (us ws : List (List String × Json)) :
    t.setAllAt (us ++ ws) = (t.setAllAt us).setAllAt ws := List.foldl_append

/-- dotted writes are writes at their components -/
theorem setAllDotted_eq (t : Tree) (writes : List (String × Json)) :
    setAllDotted t writes = t.setAllAt (writes.map fun w => (Dotted.components w.1, w.2)) := by
  rw [setAllDotted, setAllAt, List.foldl_map]
  rfl

theorem setAllAt_under {pre : Tree} {k : String} (hk : k ∉ keys pre) (t : Tree) {us : List (List String × Json)}
    (h : ∀ u ∈ us, u.1 ≠ []) :
    setAllAt (pre ++ [(k, .object t)]) (us.map (under k)) = pre ++ [(k, .object (t.setAllAt us))] := by
  induction us generalizing t with
  | nil => rfl
  | cons u us ih =>
    have hchild : childOrEmpty k (pre ++ [(k, .object t)]) = t := by
      rw [childOrEmpty, get?_append, get?_eq_none_iff.2 hk]
      simp
    rw [List.map_cons, setAllAt_cons, setAllAt_cons, under, setAt_cons (h u List.mem_cons_self), hchild,
      insert_append_cons hk]
    exact ih _ fun u hu => h u (List.mem_cons_of_mem _ hu)

/-- the leaves of members, each written in turn after others, add the members in order -/
theorem setAllAt_memberGrafts {members : Tree}
    (ih : ∀ e ∈ members, ∀ (pre : Tree) (k : String), k ∉ keys pre →
      pre.setAllAt ((grafts e.2).map (under k)) = pre ++ [(k, e.2)])
    {pre : Tree} (hn : (keys (pre ++ members)).Nodup) : pre.setAllAt (memberGrafts members) = pre ++ members := by
  induction members generalizing pre with
  | nil => simp [memberGrafts]
  | cons e members ih' =>
    obtain ⟨k, v⟩ := e
    rw [List.forall_mem_cons] at ih
    have hk : k ∉ keys pre := by
      rw [keys, List.map_append, List.nodup_append] at hn
      exact fun hk => hn.2.2 k hk k List.mem_cons_self rfl
    have happ : pre ++ (k, v) :: members = (pre ++ [(k, v)]) ++ members := by simp
    rw [memberGrafts, setAllAt_append, ih.1 pre k hk, happ]
    rw [happ] at hn
    exact ih' ih.2 hn

/-- the leaves of a value below a new key, each written in turn, put the value there -/
theorem setAllAt_grafts {v : Json} (h : v.WellFormed) {pre : Tree} {k : String} (hk : k ∉ keys pre) :
    pre.setAllAt ((grafts v).map (under k)) = pre ++ [(k, v)] := by
  induction v using Json.graftsInduction generalizing pre k with
  | leaf v hv =>
    rw [Json.grafts_leaf hv]
    exact insert_of_notMem hk
  | object members hm ih =>
    obtain ⟨hn, hw⟩ := Json.wellFormed_object_iff.1 h
    have hmembers : setAllAt [] (memberGrafts members) = [] ++ members :=
      setAllAt_memberGrafts (fun e he pre k hk => ih e he (hw e he) hk) hn
    have hne := Json.grafts_ne_nil (Json.object members)
    rw [Json.grafts_object hm] at hne ⊢
    have hpaths : ∀ u ∈ memberGrafts members, u.1 ≠ [] := fun u => Json.memberGrafts_ne_nil
    obtain ⟨u, us, hus⟩ := List.exists_cons_of_ne_nil hne
    rw [hus] at hmembers hpaths ⊢
    -- the first write makes the object that the others go into
    have hchild : childOrEmpty k pre = [] := by rw [childOrEmpty, get?_eq_none_iff.2 hk]
    have hfirst : setAt (k :: u.1) u.2 pre = pre ++ [(k, .object (setAt u.1 u.2 []))] := by
      rw [setAt_cons (hpaths u List.mem_cons_self), hchild, insert_of_notMem hk]
    calc
      _ = (setAt (k :: u.1) u.2 pre).setAllAt (us.map (under k)) := rfl
      _ = pre ++ [(k, .object ((setAt u.1 u.2 []).setAllAt us))] := by
        rw [hfirst, setAllAt_under hk _ fun u hu => hpaths u (List.mem_cons_of_mem _ hu)]
      _ = pre ++ [(k, .object members)] := by rw [← setAllAt_cons, hmembers, List.nil_append]

end Tree

namespace Json

/-- where there is no old member, the changes are the leaves of the new ones -/
theorem differences_nil (new : Tree) : differences (.object []) (.object new) = memberGrafts new := by
  rw [differences, memberDifferences, List.nil_append]
  induction new with
  | nil => rfl
  | cons e new ih =>
    obtain ⟨k, v⟩ := e
    rw [List.flatMap_cons, ih, memberGrafts]
    rfl

end Json

namespace Tracker

/-- **The changes that make a tree of nothing give that tree**, its keys in order. -/
theorem resolve_difference_nil {new : Tree} (hn : new.WellFormed) (pn : new.PlainKeys) :
    (difference [] new).resolve = new := by
  have hempty : Tree.PlainKeys [] := by decide
  have hwrites := writes_difference Tree.wellFormed_nil hn hempty pn
  calc
    _ = Tree.setAllAt [] (difference [] new).writes := Tree.setAllDotted_eq _ _
    _ = Tree.setAllAt [] (Json.memberGrafts new) := by rw [hwrites, Json.differences_nil]
    _ = [] ++ new := Tree.setAllAt_memberGrafts (fun e he pre k hk =>
        Tree.setAllAt_grafts ((Tree.wellFormed_iff.1 hn).2 e he) hk) (Tree.wellFormed_iff.1 hn).1
    _ = new := List.nil_append _

/-- **A difference turns the old tree into the new one.** Replayed over the old tree, and merged into it as one nested
tree, it gives the overlay of the two, and so the new one once empty parts are gone; made of nothing, it gives the new
tree itself. -/
theorem replay_difference {old new : Tree} (ho : old.WellFormed) (hn : new.WellFormed) (po : old.PlainKeys)
    (pn : new.PlainKeys) :
    let d := difference old new
    ((d.replay old).same (old.overlay new) = true ∧ (old.merged d.resolve).same (old.overlay new) = true) ∧
    ((d.replay old).stripped.same new.stripped = true ∧ (old.merged d.resolve).stripped.same new.stripped = true) ∧
    (difference [] new).resolve = new := by
  intro d
  have hsound : Sound d := sound_difference ho hn po pn
  have hreplayed : (d.replay old).WellFormed := wellFormed_replay hsound ho
  have hmerged : (old.merged d.resolve).WellFormed := (wellFormed_replay hsound Tree.wellFormed_nil).merged ho
  have hoverlay : (old.overlay new).WellFormed := by
    have h : ((Json.object old).overlay (.object new)).WellFormed := Json.WellFormed.overlay ho hn
    rwa [Json.overlay_object] at h
  let changes := (Json.object old).differences (.object new)
  have hout : (d.replay old).outline = old.outline.writeAll changes := outline_replay_difference ho hn po pn
  have hsame : (d.replay old).outline.Same (old.overlay new).outline := by
    have h : (old.outline.writeAll changes).Same ((Json.object old).overlay (.object new)).outline :=
      Json.writeAll_differences ho hn
    rw [Json.overlay_object] at h
    rw [hout]
    exact h
  have hshows : (d.replay old).outline.Shows new.outline := by
    have hrefl : old.outline.Shows old.outline := Outline.shows_refl ho.regular
    rw [hout]
    exact hrefl.differences ho hn ho.regular
  have hboth : (old.merged d.resolve).outline = (d.replay old).outline := outline_merged_difference ho hn po pn
  refine ⟨⟨?_, ?_⟩, ⟨?_, ?_⟩, resolve_difference_nil hn pn⟩
  · exact (Tree.same_iff_outline hreplayed hoverlay).2 hsame
  · exact (Tree.same_iff_outline hmerged hoverlay).2 (hboth ▸ hsame)
  · exact Tree.stripped_same_of_shows hreplayed hn hshows
  · exact Tree.stripped_same_of_shows hmerged hn (hboth ▸ hshows)

/-- a list and an object gone, a value that becomes an object, an object that becomes a list, and a new object -/
theorem replay_difference_retyped :
    let old : Tree := [("a", .object [("b", .list [.null]), ("c", .object [("d", .bool true)])]), ("e", .string "x"),
      ("f", .object [("g", .null)])]
    let new : Tree := [("f", .list []), ("a", .object [("h", .object [("i", .object []), ("j", .bool false)])]),
      ("e", .object [("k", .null)])]
    let d := difference old new
    old.overlay new = [("a", .object [("b", .list []), ("c", .null),
        ("h", .object [("i", .object []), ("j", .bool false)])]), ("e", .object [("k", .null)]), ("f", .list [])] ∧
    ((d.replay old).same (old.overlay new) = true ∧ (old.merged d.resolve).same (old.overlay new) = true) ∧
    ((d.replay old).stripped.same new.stripped = true ∧ (old.merged d.resolve).stripped.same new.stripped = true) ∧
    (difference [] new).resolve = new :=
  ⟨rfl, replay_difference (by decide) (by decide) (by decide) (by decide)⟩

end Tracker

end ContactSync
