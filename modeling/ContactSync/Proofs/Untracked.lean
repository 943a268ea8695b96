/-
Untracked writes.

An untracked write changes the attributes and the state that the other side knows by the same write, so what is pending
stands over a new snapshot. Two things can keep it truthful: the write is recorded over entries that cover its place
(`outline_replay_refresh`), or no entry lies above its place, and the entries leave it alone. Otherwise an entry without
an object lies above, and its replay undoes the write (`outline_replay_undone`).
- `stripped_replay_setUntracked`: in this last case, and no other, what is pending contradicts the attributes, unless
  the write changes nothing but empty parts.
-/
import ContactSync.Proofs.Updates

namespace ContactSync

/-! ## A write below other writes -/

namespace Outline

/-- a write made again after others need not have been made before them -/
theorem write_writeAll_write (o : Outline) (p : List String) (v w : Json) (us : List (List String × Json)) :
    ((o.write p w).writeAll us).write p v = (o.writeAll us).write p v :=
  write_congr ((agreeOff_write p w o).writeAll us)

/-- a write above a place undoes what was written there before the others -/
theorem writeAll_write_of_above {us : List (List String × Json)} {p : List String} (h : ∃ u ∈ us, u.1 <+: p)
    (o : Outline) (v : Json) : (o.write p v).writeAll us = o.writeAll us := by
  obtain ⟨u, hu, hup⟩ := h
  obtain ⟨pre, post, rfl⟩ := List.append_of_mem hu
  have hpre : AgreeOff u.1 ((o.write p v).writeAll pre) (o.writeAll pre) :=
    ((agreeOff_write p v o).writeAll pre).above hup
  calc
    _ = (((o.write p v).writeAll pre).write u.1 u.2).writeAll post := by rw [writeAll_append, writeAll_cons]
    _ = ((o.writeAll pre).write u.1 u.2).writeAll post := by rw [write_congr hpre]
    _ = _ := by rw [writeAll_append, writeAll_cons]

end Outline

/-! ## What is pending over the new snapshot -/

namespace Tracker

open Dotted (isBelow components Plain)

variable {t : Tracker} {path : String} {value : Json} {base : Tree}

theorem outline_setDotted (hp : Plain path) (value : Json) (base : Tree) :
    (Tree.setDotted path value base).outline = base.outline.write (components path) value :=
  Tree.outline_setAt hp.1 value base

/-- a recorded write, over the snapshot that has it already, is the write after the replay -/
theorem outline_replay_refresh (h : Sound t) (hp : Plain path) (hv : value.WellFormed)
    (hcov : t.entries.any (covers path) = true) :
    ((t.refresh path value).replay (Tree.setDotted path value base)).outline =
      (t.replay base).outline.write (components path) value := by
  unfold refresh
  rw [if_pos hcov]
  calc
    _ = (t.replay (Tree.setDotted path value base)).outline.write (components path) value :=
      outline_replay_record h hp hv _
    _ = ((base.outline.write (components path) value).writeAll t.writes).write (components path) value := by
      rw [outline_replay h, outline_setDotted hp]
    _ = (base.outline.writeAll t.writes).write (components path) value := Outline.write_writeAll_write _ _ _ _ _
    _ = _ := by rw [outline_replay h]

theorem outline_replay_apart (h : Sound t) (hp : Plain path) (hcov : t.entries.any (covers path) = false)
    (habove : ∀ e ∈ t.entries, isBelow e.1 path = false) :
    ((t.refresh path value).replay (Tree.setDotted path value base)).outline =
      (t.replay base).outline.write (components path) value := by
  have hapart : ∀ u ∈ t.writes, ¬components path <+: u.1 ∧ ¬u.1 <+: components path := by
    intro u hu
    obtain ⟨e, he, rfl⟩ := List.mem_map.1 hu
    have hc := List.any_eq_false.1 hcov e he
    simp only [covers, Bool.or_eq_true, beq_iff_eq, not_or, Bool.not_eq_true] at hc
    exact apart_components hp (h.plain e he) (Ne.symm hc.1.1) hc.1.2 (habove e he)
  unfold refresh
  rw [if_neg (by simp [hcov])]
  calc
    _ = (base.outline.write (components path) value).writeAll t.writes := by
      rw [outline_replay h, outline_setDotted hp]
    _ = (base.outline.writeAll t.writes).write (components path) value := (Outline.writeAll_comm hapart _).symm
    _ = _ := by rw [outline_replay h]

/-- an entry above a write, replayed over the snapshot that has the write already, undoes it -/
theorem outline_replay_undone (h : Sound t) (hp : Plain path) (hcov : t.entries.any (covers path) = false)
    (habove : ∃ e ∈ t.entries, isBelow e.1 path = true) :
    ((t.refresh path value).replay (Tree.setDotted path value base)).outline = (t.replay base).outline := by
  have hprefix : ∃ u ∈ t.writes, u.1 <+: components path := by
    obtain ⟨e, he, hb⟩ := habove
    exact ⟨_, List.mem_map_of_mem he, ((Dotted.isBelow_iff_components (h.plain e he) hp).1 hb).1⟩
  unfold refresh
  rw [if_neg (by simp [hcov])]
  calc
    _ = (base.outline.write (components path) value).writeAll t.writes := by
      rw [outline_replay h, outline_setDotted hp]
    _ = base.outline.writeAll t.writes := Outline.writeAll_write_of_above hprefix _ _
    _ = _ := by rw [outline_replay h]

theorem sound_refresh (h : Sound t) (hp : Plain path) (hv : value.WellFormed) : Sound (t.refresh path value) := by
  unfold refresh
  split_ifs
  · exact sound_record h hp hv
  · exact h

end Tracker

namespace Record

open Dotted (isBelow Plain)

variable {S : Tree} {r : Record} {path : String} {value : Json}

/-- the replay shows the attributes again when the place is covered, or when no entry lies above it -/
theorem Synced.shows_setUntracked (h : Synced S r) (hp : Plain path) (hv : value.WellFormed)
    (hc : (∃ e ∈ r.tracker.entries, isBelow e.1 path = true) → r.tracker.entries.any (Tracker.covers path) = true) :
    ((r.setUntracked path value).tracker.replay (Tree.setDotted path value S)).outline.Shows
      (r.setUntracked path value).attributes.outline := by
  have hreplay : ((r.tracker.refresh path value).replay (Tree.setDotted path value S)).outline =
      (r.tracker.replay S).outline.write (Dotted.components path) value := by
    cases hcov : r.tracker.entries.any (Tracker.covers path) with
    | true => exact Tracker.outline_replay_refresh h.sound hp hv hcov
    | false =>
      apply Tracker.outline_replay_apart h.sound hp hcov
      intro e he
      by_contra hb
      rw [Bool.not_eq_false] at hb
      rw [hc ⟨e, he, hb⟩] at hcov
      cases hcov
  unfold setUntracked
  rw [hreplay, Tracker.outline_setDotted hp]
  exact h.shows.write hv _

theorem Synced.wellFormed_setUntracked (h : Synced S r) (hv : value.WellFormed) :
    (r.setUntracked path value).attributes.WellFormed := h.wellFormed.setAt hv _

/-- below an entry that undoes the write, the replay shows what the attributes were before it -/
theorem Synced.stripped_replay_undone (h : Synced S r) (hS : S.WellFormed) (hp : Plain path) (hv : value.WellFormed)
    (hcov : r.tracker.entries.any (Tracker.covers path) = false)
    (habove : ∃ e ∈ r.tracker.entries, isBelow e.1 path = true) :
    ((r.setUntracked path value).tracker.replay (Tree.setDotted path value S)).stripped.same
        (r.setUntracked path value).attributes.stripped = true ↔
      (r.setUntracked path value).attributes.stripped.same r.attributes.stripped = true := by
  have hwf : (r.setUntracked path value).attributes.WellFormed := h.wellFormed_setUntracked hv
  have hbefore : (r.tracker.replay S).WellFormed := Tracker.wellFormed_replay h.sound hS
  have hafter : ((r.setUntracked path value).tracker.replay (Tree.setDotted path value S)).WellFormed :=
    Tracker.wellFormed_replay (Tracker.sound_refresh h.sound hp hv) (hS.setAt hv _)
  have hundone : ((r.setUntracked path value).tracker.replay (Tree.setDotted path value S)).outline =
      (r.tracker.replay S).outline := Tracker.outline_replay_undone h.sound hp hcov habove
  have hshown : (r.tracker.replay S).stripped.same r.attributes.stripped = true :=
    Tree.stripped_same_of_shows hbefore h.wellFormed h.shows
  calc
    _ ↔ (r.tracker.replay S).stripped.same (r.setUntracked path value).attributes.stripped = true := by
      rw [Tree.stripped_same_iff hafter hwf, Tree.stripped_same_iff hbefore hwf, hundone]
    _ ↔ _ := by
      constructor
      · intro hsame
        have hback := Json.same_symm hbefore.stripped hwf.stripped hsame
        exact Json.same_trans hwf.stripped hbefore.stripped h.wellFormed.stripped hback hshown
      · intro hsame
        have hback := Json.same_symm hwf.stripped h.wellFormed.stripped hsame
        exact Json.same_trans hbefore.stripped h.wellFormed.stripped hwf.stripped hshown hback

/-- **What is pending after an untracked write.** Over the snapshot with the write in it, it gives the attributes, once
empty parts are gone, exactly when no entry lies above the place, or some entry covers the place, or the write changes
nothing but empty parts. In the first two cases every value of the next partial document is what the attributes hold, or
clears what they do not hold. -/
theorem stripped_replay_setUntracked {edits : List Edit} (hS : S.WellFormed) (pS : S.PlainKeys)
    (he : ∀ e ∈ edits, e.WellFormed ∧ e.PlainKeys) (hp : Plain path) (hv : value.WellFormed) :
    let r := (ofSnapshot S).editAll edits
    let r' := r.setUntracked path value
    let above := ∃ e ∈ r.tracker.entries, isBelow e.1 path = true
    let covered := r.tracker.entries.any (Tracker.covers path) = true
    ((r'.tracker.replay (Tree.setDotted path value S)).stripped.same r'.attributes.stripped = true ↔
      (above → covered ∨ r'.attributes.stripped.same r.attributes.stripped = true)) ∧
    ((above → covered) → ∀ q x, r'.partialDocument.at? q = some x → x.isObject = false →
      (∃ y, r'.attributes.at? q = some y ∧ x.same y = true) ∨
        ((x = .null ∨ x = .list []) ∧ r'.attributes.at? q = none)) := by
  intro r r' above covered
  have h : Synced S r := synced_editAll hS pS he
  have hsound : r'.tracker.Sound := Tracker.sound_refresh h.sound hp hv
  constructor
  · by_cases hc : above → covered
    · have hreplay := Tracker.wellFormed_replay hsound (hS.setAt hv (Dotted.components path))
      have hsame := Tree.stripped_same_of_shows hreplay (h.wellFormed_setUntracked hv) (h.shows_setUntracked hp hv hc)
      exact iff_of_true hsame fun ha => .inl (hc ha)
    · push Not at hc
      obtain ⟨ha, hno⟩ := hc
      have hcov : r.tracker.entries.any (Tracker.covers path) = false := by simpa [covered] using hno
      exact (h.stripped_replay_undone hS hp hv hcov ha).trans
        ⟨fun hsame _ => .inr hsame, fun hor => (hor ha).resolve_left hno⟩
  · intro hc q x hx hleaf
    exact Tracker.value_shown hsound (h.shows_setUntracked hp hv hc) hx hleaf

/-- an untracked write below an object that is pending -/
theorem stripped_replay_setUntracked_covered :
    let S : Tree := [("id", .string "1")]
    let r := (ofSnapshot S).editAll [⟨[], .set "extra" (.object [("a", .bool true)])⟩]
    let r' := r.setUntracked "extra.b" (.string "x")
    r'.partialDocument = [("extra", .object [("a", .bool true), ("b", .string "x")])] ∧
    (r'.tracker.replay (Tree.setDotted "extra.b" (.string "x") S)).stripped.same r'.attributes.stripped = true := by
  refine ⟨rfl, (stripped_replay_setUntracked ?_ ?_ ?_ ?_ ?_).1.2 fun _ => .inl rfl⟩
  all_goals decide

/-- an untracked write below a clearing that is pending: the next partial update clears it again -/
theorem stripped_replay_setUntracked_below_clearing :
    let S : Tree := []
    let edits : List Edit := [⟨[], .set "a" .null⟩]
    let r' := ((ofSnapshot S).editAll edits).setUntracked "a.b" (.number (.integer 1))
    (S.WellFormed ∧ S.PlainKeys ∧ (∀ e ∈ edits, e.WellFormed ∧ e.PlainKeys) ∧ Plain "a.b") ∧
    r'.partialDocument = [("a", .null)] ∧ r'.attributes = [("a", .object [("b", .number (.integer 1))])] ∧
    (r'.tracker.replay (Tree.setDotted "a.b" (.number (.integer 1)) S)).stripped.same r'.attributes.stripped =
      false :=
  ⟨by decide, rfl, rfl, rfl⟩

end Record

end ContactSync
