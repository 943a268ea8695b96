/-
Partial updates after a run of tracked writes.

A partial document is what is tracked, written over nothing. Over the snapshot the same writes leave the same wherever
the partial document has something (`outline_replay_of_named`), and what was there or nothing wherever it has not
(`outline_replay_of_unnamed`). The other side merges the document into the snapshot instead: an object goes into an
object, so what the document does not name survives (`outline_mergedInto`).
- `partialDocument_current`: every value in the document is what the attributes hold, or clears what they do not, and
  lies at or below a place where some write was reported;
- `merged_partialDocument`: the merge loses nothing that the attributes hold, and gives them exactly when every value
  that was removed is named by the document;
- `stripped_merged_of_objects_kept`: it does after every run that keeps the objects that are there before and after it.
-/
import ContactSync.Proofs.Synced

namespace ContactSync

/-! ## The same writes over different outlines -/

namespace Outline

/-- what writes leave over one outline they leave over every outline that has more -/
theorem writeAll_extend {a b : Outline} (hab : ∀ q, a q ≠ .nothing → b q = a q) (us : List (List String × Json)) :
    ∀ q, a.writeAll us q ≠ .nothing → b.writeAll us q = a.writeAll us q := by
  induction us generalizing a b with
  | nil => exact hab
  | cons u us ih =>
    apply ih
    intro q hq
    simp only [write] at hq ⊢
    split_ifs at hq ⊢
    exacts [rfl, rfl, hab q hq]

/-- where writes over one outline leave nothing, they leave what was there over another, or nothing -/
theorem writeAll_frame {a b o : Outline} (hab : ∀ q, a q = .nothing → b q = o q ∨ b q = .nothing)
    (us : List (List String × Json)) :
    ∀ q, a.writeAll us q = .nothing → b.writeAll us q = o q ∨ b.writeAll us q = .nothing := by
  induction us generalizing a b with
  | nil => exact hab
  | cons u us ih =>
    apply ih
    intro q hq
    simp only [write] at hq ⊢
    split_ifs at hq ⊢
    exacts [.inr hq, hab q hq]

theorem leaf_writeAll {o : Outline} {us : List (List String × Json)} {q : List String} {x : Json}
    (h : o.writeAll us q = .leaf x) : o q = .leaf x ∨ ∃ u ∈ us, u.1 <+: q := by
  induction us generalizing o with
  | nil => exact .inl h
  | cons u us ih =>
    rcases ih h with h | ⟨w, hw, hq⟩
    · simp only [write] at h
      split_ifs at h with h1 h2
      · exact .inr ⟨u, List.mem_cons_self, h1⟩
      · exact .inl h
    · exact .inr ⟨w, List.mem_cons_of_mem _ hw, hq⟩

/-- what is gone was gone, or went with a write above it, where there is still something -/
theorem nothing_writeAll {o : Outline} {us : List (List String × Json)} {q : List String}
    (h : o.writeAll us q = .nothing) :
    o q = .nothing ∨ ∃ u ∈ us, u.1 <+: q ∧ u.1 ≠ q ∧ o.writeAll us u.1 ≠ .nothing := by
  induction us generalizing o q with
  | nil => exact .inl h
  | cons u us ih =>
    rcases ih h with hq | ⟨w, hw, hwq⟩
    · simp only [write] at hq
      split_ifs at hq with h1 h2
      · have hne : u.1 ≠ q := by
          rintro rfl
          rw [List.drop_length] at hq
          exact Json.outline_nil_ne_nothing _ hq
        by_cases hu : (o.write u.1 u.2).writeAll us u.1 = .nothing
        · -- the write itself went with a later one further up
          rcases ih hu with hat | ⟨w, hw, hwu, hne', hrest⟩
          · have := write_at u.1 [] u.2 o
            rw [List.append_nil, hat] at this
            exact absurd this.symm (Json.outline_nil_ne_nothing _)
          · refine .inr ⟨w, List.mem_cons_of_mem _ hw, hwu.trans h1, ?_, hrest⟩
            intro he
            exact hne' (hwu.eq_of_length_le (by rw [he]; exact h1.length_le))
        · exact .inr ⟨u, List.mem_cons_self, h1, hne, hu⟩
      · exact .inl hq
    · exact .inr ⟨w, List.mem_cons_of_mem _ hw, hwq⟩

end Outline

/-- no value stands at a place or above it -/
def Outline.Silent (o : Outline) (q : List String) : Prop := ∀ p, p <+: q → ∀ x, o p ≠ .leaf x

namespace Tracker

variable {t : Tracker}

theorem outline_resolve (h : Sound t) : t.resolve.outline = (Tree.outline []).writeAll t.writes := outline_replay h []

/-- the replay holds whatever the entries alone make -/
theorem outline_replay_of_named (h : Sound t) (base : Tree) {q : List String} (hq : t.resolve.outline q ≠ .nothing) :
    (t.replay base).outline q = t.resolve.outline q := by
  rw [outline_resolve h] at hq ⊢
  rw [outline_replay h]
  refine Outline.writeAll_extend ?_ _ q hq
  intro q hq
  cases q with
  | nil => rfl
  | cons k q => exact absurd (Tree.outline_empty (List.cons_ne_nil k q)) hq

/-- where the entries alone make nothing, the replay holds what was there, or nothing -/
theorem outline_replay_of_unnamed (h : Sound t) (base : Tree) {q : List String}
    (hq : t.resolve.outline q = .nothing) :
    (t.replay base).outline q = base.outline q ∨ (t.replay base).outline q = .nothing := by
  rw [outline_resolve h] at hq
  rw [outline_replay h]
  exact Outline.writeAll_frame (fun _ _ => .inl rfl) _ q hq

/-- at and above a place where the entries alone make no value, the replay holds what was there, an object or nothing -/
theorem outline_replay_of_silent (h : Sound t) (base : Tree) {p q : List String} (hs : t.resolve.outline.Silent q)
    (hp : p <+: q) : (t.replay base).outline p = base.outline p ∨ (t.replay base).outline p = .object ∨
      (t.replay base).outline p = .nothing := by
  cases hu : t.resolve.outline p with
  | nothing => exact (outline_replay_of_unnamed h base hu).imp id .inr
  | object => exact .inr (.inl ((outline_replay_of_named h base (q := p) (by simp [hu])).trans hu))
  | leaf y => exact absurd hu (hs p hp y)

/-- **A value that the entries alone make** is what the replay shows there, or a mark where it shows nothing. -/
theorem value_shown (h : Sound t) {base shown : Tree} (hs : (t.replay base).outline.Shows shown.outline)
    {q : List String} {x : Json} (hx : t.resolve.at? q = some x) (hleaf : x.isObject = false) :
    (∃ y, shown.at? q = some y ∧ x.same y = true) ∨ (x.IsMark ∧ shown.at? q = none) := by
  have hq : q ≠ [] := by rintro rfl; cases hx
  have hu := Tree.at?_leaf_iff.1 ⟨hx, hleaf⟩
  have hsq := hs q
  rw [outline_replay_of_named h base (q := q) (by simp [hu]), hu] at hsq
  cases ha : shown.outline q with
  | nothing => rw [ha] at hsq; exact .inr ⟨hsq, (Tree.at?_eq_none_iff hq).2 ha⟩
  | object => rw [ha] at hsq; exact hsq.elim
  | leaf y => rw [ha] at hsq; exact .inl ⟨y, (Tree.at?_leaf_iff.2 ha).1, hsq⟩

theorem entry_above_leaf (h : Sound t) {q : List String} {x : Json} (hx : t.resolve.outline q = .leaf x) :
    ∃ k ∈ Tree.keys t.entries, Dotted.components k <+: q := by
  rw [outline_resolve h] at hx
  rcases Outline.leaf_writeAll hx with hx | ⟨u, hu, hq⟩
  · cases q with
    | nil => cases hx
    | cons k q => rw [Tree.outline_empty (List.cons_ne_nil k q)] at hx; cases hx
  · obtain ⟨e, he, rfl⟩ := List.mem_map.1 hu
    exact ⟨e.1, Tree.mem_keys_of_mem he, hq⟩

end Tracker

namespace Record

variable {S : Tree} {edits : List Edit}

/-! ## What a partial document says -/

/-- **A partial document is current and minimal.** After every run of tracked writes, every value in it is what the
attributes hold there, or clears what they do not hold; and it lies at or below the place of some write of the run. -/
theorem partialDocument_current (hS : S.WellFormed) (pS : S.PlainKeys) (he : ∀ e ∈ edits, e.WellFormed ∧ e.PlainKeys)
    {q : List String} {x : Json} (hx : ((ofSnapshot S).editAll edits).partialDocument.at? q = some x)
    (hleaf : x.isObject = false) :
    ((∃ y, ((ofSnapshot S).editAll edits).attributes.at? q = some y ∧ x.same y = true) ∨
      ((x = .null ∨ x = .list []) ∧ ((ofSnapshot S).editAll edits).attributes.at? q = none)) ∧
    ∃ earlier e later r', edits = earlier ++ e :: later ∧ ((ofSnapshot S).editAll earlier).edit e = .ok r' ∧
      e.place <+: q := by
  have h := synced_editAll hS pS he
  refine ⟨Tracker.value_shown h.sound h.shows hx hleaf, ?_⟩
  obtain ⟨k, hk, hkq⟩ := Tracker.entry_above_leaf h.sound (Tree.at?_leaf_iff.1 ⟨hx, hleaf⟩)
  obtain ⟨e, before, after, ⟨earlier, later, hes, rfl, hok⟩, hplace, -⟩ := reported_of_tracked hS pS he hk
  exact ⟨earlier, e, later, after, hes, hok, hplace.trans hkq⟩

/-- a clearing of a key that is gone, and a list written below one of its elements -/
theorem partialDocument_current_cleared :
    let S : Tree := [("base", .object [("fax", .string "1"), ("tags", .list [.object [("label", .string "x")]])])]
    let edits : List Edit :=
      [⟨[], .set "base" (.object [("tags", .list [.object [("label", .string "y")]])])⟩,
        ⟨[.child "base", .item "tags" 0], .set "label" (.string "z")⟩]
    let r := (ofSnapshot S).editAll edits
    r.partialDocument.at? ["base", "fax"] = some .null ∧
    ((∃ y, r.attributes.at? ["base", "fax"] = some y ∧ Json.null.same y = true) ∨
      ((Json.null = .null ∨ Json.null = .list []) ∧ r.attributes.at? ["base", "fax"] = none)) ∧
    ∃ earlier e later r', edits = earlier ++ e :: later ∧ ((ofSnapshot S).editAll earlier).edit e = .ok r' ∧
      e.place <+: ["base", "fax"] :=
  ⟨rfl, partialDocument_current (by decide) (by decide) (by decide) rfl rfl⟩

end Record

/-! ## Merging -/

namespace Json

theorem get?_membersMergedInto {update : Tree} (h : (Tree.keys update).Nodup) (old : Tree) (k : String) :
    Tree.get? k (membersMergedInto old update) = match Tree.get? k update with
      | some v => some (mergedInto ((Tree.get? k old).getD .null) v)
      | none => Tree.get? k old := by
  induction update generalizing old with
  | nil => simp [membersMergedInto]
  | cons e update ih =>
    obtain ⟨k', v⟩ := e
    rw [Tree.keys_cons, List.nodup_cons] at h
    unfold membersMergedInto
    rw [ih h.2, Tree.get?_insert, Tree.get?_cons]
    by_cases hk : k' = k
    · subst hk
      rw [Tree.get?_eq_none_iff.2 h.1]
      simp
    · simp [hk]

theorem silent_object_cons (t : Tree) (k : String) (q : List String) :
    (Json.object t).outline.Silent (k :: q) ↔ Outline.Silent (Outline.ofOption (Tree.get? k t)) q := by
  constructor
  · intro hs p hp x
    have := hs (k :: p) (List.cons_prefix_cons.2 ⟨rfl, hp⟩) x
    rwa [outline_object_cons] at this
  · intro hs p hp x
    cases p with
    | nil => simp
    | cons k' p =>
      obtain ⟨rfl, hpq⟩ := List.cons_prefix_cons.1 hp
      rw [outline_object_cons]
      exact hs p hpq x

/-- **What a merge holds**, place by place: what the update has, nothing below a value of the update, and elsewhere
what was there. -/
theorem outline_mergedInto {update : Json} (h : update.WellFormed) (old : Json) (q : List String) :
    (update.outline q ≠ .nothing → (mergedInto old update).outline q = update.outline q) ∧
    (update.outline q = .nothing → ¬update.outline.Silent q → (mergedInto old update).outline q = .nothing) ∧
    (update.outline q = .nothing → update.outline.Silent q → (mergedInto old update).outline q = old.outline q) := by
  induction q generalizing old update with
  | nil =>
    have hne := outline_nil_ne_nothing update
    refine ⟨?_, fun h => absurd h hne, fun h => absurd h hne⟩
    intro _
    cases update <;> rfl
  | cons k q ih =>
    cases hu : update.object? with
    | none =>
      -- a value at the top stands above every other place
      have hm : mergedInto old update = update := by cases update <;> simp_all [mergedInto, object?]
      rw [hm]
      refine ⟨fun _ => rfl, fun h _ => h, ?_⟩
      intro _ hs
      exact absurd (outline_nil hu) (hs [] List.nil_prefix update)
    | some u =>
      obtain rfl := eq_object_of_object? hu
      obtain ⟨hn, hw⟩ := wellFormed_object_iff.1 h
      have hmerged : (mergedInto old (.object u)).outline (k :: q) =
          Outline.ofOption (Tree.get? k (membersMergedInto old.members u)) q := by
        unfold mergedInto
        rw [outline_object_cons, members]
      rw [hmerged, silent_object_cons, outline_object_cons, get?_membersMergedInto hn]
      cases hk : Tree.get? k u with
      | none =>
        refine ⟨fun h => absurd rfl h, fun _ hs => absurd (fun p _ x => by simp [Outline.ofOption]) hs, ?_⟩
        intro _ _
        exact (outline_members_cons old k q).symm
      | some v =>
        have hv := Tree.mem_of_get? hk
        obtain ⟨h1, h2, h3⟩ := ih (hw _ hv) ((Tree.get? k old.members).getD .null)
        refine ⟨h1, h2, fun hq hs => (h3 hq hs).trans ?_⟩
        rw [outline_members_cons]
        cases Tree.get? k old.members with
        | some w => rfl
        | none =>
          cases q with
          | nil => exact absurd hq (outline_nil_ne_nothing v)
          | cons k' q => rfl

theorem WellFormed.membersMergedInto {update : Tree} (hu : ∀ e ∈ update, e.2.WellFormed)
    (ih : ∀ e ∈ update, ∀ old : Json, old.WellFormed → e.2.WellFormed → (mergedInto old e.2).WellFormed) {old : Tree}
    (ho : old.WellFormed) : Tree.WellFormed (membersMergedInto old update) := by
  induction update generalizing old with
  | nil => exact ho
  | cons e update ih' =>
    rw [List.forall_mem_cons] at hu ih
    unfold Json.membersMergedInto
    refine ih' hu.2 ih.2 (ho.insert (ih.1 _ ?_ hu.1) e.1)
    cases hk : Tree.get? e.1 old with
    | none => exact wellFormed_of_scalar rfl rfl
    | some v => exact ho.get? hk

theorem WellFormed.mergedInto {update : Json} (h : update.WellFormed) {old : Json} (ho : old.WellFormed) :
    (mergedInto old update).WellFormed := by
  induction update using valueInduction generalizing old with
  | scalar v hl hv => cases v <;> simp_all [Json.mergedInto, object?]
  | list items _ => exact h
  | object update ih =>
    unfold Json.mergedInto
    exact WellFormed.membersMergedInto (wellFormed_object_iff.1 h).2 (fun e he old ho hw => ih e he hw ho) ho.members

end Json

namespace Tree

theorem WellFormed.merged {update : Tree} (h : update.WellFormed) {old : Tree} (ho : old.WellFormed) :
    (old.merged update).WellFormed :=
  @Json.WellFormed.mergedInto (.object update) h (.object old) ho

theorem outline_merged (old update : Tree) :
    (old.merged update).outline = ((Json.object old).mergedInto (.object update)).outline := rfl

end Tree

/-- **Merging what the entries make, and replaying them, differ only where the entries are silent**: there the merge
keeps what the replay loses. -/
theorem Tracker.outline_merged_resolve {t : Tracker} (h : Sound t) {base : Tree} (hb : base.WellFormed)
    (q : List String) :
    (base.merged t.resolve).outline q = (t.replay base).outline q ∨
      (t.resolve.outline.Silent q ∧ t.resolve.outline q = .nothing ∧ (t.replay base).outline q = .nothing ∧
        (base.merged t.resolve).outline q = base.outline q) := by
  have hu : t.resolve.WellFormed := wellFormed_replay h Tree.wellFormed_nil
  obtain ⟨h1, h2, h3⟩ := @Json.outline_mergedInto (.object t.resolve) hu (.object base) q
  rw [← Tree.outline_merged] at h1 h2 h3
  by_cases hq : t.resolve.outline q = .nothing
  · by_cases hs : t.resolve.outline.Silent q
    · rcases outline_replay_of_unnamed h base hq with ht | ht
      · exact .inl ((h3 hq hs).trans ht.symm)
      · exact .inr ⟨hs, hq, ht, h3 hq hs⟩
    · -- the replay has a value above, so nothing here
      left
      rw [h2 hq hs]
      unfold Outline.Silent at hs
      push Not at hs
      obtain ⟨p, ⟨r, rfl⟩, x, hx⟩ := hs
      have hp := outline_replay_of_named h base (q := p) (by simp [hx])
      have hr : r ≠ [] := by
        rintro rfl
        rw [List.append_nil, hx] at hq
        cases hq
      exact ((wellFormed_replay h hb).regular.ends p (by simp [hp, hx]) r hr).symm
  · exact .inl ((h1 hq).trans (outline_replay_of_named h base hq).symm)

namespace Record

variable {S : Tree} {edits : List Edit}

/-- what the attributes hold, the merge holds -/
theorem Synced.merged_holds (hS : S.WellFormed) {r : Record} (h : Synced S r) {q : List String} {x : Json}
    (hx : r.attributes.outline q = .leaf x) :
    ∃ y, (S.merged r.partialDocument).outline q = .leaf y ∧ y.same x = true := by
  have hshow := h.shows q
  rw [hx] at hshow
  cases ht : (r.tracker.replay S).outline q with
  | nothing => rw [ht] at hshow; exact hshow.elim
  | object => rw [ht] at hshow; exact hshow.elim
  | leaf y =>
    rw [ht] at hshow
    rcases Tracker.outline_merged_resolve h.sound hS q with hm | ⟨-, -, hno, -⟩
    · exact ⟨y, hm.trans ht, hshow⟩
    · rw [ht] at hno; cases hno

/-- a value of the snapshot that the attributes have lost stays in the merge where the document is silent -/
theorem Synced.merged_keeps {r : Record} (h : Synced S r) {q : List String} {x : Json} (hx : S.outline q = .leaf x)
    (ha : r.attributes.outline q = .nothing) (hs : r.partialDocument.outline.Silent q) :
    (S.merged r.partialDocument).outline q = .leaf x := by
  have hu : r.partialDocument.WellFormed := Tracker.wellFormed_replay h.sound Tree.wellFormed_nil
  have hq : r.partialDocument.outline q = .nothing := by
    cases hv : r.partialDocument.outline q with
    | nothing => rfl
    | leaf y => exact absurd hv (hs q (List.prefix_refl _) y)
    | object =>
      -- then the replay has an object there, and the attributes would
      have hv : r.tracker.resolve.outline q = .object := hv
      have hshow := h.shows q
      rw [Tracker.outline_replay_of_named h.sound S (q := q) (by simp [hv]), hv, ha] at hshow
      exact hshow.elim
  exact ((Json.outline_mergedInto hu (.object S) q).2.2 hq hs).trans hx

/-- the merge agrees with the attributes exactly when the document is not silent where they have lost a value -/
theorem Synced.stripped_merged_iff (hS : S.WellFormed) {r : Record} (h : Synced S r) :
    (S.merged r.partialDocument).stripped.same r.attributes.stripped = true ↔
      ∀ q x, S.outline q = .leaf x → x.stripped? ≠ none → r.attributes.outline q = .nothing →
        ¬r.partialDocument.outline.Silent q := by
  have hu : r.partialDocument.WellFormed := Tracker.wellFormed_replay h.sound Tree.wellFormed_nil
  have hreplay := (Tracker.wellFormed_replay h.sound hS).regular
  rw [Tree.stripped_same_iff (hu.merged hS) h.wellFormed]
  constructor
  · intro hagree q x hx hc ha hs
    have hkept := hagree q
    rw [h.merged_keeps hx ha hs, ha] at hkept
    exact hc (Json.agree_none_right.1 hkept)
  · intro hnamed q
    rcases Tracker.outline_merged_resolve h.sound hS q with hm | ⟨hs, -, ht, hm⟩
    · rw [show (S.merged r.partialDocument).outline q = _ from hm]
      exact h.shows.kept hreplay h.wellFormed.regular q
    · have ha : r.attributes.outline q = .nothing := by
        have hshow := h.shows q
        rw [ht] at hshow
        cases ha : r.attributes.outline q <;> rw [ha] at hshow <;> first | rfl | exact hshow.elim
      rw [show (S.merged r.partialDocument).outline q = _ from hm, ha]
      cases hx : S.outline q with
      | leaf x =>
        by_cases hc : x.stripped? = none
        · rw [Spot.kept, hc]; exact .none
        · exact absurd hs (hnamed q x hx hc ha)
      | _ => exact .none

/-- **Merging a partial document into the snapshot.** After every run of tracked writes it loses nothing that the
attributes hold. It gives the attributes, once empty parts are gone, exactly when every value of the snapshot that they
have lost lies at or below a value of the document. -/
theorem merged_partialDocument (hS : S.WellFormed) (pS : S.PlainKeys)
    (he : ∀ e ∈ edits, e.WellFormed ∧ e.PlainKeys) :
    let r := (ofSnapshot S).editAll edits
    let merged := S.merged r.partialDocument
    (∀ q x, r.attributes.at? q = some x → x.isObject = false → ∃ y, merged.at? q = some y ∧ y.same x = true) ∧
    (merged.stripped.same r.attributes.stripped = true ↔
      ∀ q x, S.at? q = some x → x.isObject = false → x.HasContent → r.attributes.at? q = none →
        ∃ p y, p <+: q ∧ r.partialDocument.at? p = some y ∧ y.isObject = false) := by
  intro r merged
  have h : Synced S r := synced_editAll hS pS he
  have hsilent : ∀ q, ¬r.partialDocument.outline.Silent q ↔
      ∃ p y, p <+: q ∧ r.partialDocument.at? p = some y ∧ y.isObject = false := by
    intro q
    unfold Outline.Silent
    push Not
    simp only [← Tree.at?_leaf_iff, exists_and_left]
  refine ⟨fun q x hx hleaf => ?_, (h.stripped_merged_iff hS).trans ⟨fun hall q x hx hleaf hc ha => ?_,
    fun hall q x hx hc ha => ?_⟩⟩
  · obtain ⟨y, hy, hsame⟩ := h.merged_holds hS (Tree.at?_leaf_iff.1 ⟨hx, hleaf⟩)
    exact ⟨y, (Tree.at?_leaf_iff.2 hy).1, hsame⟩
  · have hq : q ≠ [] := by rintro rfl; cases hx
    exact (hsilent q).1 (hall q x (Tree.at?_leaf_iff.1 ⟨hx, hleaf⟩) ((Json.hasContent_iff x).1 hc)
      ((Tree.at?_eq_none_iff hq).1 ha))
  · have hq : q ≠ [] := by rintro rfl; cases ha
    obtain ⟨hat, hleaf⟩ := Tree.at?_leaf_iff.2 hx
    exact (hsilent q).2 (hall q x hat hleaf ((Json.hasContent_iff x).2 hc) ((Tree.at?_eq_none_iff hq).2 ha))

/-- an object cleared: the document names what is gone -/
theorem merged_partialDocument_cleared :
    let S : Tree := [("k", .object [("b", .number (.integer 2))]), ("m", .string "x")]
    let r := (ofSnapshot S).editAll [⟨[], .set "k" .null⟩, ⟨[], .set "m" (.object [("a", .bool true)])⟩]
    let merged := S.merged r.partialDocument
    (∀ q x, r.attributes.at? q = some x → x.isObject = false → ∃ y, merged.at? q = some y ∧ y.same x = true) ∧
    (merged.stripped.same r.attributes.stripped = true ↔
      ∀ q x, S.at? q = some x → x.isObject = false → x.HasContent → r.attributes.at? q = none →
        ∃ p y, p <+: q ∧ r.partialDocument.at? p = some y ∧ y.isObject = false) :=
  merged_partialDocument (by decide) (by decide) (by decide)

/-- an object cleared and made anew: the document forgets what the old one had, and the merge brings it back -/
theorem merged_partialDocument_made_anew :
    let S : Tree := [("k", .object [("b", .number (.integer 2))])]
    let edits : List Edit := [⟨[], .set "k" .null⟩, ⟨[], .set "k" (.object [("a", .number (.integer 1))])⟩]
    let r := (ofSnapshot S).editAll edits
    (S.WellFormed ∧ S.PlainKeys ∧ ∀ e ∈ edits, e.WellFormed ∧ e.PlainKeys) ∧
    S.merged r.partialDocument = [("k", .object [("b", .number (.integer 2)), ("a", .number (.integer 1))])] ∧
    r.attributes = [("k", .object [("a", .number (.integer 1))])] ∧
    (S.merged r.partialDocument).stripped.same r.attributes.stripped = false :=
  ⟨by decide, rfl, rfl, rfl⟩

/-- **A merge that is always right.** Where every object that the snapshot and the attributes share has been one all
along the run, merging the partial document gives the attributes, once empty parts are gone. -/
theorem stripped_merged_of_objects_kept (hS : S.WellFormed) (pS : S.PlainKeys)
    (he : ∀ e ∈ edits, e.WellFormed ∧ e.PlainKeys)
    (hkept : ∀ p, S.outline p = .object → ((ofSnapshot S).editAll edits).attributes.outline p = .object →
      ∀ e before after, Made S edits e before after →
        before.attributes.outline p = .object ∧ after.attributes.outline p = .object) :
    (S.merged ((ofSnapshot S).editAll edits).partialDocument).stripped.same
      ((ofSnapshot S).editAll edits).attributes.stripped = true := by
  have h := synced_editAll hS pS he
  apply (h.stripped_merged_iff hS).2
  intro q x hx hc ha hs
  have hshow := h.shows q
  rw [ha] at hshow
  have hgone : (((ofSnapshot S).editAll edits).tracker.replay S).outline q = .nothing := by
    rcases Tracker.outline_replay_of_silent h.sound S hs (List.prefix_refl q) with ht | ht | ht
    · rw [ht, hx] at hshow
      exact absurd (Json.IsMark.stripped? hshow) hc
    · rw [ht] at hshow
      exact hshow.elim
    · exact ht
  -- some entry above took the value away, and there is an object to this day
  rw [Tracker.outline_replay h.sound] at hgone
  rcases Outline.nothing_writeAll hgone with hno | ⟨u, hu, huq, hne, hthere⟩
  · rw [hx] at hno; cases hno
  have hsnap : S.outline u.1 = .object := hS.regular.object_above (by simp [hx]) huq hne
  have hobj : (((ofSnapshot S).editAll edits).tracker.replay S).outline u.1 = .object := by
    rcases Tracker.outline_replay_of_silent h.sound S hs huq with ht | ht | ht
    · exact ht.trans hsnap
    · exact ht
    · rw [Tracker.outline_replay h.sound] at ht
      exact absurd ht hthere
  obtain ⟨e, he', rfl⟩ := List.mem_map.1 hu
  obtain ⟨f, before, after, hmade, -, hflat⟩ := reported_of_tracked hS pS he (Tree.mem_keys_of_mem he')
  obtain ⟨hb, haft⟩ := hkept _ hsnap ((h.shows.object_iff _).1 hobj) f before after hmade
  exact hflat.elim (fun hf => hf hb) fun hf => hf haft

end Record

end ContactSync
