/-
Runs of tracked writes.

Over every run that starts from a snapshot, the tracker's replay over the snapshot shows the attributes: it holds the
same, with marks where values were removed (`Synced`, `synced_editAll`). One write keeps this because it makes a row of
changes at or below its place, which are recorded one by one and turn what shows the attributes before into what shows
the attributes after (`Written.changes`).
- `stripped_replay_editAll`: once empty parts are gone, the replay is the attributes;
- `reported_of_tracked`: what is tracked was reported by some write of the run.
-/
import ContactSync.Proofs.Edits

namespace ContactSync

/-! ## Differences as recordings -/

namespace Tracker

open Dotted (ofKeys Plain)

/-- a change at its keys as a recording -/
def atKeys (u : List String × Json) : String × Json := (ofKeys u.1, u.2)

variable {old new : Tree}

theorem plainKeys_of_mem_differences (ho : old.WellFormed) (hn : new.WellFormed) (po : old.PlainKeys)
    (pn : new.PlainKeys) {u : List String × Json} (hu : u ∈ (Json.object old).differences (.object new)) :
    Dotted.PlainKeys u.1 := by
  rcases (Json.of_mem_differences ho hn hu).2.1 with h | h
  · exact (Json.plainKeys_iff ho).1 po u.1 h
  · exact (Json.plainKeys_iff hn).1 pn u.1 h

theorem entries_difference (ho : old.WellFormed) (hn : new.WellFormed) (po : old.PlainKeys) (pn : new.PlainKeys) :
    (difference old new).entries = ((Json.object old).differences (.object new)).map atKeys := by
  have hplain := fun u hu => @plainKeys_of_mem_differences old new ho hn po pn u hu
  have hchanges : Tree.changes old new = ((Json.object old).differences (.object new)).map atKeys := by
    unfold Tree.changes
    rw [Json.changes_eq]
    apply List.map_congr_left
    intro u hu
    rw [Json.atPath, atKeys, Dotted.foldl_join_ofKeys (hplain u hu)]
  unfold difference
  rw [hchanges]
  refine Tree.ofPairs_of_nodup ?_
  unfold Tree.keys
  rw [List.map_map, List.Nodup, List.pairwise_map]
  apply (Json.pairwise_differences ho hn).imp_of_mem
  intro u w hu hw hapart heq
  have : u.1 = w.1 := Dotted.ofKeys_inj (hplain u hu) (hplain w hw) heq
  exact hapart.1 (this ▸ List.prefix_refl _)

theorem merge_difference (ho : old.WellFormed) (hn : new.WellFormed) (po : old.PlainKeys) (pn : new.PlainKeys)
    (t : Tracker) {ks : List String} (hk : Dotted.PlainKeys ks) :
    t.merge (ofKeys ks) (difference old new) =
      t.recordAll ((((Json.object old).differences (.object new)).map fun u => (ks ++ u.1, u.2)).map atKeys) := by
  unfold merge
  rw [entries_difference ho hn po pn, List.map_map, List.map_map]
  congr 1
  apply List.map_congr_left
  intro u hu
  simp only [Function.comp, atKeys, Dotted.join_ofKeys hk (Json.differences_ne_nil hu)]

theorem mem_keys_record {t : Tracker} (h : Ordered t) {path k : String} {value : Json}
    (hk : k ∈ Tree.keys (t.record path value).entries) : k = path ∨ k ∈ Tree.keys t.entries := by
  have hout : ∀ k ∈ Tree.keys (outside path t.entries), k ∈ Tree.keys t.entries :=
    (List.filter_sublist.map Prod.fst).subset
  rcases record_cases h path value with ⟨pre, above, inner, post, rest, heq, -, -, hrec⟩ | ⟨-, hrec⟩
  · right
    refine hout k ?_
    rw [hrec] at hk
    rw [heq]
    simpa [Tree.keys] using hk
  · rw [hrec] at hk
    exact (Tree.mem_keys_insert.1 hk).imp id (hout k)

theorem mem_keys_recordAll {t : Tracker} (h : Ordered t) {changes : Tree} {k : String}
    (hk : k ∈ Tree.keys (t.recordAll changes).entries) : k ∈ Tree.keys changes ∨ k ∈ Tree.keys t.entries := by
  induction changes generalizing t with
  | nil => exact .inr hk
  | cons c changes ih =>
    unfold Tree.keys
    rw [List.map_cons, List.mem_cons]
    rcases ih (ordered_record h c.1 c.2) hk with hk | hk
    · exact .inl (.inr hk)
    · exact (mem_keys_record h hk).imp .inl id

end Tracker

/-! ## One write -/

namespace Record

open Tracker (atKeys)

variable {S : Tree} {r r' : Record}

theorem Written.plainKeys {place : List String} {value : Json} (h : r.Written place value r')
    (hp : Dotted.PlainKeys place) (hr : r.attributes.WellFormed) (pr : r.attributes.PlainKeys)
    (pv : value.PlainKeys) : r'.attributes.PlainKeys := by
  apply (Json.plainKeys_iff h.wellFormed).2
  intro q hq
  rw [show (Json.object r'.attributes).outline = _ from h.outline] at hq
  by_cases h1 : place <+: q
  · obtain ⟨s, rfl⟩ := h1
    rw [Outline.write_at] at hq
    have := (Json.plainKeys_iff h.wellFormedValue).1 pv s hq
    exact fun k hk => (List.mem_append.1 hk).elim (hp k) (this k)
  by_cases h2 : q <+: place
  · exact fun k hk => hp k (h2.subset hk)
  · rw [Outline.write_off h1 h2] at hq
    exact (Json.plainKeys_iff hr).1 pr q hq

/-- **One write as a row of recorded changes**, all at or below its place, each where there is no object before or
after. Over whatever shows the attributes before, they show the attributes after. -/
theorem Written.changes {place : List String} {value : Json} (h : r.Written place value r')
    (hp : Dotted.PlainKeys place) (hr : r.attributes.WellFormed) (pr : r.attributes.PlainKeys) (pv : value.PlainKeys) :
    ∃ us : List (List String × Json), r'.tracker = r.tracker.recordAll (us.map atKeys) ∧
      (∀ u ∈ us, place <+: u.1 ∧ Dotted.PlainKeys u.1 ∧ u.2.WellFormed ∧
        (r.attributes.outline u.1 ≠ .object ∨ r'.attributes.outline u.1 ≠ .object)) ∧
      ∀ o : Outline, o.Regular → o.Shows r.attributes.outline → (o.writeAll us).Shows r'.attributes.outline := by
  rcases h.tracker with ⟨old, new, ho, hold, rfl, ht⟩ | ⟨hflat, ht⟩
  · have hn : new.WellFormed := h.wellFormedValue
    have po : old.PlainKeys := by
      apply (Json.plainKeys_iff ho).2
      intro q hq k hk
      rw [show (Json.object old).outline = old.outline from rfl, ← hold q] at hq
      exact (Json.plainKeys_iff hr).1 pr (place ++ q) hq k (List.mem_append_right _ hk)
    refine ⟨_, ht.trans (Tracker.merge_difference ho hn po pv _ hp), ?_, ?_⟩
    · intro u hu
      obtain ⟨w, hw, rfl⟩ := List.mem_map.1 hu
      obtain ⟨h1, -, h3⟩ := Json.of_mem_differences ho hn hw
      have hpw := Tracker.plainKeys_of_mem_differences ho hn po pv hw
      refine ⟨List.prefix_append _ _, fun k hk => (List.mem_append.1 hk).elim (hp k) (hpw k), h1, ?_⟩
      rw [hold, h.outline, Outline.write_at]
      exact h3
    · intro o hreg ho'
      rw [h.outline]
      exact ho'.differences_at hreg hr.regular ho hn hold
  · refine ⟨[(place, value)], ht, ?_, ?_⟩
    · intro u hu
      rw [List.mem_singleton] at hu
      subst hu
      refine ⟨List.prefix_refl _, hp, h.wellFormedValue, hflat.imp id ?_⟩
      intro hv
      have hat := Outline.write_at place [] value r.attributes.outline
      rw [List.append_nil, ← h.outline, Json.outline_nil hv] at hat
      simp [hat]
    · intro o _ ho
      rw [h.outline]
      exact ho.write h.wellFormedValue place

/-! ## Runs -/

/-- **The invariant of tracked writes from a snapshot**: the replay of what is tracked shows the attributes. -/
structure Synced (S : Tree) (r : Record) : Prop where
  wellFormed : r.attributes.WellFormed
  plain : r.attributes.PlainKeys
  sound : r.tracker.Sound
  shows : (r.tracker.replay S).outline.Shows r.attributes.outline

theorem synced_ofSnapshot (hS : S.WellFormed) (pS : S.PlainKeys) : Synced S (ofSnapshot S) :=
  ⟨hS, pS, Tracker.sound_empty, Outline.shows_refl hS.regular⟩

/-- one write, in terms of the changes it records -/
theorem Synced.changes (h : Synced S r) {e : Edit} (he : e.WellFormed) (pe : e.PlainKeys) (hr : r.edit e = .ok r') :
    r'.attributes.WellFormed ∧ r'.attributes.PlainKeys ∧
      ∃ us : List (List String × Json), r'.tracker = r.tracker.recordAll (us.map atKeys) ∧
        (∀ u ∈ us, e.place <+: u.1 ∧ u.1 ≠ [] ∧ Dotted.PlainKeys u.1 ∧ u.2.WellFormed ∧
          (r.attributes.outline u.1 ≠ .object ∨ r'.attributes.outline u.1 ≠ .object)) ∧
        ∀ o : Outline, o.Regular → o.Shows r.attributes.outline → (o.writeAll us).Shows r'.attributes.outline := by
  obtain ⟨value, pv, hw⟩ := edit_ok hr h.wellFormed he pe
  obtain ⟨us, ht, hus, hshows⟩ := hw.changes pe.1 h.wellFormed h.plain pv
  refine ⟨hw.wellFormed, hw.plainKeys pe.1 h.wellFormed h.plain pv, us, ht, ?_, hshows⟩
  intro u hu
  obtain ⟨h1, h2⟩ := hus u hu
  exact ⟨h1, fun hn => e.place_ne_nil (List.prefix_nil.1 (hn ▸ h1)), h2⟩

theorem components_atKeys {us : List (List String × Json)} (h : ∀ u ∈ us, Dotted.PlainKeys u.1) :
    (us.map atKeys).map (fun c => (Dotted.components c.1, c.2)) = us := by
  rw [List.map_map]
  conv_rhs => rw [← List.map_id us]
  apply List.map_congr_left
  intro u hu
  simp only [Function.comp, atKeys, Dotted.components_ofKeys (h u hu), id]

/-- **A tracked write keeps the invariant.** -/
theorem synced_edit (hS : S.WellFormed) (h : Synced S r) {e : Edit} (he : e.WellFormed) (pe : e.PlainKeys)
    (hr : r.edit e = .ok r') : Synced S r' := by
  obtain ⟨hwf, hplain, us, ht, hus, hshows⟩ := h.changes he pe hr
  have hc : ∀ c ∈ us.map atKeys, Dotted.Plain c.1 ∧ c.2.WellFormed := by
    rintro _ hc
    obtain ⟨u, hu, rfl⟩ := List.mem_map.1 hc
    obtain ⟨-, hne, hp, hv, -⟩ := hus u hu
    exact ⟨Dotted.plain_ofKeys hp hne, hv⟩
  obtain ⟨hsound, hreplay⟩ := Tracker.outline_replay_recordAll h.sound hc S
  rw [components_atKeys fun u hu => (hus u hu).2.2.1] at hreplay
  refine ⟨hwf, hplain, ht ▸ hsound, ?_⟩
  rw [ht, hreplay]
  exact hshows _ (Tracker.wellFormed_replay h.sound hS).regular h.shows

theorem editAll_snoc (r : Record) (edits : List Edit) (e : Edit) :
    r.editAll (edits ++ [e]) = match (r.editAll edits).edit e with
      | .ok r' => r'
      | .error _ => r.editAll edits := by
  unfold editAll
  rw [List.foldl_append]
  rfl

/-- **The invariant holds over every run.** -/
theorem synced_editAll (hS : S.WellFormed) (pS : S.PlainKeys) {edits : List Edit}
    (he : ∀ e ∈ edits, e.WellFormed ∧ e.PlainKeys) : Synced S ((ofSnapshot S).editAll edits) := by
  induction edits using List.reverseRecOn with
  | nil => exact synced_ofSnapshot hS pS
  | append_singleton edits e ih =>
    have ih := ih fun e h => he e (List.mem_append_left _ h)
    obtain ⟨hew, hep⟩ := he e (by simp)
    rw [editAll_snoc]
    split
    · rename_i r' hr
      exact synced_edit hS ih hew hep hr
    · exact ih

/-- a write of a run succeeds: it takes the record that the writes before it have left to the next -/
def Made (S : Tree) (edits : List Edit) (e : Edit) (before after : Record) : Prop :=
  ∃ earlier later, edits = earlier ++ e :: later ∧ before = (ofSnapshot S).editAll earlier ∧ before.edit e = .ok after

/-- some write of a run at or above a place found or left no object there -/
def Reported (S : Tree) (edits : List Edit) (p : List String) : Prop :=
  ∃ e before after, Made S edits e before after ∧ e.place <+: p ∧
    (before.attributes.outline p ≠ .object ∨ after.attributes.outline p ≠ .object)

theorem Reported.append {edits : List Edit} {p : List String} (h : Reported S edits p) (more : List Edit) :
    Reported S (edits ++ more) p := by
  obtain ⟨e, before, after, ⟨earlier, later, rfl, hb, ha⟩, hrest⟩ := h
  exact ⟨e, before, after, ⟨earlier, later ++ more, by simp, hb, ha⟩, hrest⟩

/-- **What is tracked was reported** by some write of the run. -/
theorem reported_of_tracked (hS : S.WellFormed) (pS : S.PlainKeys) {edits : List Edit}
    (he : ∀ e ∈ edits, e.WellFormed ∧ e.PlainKeys) {k : String}
    (hk : k ∈ Tree.keys ((ofSnapshot S).editAll edits).tracker.entries) : Reported S edits (Dotted.components k) := by
  induction edits using List.reverseRecOn with
  | nil => simp [editAll, ofSnapshot, Tracker.empty] at hk
  | append_singleton edits e ih =>
    have hes : ∀ e ∈ edits, e.WellFormed ∧ e.PlainKeys := fun e h => he e (List.mem_append_left _ h)
    rw [editAll_snoc] at hk
    split at hk
    · rename_i r' hr
      have hsync := synced_editAll hS pS hes
      obtain ⟨hew, hep⟩ := he e (by simp)
      obtain ⟨-, -, us, ht, hus, -⟩ := hsync.changes hew hep hr
      rw [ht] at hk
      rcases Tracker.mem_keys_recordAll hsync.sound.toOrdered hk with hk | hk
      · obtain ⟨c, hc, rfl⟩ := List.mem_map.1 hk
        obtain ⟨u, hu, rfl⟩ := List.mem_map.1 hc
        obtain ⟨h1, -, h3, -, h5⟩ := hus u hu
        rw [atKeys, Dotted.components_ofKeys h3]
        exact ⟨e, _, r', ⟨edits, [], rfl, rfl, hr⟩, h1, h5⟩
      · exact (ih hes hk).append [e]
    · exact (ih hes hk).append [e]

/-- **Replaying what is tracked over the snapshot gives the attributes**, once empty parts are gone, after every run of
tracked writes. Setting a top-level name is such a write, without hops. -/
theorem stripped_replay_editAll (hS : S.WellFormed) (pS : S.PlainKeys) {edits : List Edit}
    (he : ∀ e ∈ edits, e.WellFormed ∧ e.PlainKeys) :
    (((ofSnapshot S).editAll edits).tracker.replay S).stripped.same
      ((ofSnapshot S).editAll edits).attributes.stripped = true ∧
    ∀ name value, ((ofSnapshot S).editAll edits).set name value =
      ((ofSnapshot S).editAll edits).edit ⟨[], .set name value⟩ := by
  have h := synced_editAll hS pS he
  exact ⟨Tree.stripped_same_of_shows (Tracker.wellFormed_replay h.sound hS) h.wellFormed h.shows, set_eq_edit _⟩

/-- an object cleared, made anew, and written below its list -/
theorem stripped_replay_made_anew :
    let S : Tree := [("base", .object [("name", .string "Ada"), ("tags", .list [.object [("label", .string "x")]])])]
    let edits : List Edit :=
      [⟨[], .set "base" .null⟩,
        ⟨[], .set "base" (.object [("tags", .list [.object [("a.b", .string "y")]])])⟩,
        ⟨[.child "base", .item "tags" 0], .set "label" (.string "z")⟩]
    ((ofSnapshot S).editAll edits).attributes =
      [("base", .object [("tags", .list [.object [("a.b", .string "y"), ("label", .string "z")]])])] ∧
    (((ofSnapshot S).editAll edits).tracker.replay S).stripped.same
      ((ofSnapshot S).editAll edits).attributes.stripped = true :=
  ⟨rfl, (stripped_replay_editAll (by decide) (by decide) (by decide)).1⟩

end Record

end ContactSync
