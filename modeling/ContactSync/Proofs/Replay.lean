/-
A tracker says what its recordings said.

Recording drops entries, writes inside others and keeps old positions, so the entries are not the recordings. Their
replay is: `outline_replay_record` gives the replay after a recording as one more write on the replay before, whatever
the tracker is replayed over. What makes it so is the order of the entries, an invariant of every recording
(`Ordered`, `ordered_record`):
- no path is tracked twice;
- an entry never lies below a later one;
- below an entry that holds an object and lies below no other, nothing is tracked.
The order is about raw texts. The replay needs paths without empty pieces, and `Sound` adds this.
-/
import ContactSync.Proofs.Outline

namespace ContactSync

/-! ## Writes in a row -/

namespace Outline

variable {p : List String} {v : Json}

/-- a later write past which an earlier one can be moved -/
theorem writeAll_comm {us : List (List String × Json)} (h : ∀ u ∈ us, ¬p <+: u.1 ∧ ¬u.1 <+: p) (o : Outline) :
    (o.writeAll us).write p v = (o.write p v).writeAll us := by
  induction us generalizing o with
  | nil => rfl
  | cons u us ih =>
    obtain ⟨h1, h2⟩ := h u List.mem_cons_self
    rw [writeAll_cons, writeAll_cons, ih fun u hu => h u (List.mem_cons_of_mem _ hu), write_comm h1 h2]

theorem AgreeOff.writeAll {o o' : Outline} (h : AgreeOff p o o') (us : List (List String × Json)) :
    AgreeOff p (o.writeAll us) (o'.writeAll us) := by
  induction us generalizing o o' with
  | nil => exact h
  | cons u us ih => exact ih (h.write u.1 u.2)

/-- writes at or below a place do not matter off it -/
theorem AgreeOff.writeAll_filter {us : List (List String × Json)} {keep : List String × Json → Bool}
    (hkeep : ∀ u ∈ us, keep u = false → p <+: u.1) {o o' : Outline} (h : AgreeOff p o o') :
    AgreeOff p (o.writeAll us) (o'.writeAll (us.filter keep)) := by
  induction us generalizing o o' with
  | nil => exact h
  | cons u us ih =>
    have ih := @ih fun u hu => hkeep u (List.mem_cons_of_mem _ hu)
    rw [writeAll_cons, List.filter_cons]
    split_ifs with hu
    · exact ih (h.write u.1 u.2)
    · have hp := hkeep u List.mem_cons_self (by simpa using hu)
      exact ih (((agreeOff_write u.1 u.2 o).above hp).trans h)

/-- a write into an object that was written before others apart from it -/
theorem write_inside_writeAll {us : List (List String × Json)} {a r : List String} (hr : r ≠ [])
    (h : ∀ u ∈ us, ¬a <+: u.1 ∧ ¬u.1 <+: a) (t : Tree) (o : Outline) :
    ((o.write a (.object t)).writeAll us).write (a ++ r) v =
      (o.write a (.object (Tree.setAt r v t))).writeAll us := by
  have h' : ∀ u ∈ us, ¬(a ++ r) <+: u.1 ∧ ¬u.1 <+: a ++ r := by
    intro u hu
    refine ⟨fun hp => (h u hu).1 ((List.prefix_append a r).trans hp), ?_⟩
    intro hp
    rcases List.prefix_or_prefix_of_prefix hp (List.prefix_append a r) with hp | hp
    exacts [(h u hu).2 hp, (h u hu).1 hp]
  rw [writeAll_comm h', write_inside hr]

end Outline

namespace Tracker

open Dotted (isBelow below? components Plain)

/-! ## The order of the entries -/

/-- the entries as they are left by recordings, in terms of their texts -/
structure Ordered (t : Tracker) : Prop where
  unique : (Tree.keys t.entries).Nodup
  order : (Tree.keys t.entries).Pairwise fun a b => isBelow b a = false
  closed : ∀ e ∈ t.entries, e.2.isObject = true → (∀ k ∈ Tree.keys t.entries, isBelow k e.1 = false) →
    ∀ k ∈ Tree.keys t.entries, isBelow e.1 k = false

theorem ordered_empty : Ordered empty := ⟨by simp [empty], by simp [empty], by simp [empty]⟩

theorem mem_outside {path : String} {entries : Tree} {e : String × Json} :
    e ∈ outside path entries ↔ e ∈ entries ∧ isBelow path e.1 = false := by
  simp [outside, List.mem_filter]

theorem isBelow_of_mem_outside {path k : String} {entries : Tree} (h : k ∈ Tree.keys (outside path entries)) :
    isBelow path k = false := by
  obtain ⟨e, he, rfl⟩ := List.mem_map.1 h
  exact (mem_outside.1 he).2

theorem Ordered.outside {t : Tracker} (h : Ordered t) (path : String) : Ordered ⟨outside path t.entries⟩ := by
  have hsub : (Tree.keys (Tracker.outside path t.entries)).Sublist (Tree.keys t.entries) :=
    List.filter_sublist.map Prod.fst
  refine ⟨hsub.nodup h.unique, h.order.sublist hsub, ?_⟩
  intro e he ho ha k hk
  obtain ⟨he, hpe⟩ := mem_outside.1 he
  refine h.closed e he ho ?_ k (hsub.subset hk)
  intro k hk
  obtain ⟨f, hf, rfl⟩ := List.mem_map.1 hk
  -- an entry above this one was not dropped: it would lie below the path, and so would this one
  by_contra hfe
  rw [Bool.not_eq_false] at hfe
  by_cases hpf : isBelow path f.1 = true
  · rw [Dotted.isBelow_trans hpf hfe] at hpe; cases hpe
  · have := ha f.1 (Tree.mem_keys_of_mem (mem_outside.2 ⟨hf, by simpa using hpf⟩))
    rw [hfe] at this; cases this

theorem Ordered.eq_of_path {t : Tracker} (h : Ordered t) {a b : String × Json} (ha : a ∈ t.entries)
    (hb : b ∈ t.entries) (hk : a.1 = b.1) : a = b := by
  have hva := Tree.get?_of_mem h.unique ha
  have hvb := Tree.get?_of_mem h.unique hb
  rw [hk, hvb] at hva
  exact Prod.ext hk (Option.some.inj hva).symm

theorem ancestor?_eq_some {path above rest : String} {v : Json} {entries : Tree}
    (h : ancestor? path entries = some (above, v, rest)) :
    below? above path = some rest ∧
      ∃ pre post, entries = pre ++ (above, v) :: post ∧ ∀ e ∈ pre, isBelow e.1 path = false := by
  obtain ⟨pre, e, post, he, hf, hpre⟩ := List.findSome?_eq_some_iff.1 h
  obtain ⟨r, hr, heq⟩ := Option.map_eq_some_iff.1 hf
  obtain ⟨k, w⟩ := e
  simp only [Prod.mk.injEq] at heq
  obtain ⟨rfl, rfl, rfl⟩ := heq
  refine ⟨hr, pre, post, he, ?_⟩
  intro e he
  exact Dotted.isBelow_of_below?_eq_none (Option.map_eq_none_iff.1 (hpre e he))

theorem ancestor?_eq_none {path : String} {entries : Tree} (h : ancestor? path entries = none) :
    ∀ e ∈ entries, isBelow e.1 path = false := by
  intro e he
  exact Dotted.isBelow_of_below?_eq_none (Option.map_eq_none_iff.1 (List.findSome?_eq_none_iff.1 h e he))

/-- the first entry above a path is the topmost: any other above it would come before it -/
theorem Ordered.ancestor?_topmost {t : Tracker} (h : Ordered t) {path above rest : String} {v : Json}
    (hanc : ancestor? path t.entries = some (above, v, rest)) : ∀ k ∈ Tree.keys t.entries, isBelow k above = false := by
  obtain ⟨hr, pre, post, heq, hpre⟩ := ancestor?_eq_some hanc
  have hb : isBelow above path = true := Dotted.isBelow_of_below? hr
  intro k hk
  by_contra hka
  rw [Bool.not_eq_false] at hka
  have hord := h.order
  simp only [heq, Tree.keys, List.map_append, List.map_cons, List.mem_append, List.mem_cons] at hord hk
  rcases hk with hk | rfl | hk
  · obtain ⟨e, he, rfl⟩ := List.mem_map.1 hk
    have := hpre e he
    rw [Dotted.isBelow_trans hka hb] at this; cases this
  · rw [Dotted.isBelow_irrefl] at hka; cases hka
  · have := (List.pairwise_cons.1 (List.pairwise_append.1 hord).2.1).1 k hk
    rw [hka] at this; cases this

/-- **What a recording does.** The entries below the path are gone. Then either the first entry above the path holds an
object, lies apart from all others, and takes the value; or the path itself is written, and if there are entries above
it, one of them holds no object. -/
theorem record_cases {t : Tracker} (h : Ordered t) (path : String) (value : Json) :
    (∃ pre above inner post rest, outside path t.entries = pre ++ (above, .object inner) :: post ∧
      below? above path = some rest ∧
      (∀ k ∈ Tree.keys (outside path t.entries), isBelow above k = false ∧ isBelow k above = false) ∧
      (t.record path value).entries = pre ++ (above, .object (Tree.setDotted rest value inner)) :: post) ∨
    ((∀ e ∈ outside path t.entries, isBelow e.1 path = true →
        ∃ a ∈ outside path t.entries, a.2.isObject = false ∧ isBelow a.1 path = true) ∧
      (t.record path value).entries = Tree.insert path value (outside path t.entries)) := by
  have hk := h.outside path
  rcases hanc : ancestor? path (outside path t.entries) with _ | ⟨above, v, rest⟩
  · right
    refine ⟨?_, by simp only [record, hanc]⟩
    intro e he hb
    rw [ancestor?_eq_none hanc e he] at hb; cases hb
  obtain ⟨hr, pre, post, heq, hpre⟩ := ancestor?_eq_some hanc
  have hb : isBelow above path = true := Dotted.isBelow_of_below? hr
  have hmem : (above, v) ∈ outside path t.entries := by rw [heq]; simp
  cases hv : v.isObject with
  | false =>
    right
    refine ⟨fun e _ _ => ⟨_, hmem, hv, hb⟩, ?_⟩
    cases v <;> simp_all [record, Json.isObject]
  | true =>
    left
    obtain ⟨inner, rfl⟩ : ∃ inner, v = .object inner := by cases v <;> simp_all [Json.isObject]
    have hpa : above ∉ Tree.keys pre := by
      intro hmem
      obtain ⟨e, he, hea⟩ := List.mem_map.1 hmem
      have := hpre e he
      rw [hea, hb] at this; cases this
    have htop := hk.ancestor?_topmost hanc
    refine ⟨pre, above, inner, post, rest, heq, hr, fun k hk' => ⟨?_, htop k hk'⟩, ?_⟩
    · exact hk.closed _ hmem rfl htop k hk'
    · simp only [record, hanc]
      rw [heq, Tree.insert_append_cons hpa]

/-- **A recording keeps the order.** -/
theorem ordered_record {t : Tracker} (h : Ordered t) (path : String) (value : Json) :
    Ordered (t.record path value) := by
  have hk := h.outside path
  rcases record_cases h path value with ⟨pre, above, inner, post, rest, heq, -, hapart, hrec⟩ | ⟨habove, hrec⟩
  · have hkeys : Tree.keys (t.record path value).entries = Tree.keys (outside path t.entries) := by
      rw [hrec, heq]; simp [Tree.keys]
    refine ⟨hkeys ▸ hk.unique, hkeys ▸ hk.order, ?_⟩
    intro e he ho ha
    rw [hkeys] at ha ⊢
    rw [hrec] at he
    rcases List.mem_append.1 he with he | he
    · exact hk.closed e (by rw [heq]; simp [he]) ho ha
    · rcases List.mem_cons.1 he with rfl | he
      · exact fun k hk => (hapart k hk).1
      · exact hk.closed e (by rw [heq]; simp [he]) ho ha
  · refine ⟨hrec ▸ Tree.nodup_keys_insert hk.unique, ?_, ?_⟩
    · rw [hrec]
      by_cases hp : path ∈ Tree.keys (outside path t.entries)
      · rw [Tree.keys_insert_of_mem hp]; exact hk.order
      · rw [Tree.insert_of_notMem hp, Tree.keys, List.map_append, List.pairwise_append]
        refine ⟨hk.order, by simp, ?_⟩
        intro k hk b hb
        simp only [List.map_cons, List.map_nil, List.mem_singleton] at hb
        exact hb ▸ isBelow_of_mem_outside hk
    · intro e he ho ha k hkk
      rw [hrec] at he hkk ha
      rcases Tree.mem_insert he with rfl | he
      · rcases Tree.mem_keys_insert.1 hkk with rfl | hkk
        · exact Dotted.isBelow_irrefl _
        · exact isBelow_of_mem_outside hkk
      · have ha' : ∀ k ∈ Tree.keys (outside path t.entries), isBelow k e.1 = false := fun k hk =>
          ha k (Tree.mem_keys_insert.2 (Or.inr hk))
        have hc := hk.closed e he ho ha'
        rcases Tree.mem_keys_insert.1 hkk with rfl | hkk
        · -- an entry above the path that holds no object would lie above or below this one
          by_contra hek
          rw [Bool.not_eq_false] at hek
          obtain ⟨a, ham, hao, hab⟩ := habove e he hek
          rcases Dotted.isBelow_chain hab hek with hae | hae | hae
          · rw [hk.eq_of_path ham he hae, ho] at hao; cases hao
          · rw [ha' a.1 (Tree.mem_keys_of_mem ham)] at hae; cases hae
          · rw [hc a.1 (Tree.mem_keys_of_mem ham)] at hae; cases hae
        · exact hc k hkk

theorem ordered_recordAll {t : Tracker} (h : Ordered t) (changes : List (String × Json)) :
    Ordered (t.recordAll changes) := by
  induction changes generalizing t with
  | nil => exact h
  | cons c changes ih => exact ih (ordered_record h c.1 c.2)

/-! ## Sound trackers -/

/-- ordered, with paths that all name a place and values that are well formed -/
structure Sound (t : Tracker) : Prop extends Ordered t where
  plain : ∀ e ∈ t.entries, Plain e.1
  values : ∀ e ∈ t.entries, e.2.WellFormed

theorem sound_empty : Sound empty := ⟨ordered_empty, by simp [empty], by simp [empty]⟩

theorem sound_record {t : Tracker} (h : Sound t) {path : String} (hp : Plain path) {value : Json}
    (hv : value.WellFormed) : Sound (t.record path value) := by
  refine ⟨ordered_record h.toOrdered path value, fun e he => ?_, fun e he => ?_⟩ <;>
    rcases record_cases h.toOrdered path value with ⟨pre, above, inner, post, rest, heq, -, -, hrec⟩ | ⟨-, hrec⟩ <;>
    rw [hrec] at he
  · have hmem : ∀ f ∈ pre ++ (above, .object inner) :: post, Plain f.1 := fun f hf =>
      h.plain f (mem_outside.1 (heq ▸ hf)).1
    simp only [List.mem_append, List.mem_cons] at he
    rcases he with he | rfl | he
    · exact hmem e (by simp [he])
    · exact hmem (above, .object inner) (by simp)
    · exact hmem e (by simp [he])
  · rcases Tree.mem_insert he with rfl | he
    · exact hp
    · exact h.plain e (mem_outside.1 he).1
  · have hmem : ∀ f ∈ pre ++ (above, .object inner) :: post, f.2.WellFormed := fun f hf =>
      h.values f (mem_outside.1 (heq ▸ hf)).1
    simp only [List.mem_append, List.mem_cons] at he
    rcases he with he | rfl | he
    · exact hmem e (by simp [he])
    · have hin : Tree.WellFormed inner := hmem (above, .object inner) (by simp)
      exact hin.setAt hv _
    · exact hmem e (by simp [he])
  · rcases Tree.mem_insert he with rfl | he
    · exact hv
    · exact h.values e (mem_outside.1 he).1

/-! ## The replay -/

/-- the entries as writes at rows of keys -/
def writes (t : Tracker) : List (List String × Json) := t.entries.map fun e => (components e.1, e.2)

theorem outline_replay {t : Tracker} (h : Sound t) (base : Tree) :
    (t.replay base).outline = base.outline.writeAll t.writes :=
  Tree.outline_setAllDotted (fun e he => (h.plain e he).1) base

theorem wellFormed_replay {t : Tracker} (h : Sound t) {base : Tree} (hb : base.WellFormed) :
    (t.replay base).WellFormed :=
  hb.setAllDotted h.values

/-- entries whose texts lie apart have keys that do -/
theorem apart_components {a b : String} (ha : Plain a) (hb : Plain b) (hne : a ≠ b) (h1 : isBelow a b = false)
    (h2 : isBelow b a = false) : ¬components a <+: components b ∧ ¬components b <+: components a := by
  have hc : components a ≠ components b := fun hc => hne (Dotted.components_inj ha hb hc)
  constructor
  · intro hp
    rw [(Dotted.isBelow_iff_components ha hb).2 ⟨hp, hc⟩] at h1; cases h1
  · intro hp
    rw [(Dotted.isBelow_iff_components hb ha).2 ⟨hp, hc.symm⟩] at h2; cases h2

theorem Sound.outside {t : Tracker} (h : Sound t) (path : String) : Sound ⟨outside path t.entries⟩ :=
  ⟨h.toOrdered.outside path, fun e he => h.plain e (mem_outside.1 he).1, fun e he => h.values e (mem_outside.1 he).1⟩

/-- the entries that a recording drops leave no trace in what it writes -/
theorem write_writes_outside {t : Tracker} (h : Sound t) {path : String} (hp : Plain path) (value : Json)
    (o : Outline) :
    (o.writeAll t.writes).write (components path) value =
      (o.writeAll (writes ⟨outside path t.entries⟩)).write (components path) value := by
  have hf : writes ⟨outside path t.entries⟩ = t.writes.filter fun u => !isBelow path (Dotted.ofKeys u.1) := by
    rw [writes, writes, List.filter_map, Tracker.outside]
    congr 1
    apply List.filter_congr
    intro e he
    simp only [Function.comp, (h.plain e he).2]
  rw [hf]
  refine Outline.write_congr ((Outline.AgreeOff.refl _ _).writeAll_filter ?_)
  intro u hu hkeep
  obtain ⟨e, he, rfl⟩ := List.mem_map.1 hu
  simp only [(h.plain e he).2, Bool.not_eq_false'] at hkeep
  exact ((Dotted.isBelow_iff_components hp (h.plain e he)).1 hkeep).1

/-- entries after one that has none below it lie apart from it -/
theorem later_apart {t : Tracker} (h : Sound t) {pre post : Tree} {a : String} {v : Json}
    (heq : t.entries = pre ++ (a, v) :: post) (hbelow : ∀ k ∈ Tree.keys t.entries, isBelow a k = false) :
    ∀ u ∈ writes ⟨post⟩, ¬components a <+: u.1 ∧ ¬u.1 <+: components a := by
  intro u hu
  obtain ⟨e, he, rfl⟩ := List.mem_map.1 hu
  have hek : e.1 ∈ Tree.keys post := Tree.mem_keys_of_mem he
  have hmem : e ∈ t.entries := by rw [heq]; simp [he]
  have hord := h.order
  have huniq := h.unique
  simp only [heq, Tree.keys, List.map_append, List.map_cons] at hord huniq
  have h1 := (List.pairwise_cons.1 (List.pairwise_append.1 hord).2.1).1 e.1 hek
  have h2 := (List.nodup_cons.1 (List.nodup_append.1 huniq).2.1).1
  exact apart_components (h.plain (a, v) (by rw [heq]; simp)) (h.plain e hmem) (fun hae => h2 (hae ▸ hek))
    (hbelow e.1 (Tree.mem_keys_of_mem hmem)) h1

theorem writeAll_writes_split (pre post : Tree) (a : String) (v : Json) (o : Outline) :
    o.writeAll (writes ⟨pre ++ (a, v) :: post⟩) =
      ((o.writeAll (writes ⟨pre⟩)).write (components a) v).writeAll (writes ⟨post⟩) := by
  unfold writes
  rw [List.map_append, List.map_cons, Outline.writeAll_append, Outline.writeAll_cons]

/-- **Replay of a recording.** Over every tree, it is the replay before and one more write. -/
theorem outline_replay_record {t : Tracker} (h : Sound t) {path : String} (hp : Plain path) {value : Json}
    (hv : value.WellFormed) (base : Tree) :
    ((t.record path value).replay base).outline = (t.replay base).outline.write (components path) value := by
  have hk : Sound ⟨outside path t.entries⟩ := h.outside path
  rw [outline_replay (sound_record h hp hv), outline_replay h, write_writes_outside h hp]
  rcases record_cases h.toOrdered path value with ⟨pre, above, inner, post, rest, heq, hr, hapart, hrec⟩ | ⟨-, hrec⟩
  · -- the value goes into the object of an entry, which the later ones leave alone
    have hplain : Plain above := hk.plain (above, .object inner) (by rw [heq]; simp)
    obtain ⟨hcomp, hrest⟩ := Dotted.components_below? hplain hp hr
    have hpass := later_apart hk heq fun k hk => (hapart k hk).1
    have hsplit := fun v : Json => writeAll_writes_split pre post above v base.outline
    calc
      _ = ((base.outline.writeAll (writes ⟨pre⟩)).write (components above)
            (.object (Tree.setDotted rest value inner))).writeAll (writes ⟨post⟩) := by rw [← hsplit, ← hrec]
      _ = (((base.outline.writeAll (writes ⟨pre⟩)).write (components above) (.object inner)).writeAll
            (writes ⟨post⟩)).write (components above ++ components rest) value :=
        (Outline.write_inside_writeAll hrest hpass inner _).symm
      _ = _ := by rw [heq, hcomp, hsplit]
  · by_cases hin : path ∈ Tree.keys (outside path t.entries)
    · -- the value takes an old place, which the later entries leave alone
      obtain ⟨old, hold⟩ := Tree.mem_keys_iff.1 hin
      obtain ⟨pre, post, heq, hpre⟩ := Tree.split_of_get? hold
      have hpass := later_apart hk heq fun k hk => isBelow_of_mem_outside hk
      have hsplit := fun v : Json => writeAll_writes_split pre post path v base.outline
      rw [heq, Tree.insert_append_cons hpre] at hrec
      calc
        _ = ((base.outline.writeAll (writes ⟨pre⟩)).write (components path) value).writeAll (writes ⟨post⟩) := by
          rw [← hsplit, ← hrec]
        _ = (((base.outline.writeAll (writes ⟨pre⟩)).write (components path) old).write (components path)
              value).writeAll (writes ⟨post⟩) := by rw [Outline.write_absorb (List.prefix_refl _)]
        _ = (((base.outline.writeAll (writes ⟨pre⟩)).write (components path) old).writeAll (writes ⟨post⟩)).write
              (components path) value := (Outline.writeAll_comm hpass _).symm
        _ = _ := by rw [heq, hsplit]
    · unfold writes
      rw [hrec, Tree.insert_of_notMem hin, List.map_append, Outline.writeAll_append]
      rfl

theorem outline_replay_recordAll {t : Tracker} (h : Sound t) {changes : Tree}
    (hc : ∀ c ∈ changes, Plain c.1 ∧ c.2.WellFormed) (base : Tree) :
    Sound (t.recordAll changes) ∧ ((t.recordAll changes).replay base).outline =
      (t.replay base).outline.writeAll (changes.map fun c => (components c.1, c.2)) := by
  induction changes generalizing t with
  | nil => exact ⟨h, rfl⟩
  | cons c changes ih =>
    obtain ⟨hp, hv⟩ := hc c List.mem_cons_self
    obtain ⟨h1, h2⟩ := ih (sound_record h hp hv) fun c hc' => hc c (List.mem_cons_of_mem _ hc')
    refine ⟨h1, h2.trans ?_⟩
    rw [outline_replay_record h hp hv, List.map_cons, Outline.writeAll_cons]

end Tracker

end ContactSync
