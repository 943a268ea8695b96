/-
Entries below entries that hold objects.

A write below a pending object goes into the object, so that nothing else need be tracked there (`Sealed`). Recording
looks at the first entry above the path, which is the topmost (`Ordered.ancestor?_topmost`). When that one holds an
object, the write goes into it. When it holds none, a pending object further down is not seen: it is screened from the
path (`Screened`), and a second entry arises below it.

- `record_inside`, `record_of_screened`: what a recording does in the two cases.
- `sealed_record_iff`, `sealed_run_iff`: one recording breaks the seal exactly when it is screened, and so a row of them.
- `sealed_throughout_iff`: all of it, over every row; and whenever an entry lies below an object, a value that is no
  object stands above both.
-/
import ContactSync.Proofs.Replay

namespace ContactSync

namespace Tracker

open Dotted (isBelow below?)

/-- no entry lies below one that holds an object -/
def Sealed (t : Tracker) : Prop :=
  ∀ e ∈ t.entries, e.2.isObject = true → ∀ f ∈ t.entries, isBelow e.1 f.1 = false

/-- an object is pending above a path, but the topmost entry above the path holds none -/
def Screened (t : Tracker) (path : String) : Prop :=
  (∃ e ∈ t.entries, e.2.isObject = true ∧ isBelow e.1 path = true) ∧
    ∃ a ∈ t.entries, a.2.isObject = false ∧ isBelow a.1 path = true ∧ ∀ f ∈ t.entries, isBelow f.1 a.1 = false

instance : DecidablePred Sealed := fun t =>
  inferInstanceAs (Decidable (∀ e ∈ t.entries, e.2.isObject = true → ∀ f ∈ t.entries, isBelow e.1 f.1 = false))

instance (t : Tracker) : DecidablePred t.Screened := fun path =>
  inferInstanceAs (Decidable ((∃ e ∈ t.entries, e.2.isObject = true ∧ isBelow e.1 path = true) ∧
    ∃ a ∈ t.entries, a.2.isObject = false ∧ isBelow a.1 path = true ∧ ∀ f ∈ t.entries, isBelow f.1 a.1 = false))

variable {t : Tracker} {path : String} {value : Json}

/-! ## The topmost entry -/

/-- above a path that has an entry above it, one is the topmost -/
theorem Ordered.exists_topmost (h : Ordered t) (he : ∃ e ∈ t.entries, isBelow e.1 path = true) :
    ∃ a ∈ t.entries, isBelow a.1 path = true ∧ ∀ f ∈ t.entries, isBelow f.1 a.1 = false := by
  obtain ⟨e, he, heb⟩ := he
  cases hanc : ancestor? path t.entries with
  | none =>
    rw [ancestor?_eq_none hanc e he] at heb
    cases heb
  | some found =>
    obtain ⟨above, v, rest⟩ := found
    obtain ⟨hr, pre, post, heq, -⟩ := ancestor?_eq_some hanc
    have hmem : (above, v) ∈ t.entries := by rw [heq]; simp
    have hb : isBelow above path = true := Dotted.isBelow_of_below? hr
    exact ⟨_, hmem, hb, fun f hf => h.ancestor?_topmost hanc f.1 (Tree.mem_keys_of_mem hf)⟩

theorem Ordered.topmost_unique (h : Ordered t) {a b : String × Json} (ha : a ∈ t.entries) (hb : b ∈ t.entries)
    (hap : isBelow a.1 path = true) (hbp : isBelow b.1 path = true) (hatop : ∀ f ∈ t.entries, isBelow f.1 a.1 = false)
    (hbtop : ∀ f ∈ t.entries, isBelow f.1 b.1 = false) : a = b := by
  rcases Dotted.isBelow_chain hap hbp with hab | hab | hab
  · exact h.eq_of_path ha hb hab
  · rw [hbtop a ha] at hab; cases hab
  · rw [hatop b hb] at hab; cases hab

theorem Ordered.below_topmost (h : Ordered t) {a : String × Json} (ha : a ∈ t.entries) (ho : a.2.isObject = true)
    (htop : ∀ f ∈ t.entries, isBelow f.1 a.1 = false) : ∀ f ∈ t.entries, isBelow a.1 f.1 = false := by
  have htop' : ∀ k ∈ Tree.keys t.entries, isBelow k a.1 = false := by
    intro k hk
    obtain ⟨f, hf, rfl⟩ := List.mem_map.1 hk
    exact htop f hf
  exact fun f hf => h.closed a ha ho htop' f.1 (Tree.mem_keys_of_mem hf)

/-- **An entry below an object lies below a value that is none**, which stands above the object too. -/
theorem Ordered.leaf_above (h : Ordered t) {e f : String × Json} (he : e ∈ t.entries) (ho : e.2.isObject = true)
    (hf : f ∈ t.entries) (hef : isBelow e.1 f.1 = true) :
    ∃ a ∈ t.entries, a.2.isObject = false ∧ isBelow a.1 e.1 = true := by
  have habove : ∃ a ∈ t.entries, isBelow a.1 e.1 = true := by
    by_contra hno
    push Not at hno
    have hfree := h.below_topmost he ho (fun a ha => by simpa using hno a ha) f hf
    rw [hef] at hfree
    cases hfree
  obtain ⟨a, ha, hae, htop⟩ := h.exists_topmost habove
  refine ⟨a, ha, ?_, hae⟩
  by_contra hao
  rw [Bool.not_eq_false] at hao
  rw [h.below_topmost ha hao htop e he] at hae
  cases hae

/-! ## One recording -/

/-- entries above a path are not dropped by a recording at it -/
theorem mem_outside_of_above {e : String × Json} (he : e ∈ t.entries) (hb : isBelow e.1 path = true) :
    e ∈ outside path t.entries :=
  mem_outside.2 ⟨he, Dotted.isBelow_asymm hb⟩

/-- **A write that is not screened from an object above it goes into one**, and no entry is new. -/
theorem record_inside (h : Ordered t) (ho : ∃ e ∈ t.entries, e.2.isObject = true ∧ isBelow e.1 path = true)
    (hs : ¬t.Screened path) (value : Json) :
    ∃ above inner rest, (above, .object inner) ∈ t.entries ∧ below? above path = some rest ∧
      (t.record path value).get? above = some (.object (Tree.setDotted rest value inner)) ∧
      Tree.keys (t.record path value).entries = Tree.keys (outside path t.entries) := by
  have hnodup := (h.outside path).unique
  rcases record_cases h path value with ⟨pre, above, inner, post, rest, heq, hr, -, hrec⟩ | ⟨hleaf, -⟩
  · have hmem : (above, .object inner) ∈ outside path t.entries := by rw [heq]; simp
    have hkeys : Tree.keys (t.record path value).entries = Tree.keys (outside path t.entries) := by
      rw [hrec, heq]
      simp [Tree.keys]
    refine ⟨above, inner, rest, (mem_outside.1 hmem).1, hr, ?_, hkeys⟩
    apply Tree.get?_of_mem (hkeys ▸ hnodup)
    rw [hrec]
    simp
  · -- the topmost entry above the path would hold an object, and have one without below it
    exfalso
    obtain ⟨e, he, heo, heb⟩ := ho
    obtain ⟨a, ha, hab, htop⟩ := h.exists_topmost ⟨e, he, heb⟩
    have hao : a.2.isObject = true := by
      by_contra hao
      exact hs ⟨⟨e, he, heo, heb⟩, a, ha, by simpa using hao, hab, htop⟩
    obtain ⟨b, hb, hbo, hbb⟩ := hleaf e (mem_outside_of_above he heb) heb
    have hb := (mem_outside.1 hb).1
    rcases Dotted.isBelow_chain hab hbb with hk | hk | hk
    · rw [h.eq_of_path ha hb hk, hbo] at hao
      cases hao
    · rw [h.below_topmost ha hao htop b hb] at hk; cases hk
    · rw [htop b hb] at hk; cases hk

/-- **A write that is screened from the objects above it makes an entry of its own.** -/
theorem record_of_screened (h : Ordered t) (hs : t.Screened path) (value : Json) :
    (t.record path value).entries = Tree.insert path value (outside path t.entries) := by
  obtain ⟨-, a, ha, hao, hab, htop⟩ := hs
  rcases record_cases h path value with ⟨pre, above, inner, post, rest, heq, hr, hapart, -⟩ | ⟨-, hrec⟩
  · exfalso
    have hmem : (above, .object inner) ∈ outside path t.entries := by rw [heq]; simp
    have hb : isBelow above path = true := Dotted.isBelow_of_below? hr
    have hatop : ∀ f ∈ (⟨outside path t.entries⟩ : Tracker).entries, isBelow f.1 a.1 = false := fun f hf =>
      htop f (mem_outside.1 hf).1
    have := (h.outside path).topmost_unique (mem_outside_of_above ha hab) hmem hab hb hatop fun f hf =>
      (hapart f.1 (Tree.mem_keys_of_mem hf)).2
    rw [this] at hao
    cases hao
  · exact hrec

/-- **A recording breaks the seal exactly when it is screened.** -/
theorem sealed_record_iff (h : Ordered t) (hs : t.Sealed) (path : String) (value : Json) :
    (t.record path value).Sealed ↔ ¬t.Screened path := by
  constructor
  · intro hafter hscreened
    have hrec := record_of_screened h hscreened value
    obtain ⟨⟨e, he, heo, heb⟩, -⟩ := hscreened
    have hne : path ≠ e.1 := by
      rintro rfl
      rw [Dotted.isBelow_irrefl] at heb
      cases heb
    have hfree := hafter e ?_ heo (path, value) ?_
    · rw [heb] at hfree; cases hfree
    · rw [hrec]
      apply Tree.mem_of_get?
      rw [Tree.get?_insert, if_neg hne]
      exact Tree.get?_of_mem (h.outside path).unique (mem_outside_of_above he heb)
    · rw [hrec]
      exact Tree.mem_of_get? (Tree.get?_insert_self _ _ _)
  · intro hclear e he heo f hf
    rcases record_cases h path value with ⟨pre, above, inner, post, rest, heq, -, -, hrec⟩ | ⟨-, hrec⟩
    · -- the paths are those of before, and so are the entries that hold objects
      have hold : ∀ e ∈ (t.record path value).entries, ∃ e' ∈ t.entries, e'.1 = e.1 ∧ e'.2.isObject = e.2.isObject := by
        intro e he
        have hkept : ∀ e' ∈ pre ++ (above, .object inner) :: post, e' ∈ t.entries := fun e' he' =>
          (mem_outside.1 (heq ▸ he')).1
        rw [hrec, List.mem_append, List.mem_cons] at he
        rcases he with he | rfl | he
        · exact ⟨e, hkept e (by simp [he]), rfl, rfl⟩
        · exact ⟨(above, .object inner), hkept _ (by simp), rfl, rfl⟩
        · exact ⟨e, hkept e (by simp [he]), rfl, rfl⟩
      obtain ⟨e', he', hek, heo'⟩ := hold e he
      obtain ⟨f', hf', hfk, -⟩ := hold f hf
      rw [← hek, ← hfk]
      exact hs e' he' (heo'.trans heo) f' hf'
    · have hat : path ∈ Tree.keys (t.record path value).entries := by
        rw [hrec]
        exact Tree.mem_keys_insert.2 (.inl rfl)
      rw [hrec] at he hf
      rcases Tree.mem_insert he with rfl | he
      · rcases Tree.mem_insert hf with rfl | hf
        · exact Dotted.isBelow_irrefl _
        · exact (mem_outside.1 hf).2
      · have he := (mem_outside.1 he).1
        rcases Tree.mem_insert hf with rfl | hf
        · -- a write below the object would have gone inside, unless the path was tracked there already
          by_contra hb
          rw [Bool.not_eq_false] at hb
          obtain ⟨-, -, -, -, -, -, hkeys⟩ := record_inside h ⟨e, he, heo, hb⟩ hclear value
          rw [hkeys] at hat
          obtain ⟨g, hg, hgk⟩ := List.mem_map.1 hat
          have hfree := hs e he heo g (mem_outside.1 hg).1
          rw [hgk, hb] at hfree
          cases hfree
        · exact hs e he heo f (mem_outside.1 hf).1

/-! ## A row of recordings -/

theorem sealed_empty : Sealed empty := by simp [Sealed, empty]

theorem ofChanges_concat (changes : List (String × Json)) (c : String × Json) :
    ofChanges (changes ++ [c]) = (ofChanges changes).record c.1 c.2 := by
  simp [ofChanges, recordAll, List.foldl_append]

theorem ordered_ofChanges (changes : List (String × Json)) : Ordered (ofChanges changes) :=
  ordered_recordAll ordered_empty changes

/-- **A row of recordings keeps the seal exactly when none of them is screened.** -/
theorem sealed_run_iff (changes : List (String × Json)) :
    (∀ pre, pre <+: changes → (ofChanges pre).Sealed) ↔
      ∀ pre c post, changes = pre ++ c :: post → ¬(ofChanges pre).Screened c.1 := by
  constructor
  · intro h pre c post heq
    have hbefore : (ofChanges pre).Sealed := h pre ⟨c :: post, heq.symm⟩
    have hafter : (ofChanges (pre ++ [c])).Sealed := h (pre ++ [c]) ⟨post, by simp [heq]⟩
    rw [ofChanges_concat] at hafter
    exact (sealed_record_iff (ordered_ofChanges pre) hbefore c.1 c.2).1 hafter
  · intro h pre hpre
    induction pre using List.reverseRecOn with
    | nil => exact sealed_empty
    | append_singleton pre c ih =>
      obtain ⟨post, hpost⟩ := hpre
      have heq : changes = pre ++ c :: post := by rw [← hpost]; simp
      rw [ofChanges_concat]
      exact (sealed_record_iff (ordered_ofChanges pre) (ih ⟨c :: post, heq.symm⟩) c.1 c.2).2 (h pre c post heq)

/-- **Objects stay sealed as long as no recording is screened from one.** Over every row of recordings: no entry ever
lies below an object exactly when none of them is made below an object that a topmost value without one screens.
Whatever the row, one more recording below an object goes into an object when it is not screened and makes an entry of
its own when it is; and an entry below an object has a value above it that is no object. -/
theorem sealed_throughout_iff (changes : List (String × Json)) :
    let t := ofChanges changes
    ((∀ pre, pre <+: changes → (ofChanges pre).Sealed) ↔
      ∀ pre c post, changes = pre ++ c :: post → ¬(ofChanges pre).Screened c.1) ∧
    (∀ path value, (∃ e ∈ t.entries, e.2.isObject = true ∧ isBelow e.1 path = true) →
      (¬t.Screened path → ∃ above inner rest, (above, .object inner) ∈ t.entries ∧ below? above path = some rest ∧
        (t.record path value).get? above = some (.object (Tree.setDotted rest value inner)) ∧
        Tree.keys (t.record path value).entries = Tree.keys (outside path t.entries)) ∧
      (t.Screened path → (t.record path value).entries = Tree.insert path value (outside path t.entries))) ∧
    ∀ e ∈ t.entries, e.2.isObject = true → ∀ f ∈ t.entries, isBelow e.1 f.1 = true →
      ∃ a ∈ t.entries, a.2.isObject = false ∧ isBelow a.1 e.1 = true := by
  intro t
  have ht : Ordered t := ordered_ofChanges changes
  refine ⟨sealed_run_iff changes, ?_, fun e he ho f hf hef => ht.leaf_above he ho hf hef⟩
  intro path value ho
  exact ⟨fun hs => record_inside ht ho hs value, fun hs => record_of_screened ht hs value⟩

/-- below a pending object nothing screens a write from it -/
theorem sealed_throughout_iff_inside :
    let t := ofChanges [("prova", .object [("a", .string "b")])]
    ((∃ e ∈ t.entries, e.2.isObject = true ∧ isBelow e.1 "prova.c" = true) ∧ ¬t.Screened "prova.c") ∧
    ∃ above inner rest, (above, .object inner) ∈ t.entries ∧ below? above "prova.c" = some rest ∧
      (t.record "prova.c" (.ofNat 1)).get? above = some (.object (Tree.setDotted rest (.ofNat 1) inner)) ∧
      Tree.keys (t.record "prova.c" (.ofNat 1)).entries = Tree.keys (outside "prova.c" t.entries) := by
  intro t
  have ho : ∃ e ∈ t.entries, e.2.isObject = true ∧ isBelow e.1 "prova.c" = true := by decide
  have hs : ¬t.Screened "prova.c" := by decide
  exact ⟨⟨ho, hs⟩, ((sealed_throughout_iff _).2.1 "prova.c" (.ofNat 1) ho).1 hs⟩

/-- a null with an object recorded below it: what is recorded below the object makes an entry of its own -/
theorem not_sealed_below_null :
    let changes : List (String × Json) := [("a", .null), ("a.b", .object []), ("a.b.c", .ofNat 1)]
    (∀ c ∈ changes, Dotted.Plain c.1) ∧ (ofChanges changes).entries = changes ∧ ¬(ofChanges changes).Sealed :=
  ⟨by decide, rfl, by decide⟩

end Tracker

end ContactSync
