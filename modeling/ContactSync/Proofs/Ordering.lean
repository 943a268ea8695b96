/-
The order of the pending changes, whatever is done to a tracker.

Recordings, refreshes, merges of any other tracker and clearings, with any texts and values, keep the entries in order
(`ordered_step`), and so does every run of them (`ordered_run`). The order is all that can be said of what a run leaves:
recording the entries of a tracker in order one by one gives it back (`ofChanges_entries`), so every such tracker is
left by some run (`ordered_iff_run`).

- `Ordered.lt_of_above`: of two tracked paths the one above stands first.
- `Ordered.ancestor?_eq_some_iff`: the first entry above a path is the one with the shortest path.
- `run_in_order`: what both say of every run, in terms of the texts alone.
-/
import ContactSync.Proofs.Recordings
import ContactSync.Proofs.Sealed

namespace ContactSync

namespace Tracker

open Dotted (isBelow below?)

/-! ## Runs -/

/-- what can be done to a tracker -/
inductive Operation where
  | take (recording : Recording)
  | refresh (path : String) (value : Json)
  | clear

def step (t : Tracker) : Operation → Tracker
  | .take recording => t.take recording
  | .refresh path value => t.refresh path value
  | .clear => empty

def run (t : Tracker) (operations : List Operation) : Tracker := operations.foldl step t

variable {t : Tracker}

theorem ordered_step (h : Ordered t) (o : Operation) : Ordered (t.step o) := by
  cases o with
  | take recording =>
    rw [step, take_eq_recordAll]
    exact ordered_recordAll h recording.changes
  | refresh path value =>
    rw [step, refresh]
    split_ifs
    · exact ordered_record h path value
    · exact h
  | clear => exact ordered_empty

/-- **Every run keeps the order.** -/
theorem ordered_run (h : Ordered t) (operations : List Operation) : Ordered (t.run operations) := by
  induction operations generalizing t with
  | nil => exact h
  | cons o operations ih => exact ih (ordered_step h o)

/-! ## The order is exact -/

theorem Ordered.later_not_above {pre post : Tree} (h : Ordered ⟨pre ++ post⟩) {a b : String} (ha : a ∈ Tree.keys pre)
    (hb : b ∈ Tree.keys post) : isBelow b a = false :=
  (List.pairwise_append.1 (Tree.keys_append pre post ▸ h.order)).2.2 a ha b hb

theorem Ordered.front {pre post : Tree} (h : Ordered ⟨pre ++ post⟩) : Ordered ⟨pre⟩ := by
  have hsub : (Tree.keys pre).Sublist (Tree.keys (pre ++ post)) := (List.sublist_append_left pre post).map Prod.fst
  refine ⟨hsub.nodup h.unique, h.order.sublist hsub, ?_⟩
  intro e he ho htop k hk
  refine h.closed e (List.mem_append_left post he) ho ?_ k (hsub.subset hk)
  intro k' hk'
  rw [Tree.keys_append] at hk'
  rcases List.mem_append.1 hk' with hk' | hk'
  · exact htop k' hk'
  · exact h.later_not_above (Tree.mem_keys_of_mem he) hk'

theorem Ordered.record_last {pre : Tree} {path : String} {value : Json} (h : Ordered ⟨pre ++ [(path, value)]⟩) :
    (⟨pre⟩ : Tracker).record path value = ⟨pre ++ [(path, value)]⟩ := by
  have hfront : Ordered ⟨pre⟩ := h.front
  have hkeys : Tree.keys (pre ++ [(path, value)]) = Tree.keys pre ++ [path] := Tree.keys_append pre _
  have hnew : path ∉ Tree.keys pre := by
    intro hp
    exact (List.nodup_append.1 (hkeys ▸ h.unique)).2.2 path hp path (List.mem_singleton_self path) rfl
  have hkept : Tracker.outside path pre = pre := by
    refine List.filter_eq_self.2 fun e he => ?_
    rw [h.later_not_above (Tree.mem_keys_of_mem he) (List.mem_singleton_self path)]
    rfl
  rcases record_cases hfront path value with ⟨before, above, inner, after, rest, heq, hr, hapart, -⟩ | ⟨-, hrec⟩
  · -- an object above the path that has nothing above it has nothing below it
    exfalso
    have hb : isBelow above path = true := Dotted.isBelow_of_below? hr
    have hmem : (above, .object inner) ∈ pre ++ [(path, value)] := by
      rw [← hkept, heq]
      simp
    have hfree := h.closed (above, .object inner) hmem rfl ?_ path ?_
    · rw [hb] at hfree
      cases hfree
    · intro k hk
      rw [hkeys] at hk
      rcases List.mem_append.1 hk with hk | hk
      · exact (hapart k (hkept.symm ▸ hk)).2
      · rw [List.mem_singleton.1 hk]
        exact Dotted.isBelow_asymm hb
    · rw [hkeys]
      simp
  · rw [hkept, Tree.insert_of_notMem hnew] at hrec
    rw [← hrec]

/-- **Recording the entries of a tracker in order gives it back.** -/
theorem ofChanges_entries (h : Ordered t) : ofChanges t.entries = t := by
  obtain ⟨entries⟩ := t
  induction entries using List.reverseRecOn with
  | nil => rfl
  | append_singleton pre e ih =>
    calc
      _ = (ofChanges pre).record e.1 e.2 := ofChanges_concat pre e
      _ = (⟨pre⟩ : Tracker).record e.1 e.2 := by rw [ih h.front]
      _ = ⟨pre ++ [e]⟩ := h.record_last

/-- **A tracker is in order exactly when some run leaves it.** -/
theorem ordered_iff_run : Ordered t ↔ ∃ operations, empty.run operations = t := by
  constructor
  · intro h
    refine ⟨t.entries.map fun e => .take (.change e.1 e.2), ?_⟩
    calc
      _ = ofChanges t.entries := List.foldl_map
      _ = t := ofChanges_entries h
  · rintro ⟨operations, rfl⟩
    exact ordered_run ordered_empty operations

/-! ## What the order says -/

theorem Ordered.lt_of_above (h : Ordered t) {i j : ℕ} {a b : String} (hi : (Tree.keys t.entries)[i]? = some a)
    (hj : (Tree.keys t.entries)[j]? = some b) (hab : isBelow a b = true) : i < j := by
  obtain ⟨hi', rfl⟩ := List.getElem?_eq_some_iff.1 hi
  obtain ⟨hj', rfl⟩ := List.getElem?_eq_some_iff.1 hj
  by_contra hij
  rcases Nat.lt_or_eq_of_le (Nat.le_of_not_lt hij) with hlt | rfl
  · have := List.pairwise_iff_getElem.1 h.order j i hj' hi' hlt
    rw [hab] at this
    cases this
  · rw [Dotted.isBelow_irrefl] at hab
    cases hab

/-- entries below a path do not lie above it, so that dropping them does not change what is found above -/
theorem ancestor?_outside (path : String) (entries : Tree) :
    ancestor? path (outside path entries) = ancestor? path entries := by
  induction entries with
  | nil => rfl
  | cons e entries ih =>
    unfold ancestor? outside at ih ⊢
    rw [List.filter_cons]
    split_ifs with hkeep
    · rw [List.findSome?_cons, List.findSome?_cons, ih]
    · have hb : isBelow path e.1 = true := by simpa using hkeep
      have hnone : below? e.1 path = none := by simpa [isBelow] using Dotted.isBelow_asymm hb
      rw [List.findSome?_cons, hnone, ih]
      rfl

/-- what is found above a path has the shortest path of all above it -/
theorem Ordered.shortest_of_ancestor? (h : Ordered t) {path above rest : String} {v : Json}
    (hanc : ancestor? path t.entries = some (above, v, rest)) :
    (above, v) ∈ t.entries ∧
      ∀ k ∈ Tree.keys t.entries, isBelow k path = true → k = above ∨ above.length < k.length := by
  obtain ⟨hr, pre, post, heq, -⟩ := ancestor?_eq_some hanc
  refine ⟨by rw [heq]; simp, ?_⟩
  intro k hk hkp
  rcases Dotted.isBelow_chain hkp (Dotted.isBelow_of_below? hr) with hka | hka | hka
  · exact .inl hka
  · rw [h.ancestor?_topmost hanc k hk] at hka
    cases hka
  · exact .inr (Dotted.length_lt_of_isBelow hka)

/-- **The first entry above a path is the one with the shortest path**, whenever there is any. -/
theorem Ordered.ancestor?_eq_some_iff (h : Ordered t) {path above rest : String} {v : Json} :
    ancestor? path t.entries = some (above, v, rest) ↔
      (above, v) ∈ t.entries ∧ below? above path = some rest ∧
        ∀ k ∈ Tree.keys t.entries, isBelow k path = true → above.length ≤ k.length := by
  constructor
  · intro hanc
    obtain ⟨hmem, hshort⟩ := h.shortest_of_ancestor? hanc
    refine ⟨hmem, (ancestor?_eq_some hanc).1, ?_⟩
    intro k hk hkp
    rcases hshort k hk hkp with rfl | hlt
    · exact Nat.le_refl _
    · exact Nat.le_of_lt hlt
  · rintro ⟨hmem, hr, hshort⟩
    have hb : isBelow above path = true := Dotted.isBelow_of_below? hr
    rcases hanc : ancestor? path t.entries with _ | ⟨a, w, r⟩
    · rw [ancestor?_eq_none hanc _ hmem] at hb
      cases hb
    · -- neither of the two is shorter, so they are one
      obtain ⟨hmem', hshort'⟩ := h.shortest_of_ancestor? hanc
      have hr' := (ancestor?_eq_some hanc).1
      have hle := hshort a (Tree.mem_keys_of_mem hmem') (Dotted.isBelow_of_below? hr')
      obtain rfl : above = a := (hshort' above (Tree.mem_keys_of_mem hmem) hb).resolve_right (Nat.not_lt.2 hle)
      obtain rfl : w = v := congrArg Prod.snd (h.eq_of_path hmem' hmem rfl)
      obtain rfl : rest = r := Option.some.inj (hr.symm.trans hr')
      rfl

/-- **Pending changes stand in order.** After any run of recordings, refreshes, merges and clearings, with any texts and
values, no path is tracked twice, and of two paths of which one continues the other after a point the shorter stands
first. An object that has no tracked path above it has none below it. What a recording finds above its path is the
entry with the shortest path of all above it. -/
theorem run_in_order (operations : List Operation) :
    let t := empty.run operations
    let paths := Tree.keys t.entries
    paths.Nodup ∧
    (∀ (i j : ℕ) (k rest : String), paths[i]? = some k → paths[j]? = some (k ++ "." ++ rest) → i < j) ∧
    (∀ k members, (k, Json.object members) ∈ t.entries → (∀ above ∈ paths, ∀ rest, k ≠ above ++ "." ++ rest) →
      ∀ below ∈ paths, ∀ rest, below ≠ k ++ "." ++ rest) ∧
    ∀ path above v rest, ancestor? path (outside path t.entries) = some (above, v, rest) ↔
      (above, v) ∈ t.entries ∧ path = above ++ "." ++ rest ∧
        ∀ k ∈ paths, ∀ further, path = k ++ "." ++ further → above.length ≤ k.length := by
  intro t paths
  have h : Ordered t := ordered_run ordered_empty operations
  refine ⟨h.unique, ?_, ?_, ?_⟩
  · intro i j k rest hi hj
    exact h.lt_of_above hi hj (Dotted.isBelow_iff.2 ⟨rest, rfl⟩)
  · intro k members hmem htop below hbelow
    rw [← Dotted.isBelow_eq_false_iff]
    exact h.closed _ hmem rfl (fun above habove => Dotted.isBelow_eq_false_iff.2 (htop above habove)) below hbelow
  · intro path above v rest
    rw [ancestor?_outside, h.ancestor?_eq_some_iff, Dotted.below?_eq_some_iff]
    simp only [Dotted.isBelow_iff, forall_exists_index]
    exact Iff.rfl

/-- what is merged below a clearing, a pending object beside it, and what is found above a path below all of them -/
theorem run_in_order_below_clearing :
    let operations : List Operation :=
      [.take (.change "a.b" (.ofNat 0)), .clear, .take (.change "a" .null), .take (.change "k" (.object [])),
        .take (.merge "a.b" ⟨[("", .object []), ("c", .ofNat 1)]⟩), .refresh "k.x" (.ofNat 2)]
    let t := empty.run operations
    let paths := Tree.keys t.entries
    t.entries = [("a", .null), ("k", .object [("x", .ofNat 2)]), ("a.b.", .object []), ("a.b.c", .ofNat 1)] ∧
    (paths[0]? = some "a" ∧ paths[3]? = some ("a" ++ "." ++ "b.c") ∧ 0 < 3) ∧
    ((∀ above ∈ paths, ∀ rest, "k" ≠ above ++ "." ++ rest) ∧ ∀ below ∈ paths, ∀ rest, below ≠ "k" ++ "." ++ rest) ∧
    (∀ k ∈ paths, ∀ further, "a.b.c.d" = k ++ "." ++ further → "a".length ≤ k.length) ∧
    ancestor? "a.b.c.d" (outside "a.b.c.d" t.entries) = some ("a", .null, "b.c.d") := by
  intro operations t paths
  have hentries : t.entries = [("a", .null), ("k", .object [("x", .ofNat 2)]), ("a.b.", .object []),
    ("a.b.c", .ofNat 1)] := rfl
  obtain ⟨-, hbefore, hfree, hfirst⟩ := run_in_order operations
  have hk : ("k", Json.object [("x", .ofNat 2)]) ∈ t.entries := by rw [hentries]; simp
  have htop : ∀ above ∈ paths, ∀ rest, "k" ≠ above ++ "." ++ rest := by
    simp only [← Dotted.isBelow_eq_false_iff]
    decide
  have ha : ("a", Json.null) ∈ t.entries := by rw [hentries]; simp
  have hlong : ∀ k ∈ paths, "a".length ≤ k.length := by decide
  have hshort : ∀ k ∈ paths, ∀ further, "a.b.c.d" = k ++ "." ++ further → "a".length ≤ k.length := fun k hk _ _ =>
    hlong k hk
  exact ⟨hentries, ⟨rfl, rfl, hbefore 0 3 "a" "b.c" rfl rfl⟩, ⟨htop, hfree "k" _ hk htop⟩, hshort,
    (hfirst "a.b.c.d" "a" .null "b.c.d").2 ⟨ha, rfl, hshort⟩⟩

end Tracker

end ContactSync
