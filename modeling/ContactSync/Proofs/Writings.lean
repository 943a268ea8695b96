/-
Paths in writing.

Keys come into a text with points between them in two ways. The path of a write is written as a whole (`Path.dotted`).
A difference joins key after key below the text it has so far, and a merge joins a whole path below another
(`Dotted.join`). Both ways give one text for every path, whatever its keys (`Path.dotted_eq_foldl_join`). The components
of a text lead back to the keys. The rest is about plain keys, where texts and rows of keys say the same.

- `Path.along`: the path that keys lead along from the root, and `Path.dotted_along`, its text.
- `Path.writings_agree`: joined texts are texts of joined rows, the keys come back, and the text before a point at the
  start of another is the text of a shorter row, with what is left of the row after it.
-/
import ContactSync.Proofs.Edits

namespace ContactSync

open Dotted (components ofKeys join below? PlainKeys)

namespace Path

/-- **A path is written by joining its keys one after another**, list positions left out. -/
theorem dotted_eq_foldl_join (p : Path) : p.dotted = p.keys.foldl join "" := (Dotted.foldl_join p.keys).symm

/-! ## Along keys -/

/-- the path that keys lead along from the root -/
def along (ks : List String) : Path := ks.foldl key root

theorem along_eq (ks : List String) : along ks = ⟨ks.map Segment.key⟩ := by
  induction ks using List.reverseRecOn with
  | nil => rfl
  | append_singleton ks k ih =>
    calc
      _ = (along ks).key k := by simp [along, List.foldl_append]
      _ = ⟨(ks ++ [k]).map Segment.key⟩ := by rw [ih, key, List.map_append, List.map_singleton]

theorem dotted_along_eq_foldl_join (ks : List String) : (along ks).dotted = ks.foldl join "" := by
  rw [dotted_eq_foldl_join, along_eq, keys_map_key]

theorem dotted_along {ks : List String} (h : PlainKeys ks) : (along ks).dotted = ofKeys ks := by
  rw [along_eq, dotted_keys h]

/-! ## Texts and rows of keys -/

variable {ks js : List String}

/-- **Three writings of keys agree.** For plain keys, the path along them is written as they are joined one after
another, and its components are the keys. The text of some keys joined below that of others is the text of all. A text
starts with another and a point exactly when the keys of the other are a start of its own, and not all; and then what
follows, which is what a tracker takes for the path below, is the text of the keys that are left. -/
theorem writings_agree (hk : PlainKeys ks) (hj : PlainKeys js) :
    (along ks).dotted = ks.foldl join "" ∧
    components (along ks).dotted = ks ∧
    (js ≠ [] → join (along ks).dotted (along js).dotted = (along (ks ++ js)).dotted) ∧
    (ks ≠ [] →
      (((along ks).dotted ++ ".").toList <+: (along js).dotted.toList ↔ ks <+: js ∧ ks ≠ js) ∧
      (ks <+: js → ks ≠ js →
        (along js).dotted = (along ks).dotted ++ "." ++ (along (js.drop ks.length)).dotted ∧
        below? (along ks).dotted (along js).dotted = some (along (js.drop ks.length)).dotted)) := by
  have hboth : PlainKeys (ks ++ js) := fun k hmem => (List.mem_append.1 hmem).elim (hk k) (hj k)
  have hleft : PlainKeys (js.drop ks.length) := fun k hmem => hj k (List.mem_of_mem_drop hmem)
  refine ⟨dotted_along_eq_foldl_join ks, ?_, ?_, ?_⟩
  · rw [dotted_along hk, Dotted.components_ofKeys hk]
  · intro hne
    rw [dotted_along hk, dotted_along hj, dotted_along hboth, Dotted.join_ofKeys hk hne]
  · intro hne
    rw [dotted_along hk, dotted_along hj, dotted_along hleft]
    refine ⟨by rw [← Dotted.isBelow_iff_prefix, Dotted.isBelow_ofKeys hk hj hne], ?_⟩
    rintro ⟨tail, rfl⟩ hproper
    rw [List.drop_left]
    have htail : tail ≠ [] := by simpa using hproper
    have hrest : below? (ofKeys ks) (ofKeys (ks ++ tail)) = some (ofKeys tail) :=
      (Dotted.below?_ofKeys hk hj hne).2 ⟨tail, htail, rfl, rfl⟩
    exact ⟨Dotted.below?_eq_some_iff.1 hrest, hrest⟩

/-- keys of letters with accents, the last one a longer form of the one before -/
theorem writings_agree_accented :
    let ks := ["città", "è"]
    let js := ["città", "è", "èè"]
    (PlainKeys ks ∧ PlainKeys js ∧ js ≠ [] ∧ ks ≠ [] ∧ ks <+: js ∧ ks ≠ js) ∧
    (along ks).dotted = ks.foldl join "" ∧ components (along ks).dotted = ks ∧
    join (along ks).dotted (along js).dotted = (along (ks ++ js)).dotted ∧
    ((along ks).dotted ++ ".").toList <+: (along js).dotted.toList ∧
    below? "città.è" "città.è.èè" = some "èè" := by
  intro ks js
  have hks : PlainKeys ks := by decide
  have hjs : PlainKeys js := by decide
  have hprefix : ks <+: js ∧ ks ≠ js := by decide
  obtain ⟨hfold, hback, hjoin, hstart⟩ := writings_agree hks hjs
  obtain ⟨hiff, hslice⟩ := hstart (by decide)
  exact ⟨⟨hks, hjs, by decide, by decide, hprefix⟩, hfold, hback, hjoin (by decide), hiff.2 hprefix,
    (hslice hprefix.1 hprefix.2).2⟩

end Path

end ContactSync
