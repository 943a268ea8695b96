/-
Reading a tree after a write, and writing it again.

What is read at or below a written row of keys is read in the written value (`Tree.at?_setAt_append`), and a row of keys
that neither extends the written one nor is extended by it reads what it read before (`Tree.at?_setAt_off`), whatever
the objects that the write makes or replaces on its way. A second write at the same keys is the only one that counts
(`Tree.setAt_setAt`), and writes that lie apart can change places (`Tree.same_setAt_comm`). A key further along is
looked up in the object below the first key, so all but the last follow by induction on the written keys; the last is a
law of outlines.

- `Tree.setDotted_laws`: the same for dotted texts, compared by their components.
-/
import ContactSync.Proofs.Places
import ContactSync.Record.Location

namespace ContactSync

namespace Tree

/-! ## Below the first key -/

theorem at?_cons {q : List String} (h : q ≠ []) (k : String) (t : Tree) :
    at? (k :: q) t = at? q (childOrEmpty k t) := by
  obtain ⟨k', q, rfl⟩ := List.exists_cons_of_ne_nil h
  have hnil : at? (k' :: q) [] = none := by cases q <;> rfl
  rw [at?_cons_cons, childOrEmpty]
  cases get? k t with
  | none => exact hnil.symm
  | some v => cases v <;> first | rfl | exact hnil.symm

/-- what is read behind a first key is read in the value under it -/
theorem at?_cons_eq_bind (k : String) (q : List String) (t : Tree) :
    at? (k :: q) t = (get? k t).bind (Json.at? (q.map Segment.key)) := by
  induction q generalizing k t with
  | nil =>
    rw [at?]
    cases get? k t <;> rfl
  | cons k' q ih =>
    rw [at?_cons_cons]
    congr 1
    funext v
    cases v with
    | object members => exact ih k' members
    | _ => rfl

/-- what is read below a key depends on the value under it alone -/
theorem at?_congr {k : String} {t u : Tree} (h : get? k t = get? k u) (q : List String) :
    at? (k :: q) t = at? (k :: q) u := by
  rw [at?_cons_eq_bind, at?_cons_eq_bind, h]

theorem childOrEmpty_insert_self (k : String) (v : Json) (t : Tree) : childOrEmpty k (insert k v t) = v.members := by
  rw [childOrEmpty, get?_insert_self]
  cases v <;> rfl

theorem get?_setAt_cons_of_ne {k k' : String} (h : k ≠ k') (p : List String) (v : Json) (t : Tree) :
    get? k' (setAt (k :: p) v t) = get? k' t := by
  cases p with
  | nil => exact (get?_insert k k' v t).trans (if_neg h)
  | cons k₂ p => rw [setAt_cons_cons, get?_insert, if_neg h]

/-- a key that is written twice holds the later value, in the same place -/
theorem insert_insert (k : String) (v w : Json) (t : Tree) : insert k w (insert k v t) = insert k w t := by
  induction t with
  | nil => simp [insert]
  | cons e t ih =>
    obtain ⟨k', u⟩ := e
    by_cases hk : k' = k
    · simp [insert, hk]
    · simp [insert, hk, ih]

/-! ## After a write -/

variable {p q : List String} {v w : Json}

/-- **What is read at or below a write is read in the written value.** -/
theorem at?_setAt_append (hp : p ≠ []) (r : List String) (v : Json) (t : Tree) :
    at? (p ++ r) (setAt p v t) = v.at? (r.map Segment.key) := by
  induction p generalizing t with
  | nil => exact absurd rfl hp
  | cons k p ih =>
    rw [List.cons_append]
    by_cases h : p = []
    · subst h
      rw [at?_cons_eq_bind, setAt, get?_insert_self]
      rfl
    · have hne : p ++ r ≠ [] := List.append_ne_nil_of_left_ne_nil h r
      rw [setAt_cons h, at?_cons hne, childOrEmpty_insert_self]
      exact ih h _

/-- **What was written is read back.** -/
theorem at?_setAt_self (hp : p ≠ []) (v : Json) (t : Tree) : at? p (setAt p v t) = some v := by
  have h := at?_setAt_append hp [] v t
  rwa [List.append_nil] at h

/-- **What lies off a write is read as before.** -/
theorem at?_setAt_off (h1 : ¬p <+: q) (h2 : ¬q <+: p) (t : Tree) : at? q (setAt p v t) = at? q t := by
  induction p generalizing q t with
  | nil => exact absurd List.nil_prefix h1
  | cons k p ih =>
    cases q with
    | nil => exact absurd List.nil_prefix h2
    | cons k' q =>
      by_cases hk : k = k'
      · subst hk
        rw [List.cons_prefix_cons, not_and] at h1 h2
        have hp : p ≠ [] := fun h => h1 rfl (h ▸ List.nil_prefix)
        have hq : q ≠ [] := fun h => h2 rfl (h ▸ List.nil_prefix)
        rw [setAt_cons hp, at?_cons hq, childOrEmpty_insert_self, at?_cons hq]
        exact ih (h1 rfl) (h2 rfl) _
      · exact at?_congr (get?_setAt_cons_of_ne hk p v t) q

/-! ## Two writes -/

/-- **Of two writes at the same keys the second counts**, and the keys keep their order. -/
theorem setAt_setAt (p : List String) (v w : Json) (t : Tree) : setAt p w (setAt p v t) = setAt p w t := by
  induction p generalizing t with
  | nil => rfl
  | cons k p ih =>
    by_cases h : p = []
    · subst h; exact insert_insert k v w t
    · rw [setAt_cons h, setAt_cons h, setAt_cons h, childOrEmpty_insert_self, insert_insert]
      exact congrArg (fun u => insert k (.object u) t) (ih (childOrEmpty k t))

/-- **Writes that lie apart commute**, but for the order of the keys that they make. -/
theorem same_setAt_comm {t : Tree} (ht : t.WellFormed) (hv : v.WellFormed) (hw : w.WellFormed) (h1 : ¬p <+: q)
    (h2 : ¬q <+: p) : (setAt q w (setAt p v t)).same (setAt p v (setAt q w t)) = true := by
  have hp : p ≠ [] := fun h => h1 (h ▸ List.nil_prefix)
  have hq : q ≠ [] := fun h => h2 (h ▸ List.nil_prefix)
  apply same_of_outline ((ht.setAt hv p).setAt hw q) ((ht.setAt hw q).setAt hv p)
  calc
    (setAt q w (setAt p v t)).outline = (t.outline.write p v).write q w := by rw [outline_setAt hq, outline_setAt hp]
    _ = (t.outline.write q w).write p v := Outline.write_comm h2 h1
    _ = (setAt p v (setAt q w t)).outline := by rw [outline_setAt hp, outline_setAt hq]

/-! ## Dotted texts -/

open Dotted (components)

/-- **Dotted writes and reads are a lens.** Texts are compared by their components, and one of them names a place. What
is written there is read back. A text apart from it reads what it read before, and a write there can come first or
second. A text further down reads the rest of its components in the written value. Of two writes the second counts. A
text without components writes nothing. -/
theorem setDotted_laws {p : String} (hp : components p ≠ []) (q : String) (v w : Json) (t : Tree) :
    getDotted? p (setDotted p v t) = some v ∧
    (¬components p <+: components q → ¬components q <+: components p →
      getDotted? q (setDotted p v t) = getDotted? q t ∧
      (t.WellFormed → v.WellFormed → w.WellFormed →
        (setDotted q w (setDotted p v t)).same (setDotted p v (setDotted q w t)) = true)) ∧
    (∀ rest, components q = components p ++ rest →
      getDotted? q (setDotted p v t) = v.at? (rest.map Segment.key)) ∧
    setDotted p w (setDotted p v t) = setDotted p w t ∧
    (components q = [] → setDotted q v t = t) := by
  refine ⟨at?_setAt_self hp v t, ?_, ?_, setAt_setAt _ v w t, ?_⟩
  · intro h1 h2
    exact ⟨at?_setAt_off h1 h2 t, fun ht hv hw => same_setAt_comm ht hv hw h1 h2⟩
  · intro rest hq
    rw [getDotted?, hq]
    exact at?_setAt_append hp rest v t
  · intro hq
    rw [setDotted, hq]
    rfl

/-- two places below an absent object, one of them through a list that has to go, with points to spare -/
theorem setDotted_laws_retyped :
    let t : Tree := [("a", .list [.null])]
    let v : Json := .object [("d", .ofNat 1)]
    (components ".a..b" ≠ [] ∧ ¬components ".a..b" <+: components "a.c" ∧ ¬components "a.c" <+: components ".a..b" ∧
      t.WellFormed ∧ v.WellFormed) ∧
    setDotted ".a..b" v t = [("a", .object [("b", v)])] ∧
    getDotted? "a.c" (setDotted ".a..b" v t) = getDotted? "a.c" t ∧
    (setDotted "a.c" .null (setDotted ".a..b" v t)).same (setDotted ".a..b" v (setDotted "a.c" .null t)) = true ∧
    getDotted? "a.b.d" (setDotted ".a..b" v t) = some (.ofNat 1) := by
  intro t v
  have hp : components ".a..b" ≠ [] := by decide
  have h1 : ¬components ".a..b" <+: components "a.c" := by decide
  have h2 : ¬components "a.c" <+: components ".a..b" := by decide
  have ht : t.WellFormed := by decide
  have hv : v.WellFormed := by decide
  obtain ⟨-, hoff, -⟩ := setDotted_laws hp "a.c" v .null t
  obtain ⟨-, -, hbelow, -⟩ := setDotted_laws hp "a.b.d" v .null t
  obtain ⟨hread, hcomm⟩ := hoff h1 h2
  exact ⟨⟨hp, h1, h2, ht, hv⟩, rfl, hread, hcomm ht hv trivial, hbelow ["d"] (by decide)⟩

end Tree

end ContactSync
