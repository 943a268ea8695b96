/-
The outline of a tree: what stands at the end of every row of keys.

The order of keys is gone from an outline, everything else outside lists is in it. A write at a row of keys is one
operation on outlines (`write`, `outline_setAt`), and its laws are short there:
- `write_absorb`: a write above or at a place undoes what was written there before;
- `write_comm`: writes at places neither of which lies above the other commute;
- `write_inside`: a write below an object that was written is a write into that object.
-/
import ContactSync.Changes.Tracker
import ContactSync.Proofs.DottedText
import ContactSync.Proofs.Lookup
import Mathlib.Data.List.Infix

namespace ContactSync

/-! ## Outlines -/

/-- what stands at the end of a row of keys -/
inductive Spot where
  | nothing
  | object
  | leaf (value : Json)
  deriving Inhabited

/-- what stands at the end of every row of keys -/
abbrev Outline := List String → Spot

def Json.outline : Json → Outline
  | .object _, [] => .object
  | j, [] => .leaf j
  | .object members, k :: rest =>
    match Tree.get? k members with
    | some v => v.outline rest
    | none => .nothing
  | _, _ :: _ => .nothing
termination_by structural _ q => q

def Tree.outline (t : Tree) : Outline := (Json.object t).outline

/-- the outline of a value that may not be there -/
def Outline.ofOption : Option Json → Outline
  | some v => v.outline
  | none => fun _ => .nothing

namespace Json

@[simp] theorem outline_object_nil (t : Tree) : (Json.object t).outline [] = .object := rfl

theorem outline_object_cons (t : Tree) (k : String) (q : List String) :
    (Json.object t).outline (k :: q) = Outline.ofOption (Tree.get? k t) q := by
  unfold outline
  cases Tree.get? k t <;> rfl

/-- the members of a value, none unless it is an object -/
def members (v : Json) : Tree := v.object?.getD []

theorem outline_members_cons (v : Json) (k : String) (q : List String) :
    v.outline (k :: q) = Outline.ofOption (Tree.get? k v.members) q := by
  cases v with
  | object t => exact outline_object_cons t k q
  | _ => rfl

theorem WellFormed.members {v : Json} (h : v.WellFormed) : Tree.WellFormed v.members := by
  cases v with
  | object t => exact h
  | _ => exact Tree.wellFormed_nil

theorem outline_nil {j : Json} (h : j.object? = none) : j.outline [] = .leaf j := by
  cases j <;> simp_all [outline, object?]

theorem outline_cons {j : Json} (h : j.object? = none) (k : String) (q : List String) :
    j.outline (k :: q) = .nothing := by
  cases j <;> simp_all [outline, object?]

theorem outline_nil_ne_nothing (j : Json) : j.outline [] ≠ .nothing := by
  cases j <;> simp [outline]

theorem eq_object_of_outline {j : Json} (h : j.outline [] = .object) : ∃ t, j = .object t := by
  cases j <;> simp_all [outline]

theorem eq_of_outline {j x : Json} (h : j.outline [] = .leaf x) : j = x ∧ x.object? = none := by
  cases j <;> simp_all [outline] <;> subst h <;> rfl

end Json

namespace Tree

@[simp] theorem outline_nil (t : Tree) : t.outline [] = .object := rfl

theorem outline_cons (t : Tree) (k : String) (q : List String) :
    t.outline (k :: q) = Outline.ofOption (get? k t) q :=
  Json.outline_object_cons t k q

theorem outline_congr {t u : Tree} (h : ∀ k, get? k t = get? k u) : t.outline = u.outline := by
  funext q
  cases q with
  | nil => rfl
  | cons k q => rw [outline_cons, outline_cons, h]

theorem outline_empty {q : List String} (h : q ≠ []) : outline [] q = .nothing := by
  cases q with
  | nil => exact absurd rfl h
  | cons k q => rfl

theorem at?_cons_cons (k k' : String) (q : List String) (t : Tree) :
    at? (k :: k' :: q) t = (get? k t).bind fun v => v.object?.bind (at? (k' :: q)) := by
  rw [at?]
  · cases get? k t with
    | none => rfl
    | some v => cases v <;> rfl
  · simp

theorem setAt_cons_cons (k k' : String) (ks : List String) (v : Json) (t : Tree) :
    setAt (k :: k' :: ks) v t = insert k (.object (setAt (k' :: ks) v (childOrEmpty k t))) t := by
  rw [setAt]; simp

/-- a write below a key is a write into the object under it, where that is or would be made -/
theorem setAt_cons {ks : List String} (h : ks ≠ []) (k : String) (v : Json) (t : Tree) :
    setAt (k :: ks) v t = insert k (.object (setAt ks v (childOrEmpty k t))) t := by
  obtain ⟨k', ks, rfl⟩ := List.exists_cons_of_ne_nil h
  exact setAt_cons_cons k k' ks v t

/-- the outline at keys is the look of the value there -/
theorem outline_eq_at? {t : Tree} {q : List String} (h : q ≠ []) (r : List String) :
    t.outline (q ++ r) = Outline.ofOption (t.at? q) r := by
  induction q generalizing t with
  | nil => exact absurd rfl h
  | cons k q ih =>
    rw [List.cons_append, outline_cons]
    cases q with
    | nil => rfl
    | cons k' q =>
      rw [at?_cons_cons]
      cases get? k t with
      | none => rfl
      | some v =>
        cases v with
        | object members => exact ih (List.cons_ne_nil _ _)
        | _ => rfl

theorem at?_eq_none_iff {t : Tree} {q : List String} (h : q ≠ []) : t.at? q = none ↔ t.outline q = .nothing := by
  have he := outline_eq_at? (t := t) h []
  rw [List.append_nil] at he
  rw [he]
  cases t.at? q with
  | none => simp [Outline.ofOption]
  | some x => simpa [Outline.ofOption] using Json.outline_nil_ne_nothing x

theorem at?_eq_some_iff {t : Tree} {q : List String} (h : q ≠ []) {x : Json} (hx : x.object? = none) :
    t.at? q = some x ↔ t.outline q = .leaf x := by
  have he := outline_eq_at? (t := t) h []
  rw [List.append_nil] at he
  rw [he]
  cases ha : t.at? q with
  | none => simp [Outline.ofOption]
  | some y =>
    rw [Option.some.injEq, Outline.ofOption]
    constructor
    · rintro rfl; exact Json.outline_nil hx
    · intro hy; exact (Json.eq_of_outline hy).1

/-- a value that is no object, found by its keys -/
theorem at?_leaf_iff {t : Tree} {q : List String} {x : Json} :
    t.at? q = some x ∧ x.isObject = false ↔ t.outline q = .leaf x := by
  have hobj : x.isObject = false ↔ x.object? = none := by cases x <;> simp [Json.isObject, Json.object?]
  rw [hobj]
  by_cases hq : q = []
  · subst hq; simp [at?]
  constructor
  · rintro ⟨hx, ho⟩; exact (at?_eq_some_iff hq ho).1 hx
  · intro hx
    have ho : x.object? = none := by
      have he := outline_eq_at? (t := t) hq []
      rw [List.append_nil, hx] at he
      cases ha : t.at? q with
      | none => rw [ha] at he; cases he
      | some y => rw [ha] at he; exact (Json.eq_of_outline he.symm).2
    exact ⟨(at?_eq_some_iff hq ho).2 hx, ho⟩

end Tree

/-! ## Writing -/

namespace Outline

/-- the outline after a value is written at a row of keys: the value's own from there on, objects on the way -/
def write (ks : List String) (v : Json) (o : Outline) : Outline := fun q =>
  if ks <+: q then v.outline (q.drop ks.length) else if q <+: ks then .object else o q

def writeAll (writes : List (List String × Json)) (o : Outline) : Outline :=
  writes.foldl (fun o w => o.write w.1 w.2) o

variable {ks js q : List String} {v w : Json} {o o' : Outline}

theorem write_at (ks q : List String) (v : Json) (o : Outline) : o.write ks v (ks ++ q) = v.outline q := by
  unfold write
  rw [if_pos (List.prefix_append _ _), List.drop_left]

theorem write_on (h1 : ¬ks <+: q) (h2 : q <+: ks) : o.write ks v q = .object := by
  unfold write
  rw [if_neg h1, if_pos h2]

theorem write_off (h1 : ¬ks <+: q) (h2 : ¬q <+: ks) : o.write ks v q = o q := by
  unfold write
  rw [if_neg h1, if_neg h2]

@[simp] theorem write_nil (v : Json) (o : Outline) : o.write [] v = v.outline := by
  funext q; exact write_at [] q v o

theorem write_cons_nil (k : String) (ks : List String) : o.write (k :: ks) v [] = .object :=
  write_on (by simp) List.nil_prefix

theorem write_cons_cons (k k' : String) (ks q : List String) (v : Json) (o : Outline) :
    o.write (k :: ks) v (k' :: q) = if k = k' then write ks v (fun r => o (k' :: r)) q else o (k' :: q) := by
  unfold write
  simp only [List.cons_prefix_cons, List.length_cons, List.drop_succ_cons]
  by_cases hk : k = k'
  · simp [hk]
  · simp [hk, Ne.symm hk]

/-- two outlines hold the same, except at, above and below a place -/
def AgreeOff (ks : List String) (o o' : Outline) : Prop := ∀ q, ¬ks <+: q → ¬q <+: ks → o q = o' q

theorem AgreeOff.refl (ks : List String) (o : Outline) : AgreeOff ks o o := fun _ _ _ => rfl

theorem AgreeOff.trans {o₁ o₂ o₃ : Outline} (h : AgreeOff ks o₁ o₂) (h' : AgreeOff ks o₂ o₃) : AgreeOff ks o₁ o₃ :=
  fun q h1 h2 => (h q h1 h2).trans (h' q h1 h2)

theorem AgreeOff.above (h : AgreeOff js o o') (hp : ks <+: js) : AgreeOff ks o o' := by
  intro q h1 h2
  apply h q (fun hq => h1 (hp.trans hq))
  intro hq
  rcases List.prefix_or_prefix_of_prefix hp hq with h | h
  · exact h1 h
  · exact h2 h

theorem AgreeOff.write (h : AgreeOff ks o o') (js : List String) (w : Json) :
    AgreeOff ks (o.write js w) (o'.write js w) := by
  intro q h1 h2
  unfold Outline.write
  split_ifs
  · rfl
  · rfl
  · exact h q h1 h2

theorem agreeOff_write (ks : List String) (v : Json) (o : Outline) : AgreeOff ks (o.write ks v) o :=
  fun _ h1 h2 => write_off h1 h2

theorem write_congr (h : AgreeOff ks o o') : o.write ks v = o'.write ks v := by
  funext q
  unfold write
  split_ifs with h1 h2
  · rfl
  · rfl
  · exact h q h1 h2

/-- **A write undoes what was written at or below its place.** -/
theorem write_absorb (h : ks <+: js) : (o.write js w).write ks v = o.write ks v :=
  write_congr ((agreeOff_write js w o).above h)

/-- **Writes at places apart commute.** -/
theorem write_comm (h1 : ¬ks <+: js) (h2 : ¬js <+: ks) : (o.write js w).write ks v = (o.write ks v).write js w := by
  funext q
  by_cases hk : ks <+: q
  · obtain ⟨r, rfl⟩ := hk
    rw [write_at, write_off, write_at]
    · intro hj
      rcases List.prefix_or_prefix_of_prefix hj (List.prefix_append ks r) with h | h
      exacts [h2 h, h1 h]
    · exact fun hj => h1 ((List.prefix_append ks r).trans hj)
  by_cases hj : js <+: q
  · obtain ⟨r, rfl⟩ := hj
    rw [write_off hk fun h => h2 ((List.prefix_append js r).trans h), write_at, write_at]
  by_cases hk' : q <+: ks
  · rw [write_on hk hk']
    by_cases hj' : q <+: js
    · rw [write_on hj hj']
    · rw [write_off hj hj', write_on hk hk']
  · rw [write_off hk hk']
    by_cases hj' : q <+: js
    · rw [write_on hj hj', write_on hj hj']
    · rw [write_off hj hj', write_off hj hj', write_off hk hk']

theorem write_append_apply (p ks q : List String) (v : Json) (o : Outline) :
    o.write (p ++ ks) v (p ++ q) = write ks v (fun r => o (p ++ r)) q := by
  unfold write
  simp only [List.prefix_append_right_inj, List.length_append, List.drop_append, List.drop_eq_nil_of_le,
    Nat.le_add_right, List.nil_append, Nat.add_sub_cancel_left]

@[simp] theorem writeAll_nil (o : Outline) : o.writeAll [] = o := rfl

@[simp] theorem writeAll_cons (u : List String × Json) (us : List (List String × Json)) (o : Outline) :
    o.writeAll (u :: us) = (o.write u.1 u.2).writeAll us := rfl

theorem writeAll_append (us ws : List (List String × Json)) (o : Outline) :
    o.writeAll (us ++ ws) = (o.writeAll us).writeAll ws := List.foldl_append

/-- writes below a place are writes into what stands there -/
theorem writeAll_below (p q : List String) (us : List (List String × Json)) (o : Outline) :
    o.writeAll (us.map fun u => (p ++ u.1, u.2)) (p ++ q) = writeAll us (fun r => o (p ++ r)) q := by
  induction us generalizing o with
  | nil => rfl
  | cons u us ih =>
    rw [List.map_cons, writeAll_cons, writeAll_cons, ih]
    congr 1
    funext r
    exact write_append_apply p u.1 r u.2 o

end Outline

/-! ## Writes into trees -/

namespace Tree

theorem outline_childOrEmpty (k : String) (t : Tree) {q : List String} (hq : q ≠ []) :
    (childOrEmpty k t).outline q = t.outline (k :: q) := by
  rw [outline_cons, childOrEmpty]
  cases q with
  | nil => exact absurd rfl hq
  | cons k' q =>
    split
    · rename_i members hm
      rw [hm]; rfl
    · rename_i hno
      rw [outline_empty (List.cons_ne_nil _ _)]
      cases hk : get? k t with
      | none => rfl
      | some v =>
        cases v with
        | object members => exact absurd hk (hno members)
        | _ => rfl

/-- a new value under a key, itself the old one with a write in it -/
theorem outline_insert {t : Tree} {k : String} {v w : Json} {ks : List String}
    (hv : v.outline = Outline.write ks w (Outline.ofOption (get? k t))) :
    (insert k v t).outline = t.outline.write (k :: ks) w := by
  funext q
  cases q with
  | nil => rw [outline_nil, Outline.write_cons_nil]
  | cons k' q =>
    rw [Outline.write_cons_cons, outline_cons, get?_insert]
    split_ifs with hk
    · subst hk
      simp only [outline_cons]
      exact congrFun hv q
    · rw [outline_cons]

/-- an object that a write makes on its way shows nothing that was not there -/
theorem agreeOff_childOrEmpty (k k' : String) (ks : List String) (t : Tree) :
    Outline.AgreeOff (k' :: ks) (childOrEmpty k t).outline (Outline.ofOption (get? k t)) := by
  intro q _ h2
  have hq : q ≠ [] := by
    rintro rfl
    exact h2 List.nil_prefix
  rw [outline_childOrEmpty k t hq, outline_cons]

/-- **The outline after a write.** -/
theorem outline_setAt {ks : List String} (hks : ks ≠ []) (v : Json) (t : Tree) :
    (setAt ks v t).outline = t.outline.write ks v := by
  induction ks generalizing t with
  | nil => exact absurd rfl hks
  | cons k ks ih =>
    cases ks with
    | nil => exact outline_insert (by rw [Outline.write_nil])
    | cons k₂ ks =>
      rw [setAt_cons_cons]
      have hchild := agreeOff_childOrEmpty k k₂ ks t
      exact outline_insert ((ih (List.cons_ne_nil _ _) (childOrEmpty k t)).trans (Outline.write_congr hchild))

theorem WellFormed.childOrEmpty {t : Tree} (h : t.WellFormed) (k : String) : (childOrEmpty k t).WellFormed := by
  unfold Tree.childOrEmpty
  split
  · rename_i hk; exact h.get? hk
  · exact wellFormed_nil

theorem WellFormed.setAt {t : Tree} (h : t.WellFormed) {v : Json} (hv : v.WellFormed) (ks : List String) :
    (setAt ks v t).WellFormed := by
  induction ks generalizing t with
  | nil => exact h
  | cons k ks ih =>
    cases ks with
    | nil => exact h.insert hv k
    | cons k₂ ks =>
      rw [setAt_cons_cons]
      exact h.insert (ih (h.childOrEmpty k)) k

theorem WellFormed.setAllDotted {t : Tree} (h : t.WellFormed) {writes : Tree} (hw : ∀ e ∈ writes, e.2.WellFormed) :
    (setAllDotted t writes).WellFormed := by
  induction writes generalizing t with
  | nil => exact h
  | cons e writes ih =>
    exact ih (h.setAt (hw e List.mem_cons_self) _) fun e he => hw e (List.mem_cons_of_mem _ he)

theorem outline_setAllDotted {writes : Tree} (h : ∀ e ∈ writes, Dotted.components e.1 ≠ []) (t : Tree) :
    (setAllDotted t writes).outline = t.outline.writeAll (writes.map fun e => (Dotted.components e.1, e.2)) := by
  induction writes generalizing t with
  | nil => rfl
  | cons e writes ih =>
    have hs : (setDotted e.1 e.2 t).outline = t.outline.write (Dotted.components e.1) e.2 :=
      outline_setAt (h e List.mem_cons_self) _ _
    rw [List.map_cons, Outline.writeAll_cons, ← hs]
    exact ih (fun e he => h e (List.mem_cons_of_mem _ he)) _

end Tree

/-- **A write below an object that was written goes into that object.** -/
theorem Outline.write_inside {r : List String} (hr : r ≠ []) (ks : List String) (v : Json) (t : Tree) (o : Outline) :
    (o.write ks (.object t)).write (ks ++ r) v = o.write ks (.object (Tree.setAt r v t)) := by
  funext q
  by_cases hk : ks <+: q
  · obtain ⟨s, rfl⟩ := hk
    rw [write_append_apply, write_at]
    have hin : (fun s => o.write ks (.object t) (ks ++ s)) = t.outline := funext fun s => write_at ks s _ o
    rw [hin, ← Tree.outline_setAt hr]; rfl
  by_cases hq : q <+: ks
  · rw [write_on hk hq, write_on (fun h => hk ((List.prefix_append ks r).trans h)) (hq.trans (List.prefix_append ks r))]
  · rw [write_off hk hq, write_off (fun h => hk ((List.prefix_append ks r).trans h)), write_off hk hq]
    intro h
    rcases List.prefix_or_prefix_of_prefix h (List.prefix_append ks r) with h | h
    exacts [hq h, hk h]

/-! ## Plain keys outside lists -/

namespace Json

mutual
/-- every key on a way through objects can be named by a dotted text; lists are not looked into -/
def PlainKeys : Json → Prop
  | .object members => MembersPlain members
  | _ => True
termination_by structural j => j

def MembersPlain : List (String × Json) → Prop
  | [] => True
  | (k, v) :: rest => (Dotted.PlainKey k ∧ PlainKeys v) ∧ MembersPlain rest
termination_by structural members => members
end

mutual
/-- plain keys can be checked -/
def decidePlainKeys : (j : Json) → Decidable j.PlainKeys
  | .null => isTrue trivial
  | .bool _ => isTrue trivial
  | .number _ => isTrue trivial
  | .string _ => isTrue trivial
  | .list _ => isTrue trivial
  | .object members => decidePlain members
termination_by structural j => j

def decidePlain : (members : List (String × Json)) → Decidable (MembersPlain members)
  | [] => isTrue trivial
  | (_, v) :: rest => @instDecidableAnd _ _ (@instDecidableAnd _ _ inferInstance (decidePlainKeys v)) (decidePlain rest)
termination_by structural members => members
end

instance : DecidablePred PlainKeys := decidePlainKeys

theorem plainKeys_object_iff {members : Tree} :
    (Json.object members).PlainKeys ↔ ∀ e ∈ members, Dotted.PlainKey e.1 ∧ e.2.PlainKeys := by
  rw [PlainKeys]
  induction members with
  | nil => simp [MembersPlain]
  | cons e members ih => rw [MembersPlain, ih, List.forall_mem_cons]

theorem plainKeys_flat {j : Json} (h : j.object? = none) : j.PlainKeys := by
  cases j <;> simp_all [PlainKeys, object?]

/-- plain keys are the keys of the outline -/
theorem plainKeys_iff {j : Json} (h : j.WellFormed) :
    j.PlainKeys ↔ ∀ q, j.outline q ≠ .nothing → Dotted.PlainKeys q := by
  induction j using valueInduction with
  | scalar j hl ho =>
    refine ⟨?_, fun _ => plainKeys_flat ho⟩
    intro _ q hq
    cases q with
    | nil => intro k hk; simp at hk
    | cons k q => exact absurd (outline_cons ho k q) hq
  | list items _ =>
    refine ⟨?_, fun _ => plainKeys_flat rfl⟩
    intro _ q hq
    cases q with
    | nil => intro k hk; simp at hk
    | cons k q => exact absurd (outline_cons rfl k q) hq
  | object members ih =>
    obtain ⟨hn, hw⟩ := wellFormed_object_iff.1 h
    rw [plainKeys_object_iff]
    constructor
    · intro hp q hq
      cases q with
      | nil => intro k hk; simp at hk
      | cons k q =>
        rw [outline_object_cons] at hq
        cases hk : Tree.get? k members with
        | none => rw [hk] at hq; exact absurd rfl hq
        | some v =>
          rw [hk] at hq
          have hm := Tree.mem_of_get? hk
          have hrest := (ih _ hm (hw _ hm)).1 (hp _ hm).2 q hq
          intro k' hk'
          rcases List.mem_cons.1 hk' with rfl | hk'
          · exact (hp _ hm).1
          · exact hrest k' hk'
    · intro hq e he
      have hk : Tree.get? e.1 members = some e.2 := Tree.get?_of_mem hn he
      have hout : ∀ q, (Json.object members).outline (e.1 :: q) = e.2.outline q := fun q => by
        rw [outline_object_cons, hk]; rfl
      refine ⟨hq [e.1] ?_ e.1 List.mem_cons_self, (ih e he (hw e he)).2 ?_⟩
      · rw [hout]; exact outline_nil_ne_nothing e.2
      · intro q hne
        have := hq (e.1 :: q) (by rw [hout]; exact hne)
        exact fun k hk => this k (List.mem_cons_of_mem _ hk)

end Json

/-- every key outside lists is plain -/
def Tree.PlainKeys (t : Tree) : Prop := (Json.object t).PlainKeys

instance (t : Tree) : Decidable t.PlainKeys := inferInstanceAs (Decidable (Json.object t).PlainKeys)

end ContactSync
