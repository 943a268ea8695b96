/-
A document says all that was asked, but not of which entity.

Criteria have the same document exactly when they are the same, and so have the queries that can be made, once all of
their entities are taken as one: nothing but the entity gets lost on the way to the wire. An operator that needs no
value sends none, and none is another document than null; and the lowering leaves out empty queries, which a combination
never holds (`shaped_of_built`).

- `Criterion.same_documents`: by induction on pairs of criteria, from the documents of one comparison and of one join.
- `Query.same_bodies`: by induction on a query and its parts, the parts one by one.
- `documents_faithful`: both, over every criterion and every query that can be made.
-/
import ContactSync.Proofs.Shapes

namespace ContactSync

/-! ## Documents of one level -/

namespace Wire

namespace Condition

/-- documents of comparisons agree when paths, operators and values do; no value agrees with no value only -/
theorem same_atomic (a b : String) (o p : Operator) (v w : Option Json) :
    (atomic a o v).toJson.same (atomic b p w).toJson = true ↔
      (a = b ∧ o = p) ∧ Option.Rel (fun x y => x.same y = true) v w := by
  cases v <;> cases w <;>
    simp [toJson, Json.same, Json.sameMembers, Tree.get?, Operator.name_inj, and_assoc]

theorem same_composite (c d : Conjunction) (xs ys : List Condition) :
    (composite c xs).toJson.same (composite d ys).toJson = true ↔
      c = d ∧ Json.sameItems (toJsons xs) (toJsons ys) = true := by
  simp [toJson, Json.same, Json.sameMembers, Tree.get?, Conjunction.name_inj]

/-- a comparison and a join never have the same document: their types differ -/
theorem not_same_atomic_composite (a : String) (o : Operator) (v : Option Json) (c : Conjunction)
    (xs : List Condition) :
    (atomic a o v).toJson.same (composite c xs).toJson = false ∧
      (composite c xs).toJson.same (atomic a o v).toJson = false := by
  cases v <;> simp [toJson, Json.same, Json.sameMembers, Tree.get?]

end Condition

namespace Body

theorem same_simple (c d : Condition) : (simple c).toJson.same (simple d).toJson = c.toJson.same d.toJson := by
  simp [toJson, Json.same, Json.sameMembers, Tree.get?, queryName]

theorem same_combined (o p : SetOperator) (xs ys : List Body) :
    (combined o xs).toJson.same (combined p ys).toJson = true ↔
      o = p ∧ Json.sameItems (toJsons xs) (toJsons ys) = true := by
  simp [toJson, Json.same, Json.sameMembers, Tree.get?, queryName, SetOperator.name_inj]

theorem not_same_simple_combined (c : Condition) (o : SetOperator) (xs : List Body) :
    (simple c).toJson.same (combined o xs).toJson = false ∧
      (combined o xs).toJson.same (simple c).toJson = false := by
  simp [toJson, Json.same, Json.sameMembers]

end Body

theorem Document.same_iff (d e : Document) : d.toJson.same e.toJson = d.body.toJson.same e.body.toJson := by
  simp [toJson, Json.same, Json.sameMembers, Tree.get?, queryName]

end Wire

/-! ## Criteria -/

namespace Criterion

theorem same_atomic_iff (a b : String) (o p : Operator) (v w : Option Json) :
    (atomic a o v).same (atomic b p w) = true ↔ (a = b ∧ o = p) ∧ Option.Rel (fun x y => x.same y = true) v w := by
  cases v <;> cases w <;> simp [same]

theorem same_composite_iff (l m r s : Criterion) (c d : Conjunction) :
    (composite l c r).same (composite m d s) = true ↔ c = d ∧ l.same m = true ∧ r.same s = true := by
  simp only [same, Bool.and_eq_true, beq_iff_eq]
  tauto

/-- **Criteria have the same document exactly when they are the same.** -/
theorem same_documents (c d : Criterion) : c.toWire.toJson.same d.toWire.toJson = true ↔ c.same d = true := by
  induction c generalizing d with
  | atomic path operator value =>
    cases d with
    | atomic path' operator' value' => rw [toWire, toWire, Wire.Condition.same_atomic, same_atomic_iff]
    | composite left conjunction right =>
      have hno := (Wire.Condition.not_same_atomic_composite path operator value conjunction
        [left.toWire, right.toWire]).1
      exact iff_of_false (ne_true_of_eq_false hno) (by simp [same])
  | composite left conjunction right ihl ihr =>
    cases d with
    | atomic path operator value =>
      have hno := (Wire.Condition.not_same_atomic_composite path operator value conjunction
        [left.toWire, right.toWire]).2
      exact iff_of_false (ne_true_of_eq_false hno) (by simp [same])
    | composite left' conjunction' right' =>
      rw [toWire, toWire, Wire.Condition.same_composite, same_composite_iff]
      simp only [Wire.Condition.toJsons, Json.sameItems, Bool.and_eq_true, and_true, ihl, ihr]

end Criterion

/-! ## Queries -/

namespace Query

mutual
/-- the query with all of its entities taken as one -/
def retarget (entity : EntityKind) : Query → Query
  | .simple _ criterion => .simple entity criterion
  | .combined _ operator queries => .combined entity operator (retargetAll entity queries)
termination_by structural q => q

def retargetAll (entity : EntityKind) : List Query → List Query
  | [] => []
  | q :: rest => retarget entity q :: retargetAll entity rest
termination_by structural qs => qs
end

variable {q r : Query} {entity : EntityKind}

theorem Shaped.part {e : EntityKind} {op : SetOperator} {parts : List Query} (h : Shaped (.combined e op parts))
    {p : Query} (hp : p ∈ parts) : Shaped p :=
  fun entity op' queries hw => h entity op' queries (.part hp hw)

theorem Shaped.asking {e : EntityKind} {op : SetOperator} {parts : List Query} (h : Shaped (.combined e op parts)) :
    ∀ p ∈ parts, p.isEmpty = false := (h e op parts .self).asking

theorem exists_toBody? (h : q.isEmpty = false) : ∃ body, q.toBody? = some body := by
  rw [← Option.ne_none_iff_exists', ne_eq, toBody?_eq_none_iff, h]
  simp

/-- the bodies of two queries agree, or there are none -/
def SameBodies (q r : Query) : Prop := Option.Rel (fun a b => a.toJson.same b.toJson = true) q.toBody? r.toBody?

/-- parts that ask for something have the same documents, one by one, when each has the same as its partner -/
theorem sameItems_toBodies {ps rs : List Query} (hp : ∀ p ∈ ps, p.isEmpty = false) (hr : ∀ r ∈ rs, r.isEmpty = false)
    (ih : ∀ p ∈ ps, ∀ r ∈ rs, p.SameBodies r ↔ (p.retarget entity).same (r.retarget entity) = true) :
    Json.sameItems (Wire.Body.toJsons (toBodies ps)) (Wire.Body.toJsons (toBodies rs)) = true ↔
      sameAll (retargetAll entity ps) (retargetAll entity rs) = true := by
  induction ps generalizing rs with
  | nil =>
    cases rs with
    | nil => rfl
    | cons r rs =>
      obtain ⟨b, hb⟩ := exists_toBody? (hr r List.mem_cons_self)
      simp [toBodies, hb, Wire.Body.toJsons, Json.sameItems, retargetAll, sameAll]
  | cons p ps ihps =>
    obtain ⟨a, ha⟩ := exists_toBody? (hp p List.mem_cons_self)
    cases rs with
    | nil => simp [toBodies, ha, Wire.Body.toJsons, Json.sameItems, retargetAll, sameAll]
    | cons r rs =>
      obtain ⟨b, hb⟩ := exists_toBody? (hr r List.mem_cons_self)
      have hhead : a.toJson.same b.toJson = true ↔ (p.retarget entity).same (r.retarget entity) = true := by
        rw [← ih p List.mem_cons_self r List.mem_cons_self, SameBodies, ha, hb, Option.rel_some_some]
      have htail := ihps (fun p h => hp p (List.mem_cons_of_mem _ h)) (fun r h => hr r (List.mem_cons_of_mem _ h))
        fun p h r h' => ih p (List.mem_cons_of_mem _ h) r (List.mem_cons_of_mem _ h')
      simp only [toBodies, ha, hb, Wire.Body.toJsons, Json.sameItems, retargetAll, sameAll, Bool.and_eq_true, hhead,
        htail]

/-- **Queries without empty parts have the same document exactly when they are the same but for their entities.** -/
theorem same_bodies (hq : Shaped q) (hr : Shaped r) (entity : EntityKind) :
    q.SameBodies r ↔ (q.retarget entity).same (r.retarget entity) = true := by
  induction q using partInduction generalizing r with
  | simple e criterion =>
    cases r with
    | simple e' criterion' =>
      cases criterion with
      | none => cases criterion' <;> simp [SameBodies, toBody?, retarget, same]
      | some c =>
        cases criterion' with
        | none => simp [SameBodies, toBody?, retarget, same]
        | some d =>
          rw [SameBodies, toBody?, toBody?, Option.rel_some_some, Wire.Body.same_simple, Criterion.same_documents]
          simp [retarget, same]
    | combined e' op parts =>
      -- an empty query has no document, and any other is of another type than a combination
      refine iff_of_false ?_ (by simp [retarget, same])
      cases criterion with
      | none => simp [SameBodies, toBody?]
      | some c => simp [SameBodies, toBody?, (Wire.Body.not_same_simple_combined _ _ _).1]
  | combined e op parts ih =>
    cases r with
    | simple e' criterion =>
      refine iff_of_false ?_ (by simp [retarget, same])
      cases criterion with
      | none => simp [SameBodies, toBody?]
      | some c => simp [SameBodies, toBody?, (Wire.Body.not_same_simple_combined _ _ _).2]
    | combined e' op' parts' =>
      have hparts := sameItems_toBodies hq.asking hr.asking fun p hp r hr' =>
        ih p hp (r := r) (hq.part hp) (hr.part hr')
      rw [SameBodies, toBody?, toBody?, Option.rel_some_some, Wire.Body.same_combined, hparts]
      simp [retarget, same]

theorem sameBodies_iff_documents :
    q.SameBodies r ↔ Option.Rel (fun d e => d.toJson.same e.toJson = true) q.toWire? r.toWire? := by
  unfold SameBodies toWire?
  cases q.toBody? <;> cases r.toBody? <;> simp [Wire.Document.same_iff]

/-- **The wire grammar is faithful.** Criteria have the same document exactly when they are the same. Queries that can
be made have the same document, or none both, exactly when they are the same once all entities are taken as one. -/
theorem documents_faithful (hq : Built q) (hr : Built r) :
    (∀ c d : Criterion, c.toWire.toJson.same d.toWire.toJson = true ↔ c.same d = true) ∧
    ∀ entity, Option.Rel (fun d e => d.toJson.same e.toJson = true) q.toWire? r.toWire? ↔
      (q.retarget entity).same (r.retarget entity) = true := by
  refine ⟨Criterion.same_documents, fun entity => ?_⟩
  rw [← sameBodies_iff_documents]
  exact same_bodies (shaped_of_built hq) (shaped_of_built hr) entity

/-- a union over two entities, the same with the entities exchanged, and one whose null test carries null -/
theorem documents_faithful_exchanged :
    let unborn : Criterion := .atomic "base.dob" .isNull none
    let unbornNull : Criterion := .atomic "base.dob" .isNull (some .null)
    let logged : Criterion := .atomic "type" .equals (some (.string "loggedIn"))
    let q : Query := .combined .customer .union [.simple .customer (some unborn), .simple .event (some logged)]
    let exchanged : Query := .combined .event .union [.simple .event (some unborn), .simple .customer (some logged)]
    let other : Query := .combined .customer .union [.simple .customer (some unbornNull), .simple .event (some logged)]
    (Built q ∧ Built exchanged ∧ Built other) ∧
    Option.Rel (fun d e => d.toJson.same e.toJson = true) q.toWire? exchanged.toWire? ∧
    ¬Option.Rel (fun d e => d.toJson.same e.toJson = true) q.toWire? other.toWire? := by
  intro unborn unbornNull logged q exchanged other
  have hfilter : ∀ entity criterion, Built (.simple entity (some criterion)) := fun entity criterion =>
    .filter (.new entity) (show (Query.new entity).filter criterion = _ from rfl)
  have hq : Built q := .union (hfilter .customer unborn) (hfilter .event logged) rfl
  have hexchanged : Built exchanged := .union (hfilter .event unborn) (hfilter .customer logged) rfl
  have hother : Built other := .union (hfilter .customer unbornNull) (hfilter .event logged) rfl
  refine ⟨⟨hq, hexchanged, hother⟩, ((documents_faithful hq hexchanged).2 .customer).2 rfl, ?_⟩
  rw [(documents_faithful hq hother).2 .customer]
  decide

end Query

end ContactSync
