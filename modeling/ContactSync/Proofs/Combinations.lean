/-
What combined queries ask for.

A combination is made in one of three ways: two criteria on one entity become one criterion, an operand of the same
operator gives its parts, and any other operand becomes a part itself. `combine_ok` says which; whatever the way, the
result asks for what both operands ask for, or for what one of them does, and holds their comparisons one after another.

- `Query.holds`: what a query asks of one record, which is the truth of its document, or nothing when it has none.
- `Query.leaves`: the comparisons of a query from left to right, each with the entity of the query that holds it;
  `wireLeaves_eq` finds the same ones in the document.
- `combination_asks`: filters, intersections and unions, over every query.
-/
import ContactSync.Search.Wire
import Mathlib.Tactic.SplitIfs

namespace ContactSync

/-- two truth values joined -/
def Conjunction.join : Conjunction → Bool → Bool → Bool
  | .and => Bool.and
  | .or => Bool.or

/-- a comparison without the entity: path, operator and value -/
abbrev Comparison := String × Operator × Option Json

/-- which comparisons are true -/
abbrev Valuation := String → Operator → Option Json → Bool

/-! ## Leaves -/

namespace Criterion

/-- the comparisons from left to right -/
def leaves : Criterion → List Comparison
  | .atomic path operator value => [(path, operator, value)]
  | .composite left _ right => left.leaves ++ right.leaves

end Criterion

namespace Wire

namespace Condition

mutual
def leaves : Condition → List Comparison
  | .atomic path operator value => [(path, operator, value)]
  | .composite _ conditions => allLeaves conditions
termination_by structural c => c

def allLeaves : List Condition → List Comparison
  | [] => []
  | c :: rest => leaves c ++ allLeaves rest
termination_by structural cs => cs
end

end Condition

namespace Body

mutual
def leaves : Body → List Comparison
  | .simple condition => condition.leaves
  | .combined _ queries => allLeaves queries
termination_by structural b => b

def allLeaves : List Body → List Comparison
  | [] => []
  | b :: rest => leaves b ++ allLeaves rest
termination_by structural bs => bs
end

end Body

end Wire

namespace Query

mutual
/-- the comparisons from left to right, each with the entity of the query that holds it -/
def leaves : Query → List (EntityKind × Comparison)
  | .simple _ none => []
  | .simple entity (some criterion) => criterion.leaves.map fun c => (entity, c)
  | .combined _ _ queries => allLeaves queries
termination_by structural q => q

def allLeaves : List Query → List (EntityKind × Comparison)
  | [] => []
  | q :: rest => leaves q ++ allLeaves rest
termination_by structural qs => qs
end

/-- the comparisons of the document; without one there are none -/
def wireLeaves (q : Query) : List Comparison :=
  match q.toWire? with
  | some document => document.body.leaves
  | none => []

/-- what a query asks of a record: the truth of its document, and nothing without one -/
def holds (atom : Valuation) (q : Query) : Bool :=
  match q.toWire? with
  | some document => document.body.holds atom
  | none => true

/-- induction over a query and its parts -/
@[elab_as_elim]
theorem partInduction {motive : Query → Prop} (simple : ∀ entity criterion, motive (.simple entity criterion))
    (combined : ∀ entity operator parts, (∀ p ∈ parts, motive p) → motive (.combined entity operator parts))
    (q : Query) : motive q := by
  match q with
  | .simple entity criterion => exact simple entity criterion
  | .combined entity operator parts =>
    exact combined entity operator parts fun p _ => partInduction simple combined p
termination_by q
decreasing_by
  have := List.sizeOf_lt_of_mem ‹p ∈ parts›
  simp only [Query.combined.sizeOf_spec]
  omega

end Query

/-! ## Lowering -/

variable {atom : Valuation} {a b r : Query} {op : SetOperator}

namespace Criterion

theorem leaves_toWire (c : Criterion) : c.toWire.leaves = c.leaves := by
  induction c with
  | atomic path operator value => rfl
  | composite left conjunction right ihl ihr =>
    simp only [toWire, leaves, Wire.Condition.leaves, Wire.Condition.allLeaves, ihl, ihr, List.append_nil]

theorem holds_composite (left right : Criterion) (conjunction : Conjunction) :
    (composite left conjunction right).toWire.holds atom =
      conjunction.join (left.toWire.holds atom) (right.toWire.holds atom) := by
  cases conjunction <;>
    simp [toWire, Conjunction.join, Wire.Condition.holds, Wire.Condition.allHold, Wire.Condition.someHolds]

end Criterion

namespace Wire.Body

theorem allLeaves_append (xs ys : List Body) : allLeaves (xs ++ ys) = allLeaves xs ++ allLeaves ys := by
  induction xs with
  | nil => rfl
  | cons x xs ih => simp only [List.cons_append, allLeaves, ih, List.append_assoc]

/-- a combination of two rows of bodies joins the combinations of each -/
theorem holds_append (op : SetOperator) (xs ys : List Body) :
    (combined op (xs ++ ys)).holds atom =
      op.conjunction.join ((combined op xs).holds atom) ((combined op ys).holds atom) := by
  induction xs with
  | nil => cases op <;> simp [SetOperator.conjunction, Conjunction.join, holds, allHold, someHolds]
  | cons x xs ih =>
    cases op with
    | union =>
      simp only [SetOperator.conjunction, Conjunction.join, holds, List.cons_append, someHolds] at ih ⊢
      rw [ih, Bool.or_assoc]
    | intersect =>
      simp only [SetOperator.conjunction, Conjunction.join, holds, List.cons_append, allHold] at ih ⊢
      rw [ih, Bool.and_assoc]

theorem holds_singleton (op : SetOperator) (x : Body) : (combined op [x]).holds atom = x.holds atom := by
  cases op <;> simp [holds, allHold, someHolds]

end Wire.Body

namespace Query

theorem holds_eq (q : Query) : q.holds atom = (q.toBody?.map (Wire.Body.holds atom)).getD true := by
  rw [holds, toWire?]
  cases q.toBody? <;> rfl

theorem wireLeaves_eq_body (q : Query) : q.wireLeaves = (q.toBody?.map Wire.Body.leaves).getD [] := by
  rw [wireLeaves, toWire?]
  cases q.toBody? <;> rfl

theorem toBodies_append (xs ys : List Query) : toBodies (xs ++ ys) = toBodies xs ++ toBodies ys := by
  induction xs with
  | nil => rfl
  | cons x xs ih =>
    rw [List.cons_append, toBodies, toBodies, ih]
    cases toBody? x <;> rfl

theorem allLeaves_append (xs ys : List Query) : allLeaves (xs ++ ys) = allLeaves xs ++ allLeaves ys := by
  induction xs with
  | nil => rfl
  | cons x xs ih => simp only [List.cons_append, allLeaves, ih, List.append_assoc]

/-- **The document of a query holds its comparisons**, in the same order. -/
theorem wireLeaves_eq (q : Query) : q.wireLeaves = q.leaves.map Prod.snd := by
  rw [wireLeaves_eq_body]
  induction q using partInduction with
  | simple entity criterion =>
    cases criterion with
    | none => rfl
    | some c => simp [toBody?, Wire.Body.leaves, leaves, c.leaves_toWire, Function.comp_def]
  | combined entity operator parts ih =>
    simp only [toBody?, leaves, Option.map_some, Option.getD_some, Wire.Body.leaves]
    induction parts with
    | nil => rfl
    | cons p parts ihp =>
      rw [List.forall_mem_cons] at ih
      rw [allLeaves, List.map_append, ← ihp ih.2, ← ih.1, toBodies]
      cases toBody? p <;> rfl

/-! ## Combining -/

/-- **How two queries combine**: both ask for something, and then either they are one query on one entity, their
criteria joined, or the parts that they give stand side by side. -/
theorem combine_ok (h : combine op a b = .ok r) :
    a.isEmpty = false ∧ b.isEmpty = false ∧
    ((∃ entity x y, a = .simple entity (some x) ∧ b = .simple entity (some y) ∧
        r = .simple entity (some (.composite x op.conjunction y))) ∨
      r = .combined a.entity op (a.parts op ++ b.parts op)) := by
  unfold combine at h
  split_ifs at h with he
  rw [Bool.or_eq_true, not_or, Bool.not_eq_true, Bool.not_eq_true] at he
  refine ⟨he.1, he.2, ?_⟩
  split at h
  · rename_i entity x other y
    split_ifs at h with hentity <;> cases h
    · exact .inl ⟨entity, x, y, rfl, by rw [hentity], rfl⟩
    · exact .inr rfl
  · cases h
    exact .inr rfl

theorem holds_parts (h : a.isEmpty = false) (op : SetOperator) :
    (Wire.Body.combined op (toBodies (a.parts op))).holds atom = a.holds atom := by
  rw [holds_eq]
  cases a with
  | simple entity criterion =>
    cases criterion with
    | none => cases h
    | some c => exact Wire.Body.holds_singleton op _
  | combined entity inner queries =>
    rw [parts]
    split_ifs with hop
    · rw [← hop]
      rfl
    · exact Wire.Body.holds_singleton op _

theorem allLeaves_parts (a : Query) (op : SetOperator) : allLeaves (a.parts op) = a.leaves := by
  cases a with
  | simple entity criterion => simp only [parts, allLeaves, List.append_nil]
  | combined entity inner queries =>
    rw [parts]
    split_ifs
    · rw [leaves]
    · simp only [allLeaves, List.append_nil]

theorem holds_combine (h : combine op a b = .ok r) :
    r.holds atom = op.conjunction.join (a.holds atom) (b.holds atom) := by
  obtain ⟨ha, hb, ⟨entity, x, y, rfl, rfl, rfl⟩ | rfl⟩ := combine_ok h
  · exact Criterion.holds_composite x y op.conjunction
  · rw [← holds_parts ha op, ← holds_parts hb op, ← Wire.Body.holds_append, ← toBodies_append, holds_eq]
    rfl

theorem leaves_combine (h : combine op a b = .ok r) : r.leaves = a.leaves ++ b.leaves := by
  obtain ⟨-, -, ⟨entity, x, y, rfl, rfl, rfl⟩ | rfl⟩ := combine_ok h
  · simp only [leaves, Criterion.leaves, List.map_append]
  · rw [leaves, allLeaves_append, allLeaves_parts, allLeaves_parts]

theorem filter_ok {c : Criterion} (h : a.filter c = .ok r) :
    r.holds atom = (a.holds atom && c.toWire.holds atom) ∧
      r.leaves = a.leaves ++ c.leaves.map fun x => (a.entity, x) := by
  unfold filter at h
  split at h <;> cases h
  · exact ⟨rfl, rfl⟩
  · refine ⟨Criterion.holds_composite _ c .and, ?_⟩
    simp only [leaves, Criterion.and, Criterion.leaves, List.map_append, entity]

/-- **Combining queries keeps what they ask for.** A filter asks for one more thing, an intersection for both and a
union for either, whatever the comparisons mean. No comparison is lost, doubled or moved: those of the right side follow
those of the left one, in the result and in the document that is sent for it. -/
theorem combination_asks (atom : Valuation) (a : Query) :
    (∀ c r, a.filter c = .ok r → r.holds atom = (a.holds atom && c.toWire.holds atom) ∧
      r.leaves = a.leaves ++ c.leaves.map fun x => (a.entity, x)) ∧
    (∀ b r, a.intersect b = .ok r → r.holds atom = (a.holds atom && b.holds atom) ∧ r.leaves = a.leaves ++ b.leaves) ∧
    (∀ b r, a.union b = .ok r → r.holds atom = (a.holds atom || b.holds atom) ∧ r.leaves = a.leaves ++ b.leaves) ∧
    a.wireLeaves = a.leaves.map Prod.snd :=
  ⟨fun _ _ h => filter_ok h, fun _ _ h => ⟨holds_combine h, leaves_combine h⟩,
    fun _ _ h => ⟨holds_combine h, leaves_combine h⟩, wireLeaves_eq a⟩

/-- a union of two entities: narrowing one side, taking in one more part, becoming a part itself -/
theorem combination_asks_nested :
    let atom : Valuation := fun path _ _ => path == "type"
    let named : Criterion := .atomic "base.firstName" .equals (some (.string "Ann"))
    let logged : Criterion := .atomic "type" .equals (some (.string "loggedIn"))
    let people : Query := .simple .customer (some named)
    let anns : Query := .simple .customer (some (named.and logged))
    let either : Query := .combined .customer .union [people, .simple .event (some logged)]
    let all : Query := .combined .customer .union [people, .simple .event (some logged), people]
    let both : Query := .combined .customer .intersect [people, either]
    (people.filter logged = .ok anns ∧ anns.holds atom = (people.holds atom && logged.toWire.holds atom)) ∧
    (either.union people = .ok all ∧ all.holds atom = (either.holds atom || people.holds atom)) ∧
    (people.intersect either = .ok both ∧ both.holds atom = (people.holds atom && either.holds atom) ∧
      both.leaves = people.leaves ++ either.leaves) := by
  intro atom named logged people anns either all both
  obtain ⟨hfilter, hintersect, -, -⟩ := combination_asks atom people
  obtain ⟨-, -, hunion, -⟩ := combination_asks atom either
  exact ⟨⟨rfl, (hfilter logged anns rfl).1⟩, ⟨rfl, (hunion people all rfl).1⟩, rfl, hintersect either both rfl⟩

end Query

end ContactSync
