/-
The shape of queries.

A query is made from empty ones by filters, intersections and unions (`Built`). Whatever has been done, every
combination in it, at any depth, holds at least two queries that ask for something, none of them a combination of the
same operator again, and bears the entity of its first one (`Joined`). One combination makes this so from the shape of
its operands (`shaped_combine`), and every row of them keeps it (`shaped_of_built`).

- `built_shape`: the shape, what it means for the document, which loses no part, and when an operation is refused.
-/
import ContactSync.Proofs.Combinations
import Mathlib.Data.List.Forall2

namespace ContactSync

namespace Query

/-! ## Queries that can be made -/

/-- made from empty queries -/
inductive Built : Query → Prop
  | new (entity : EntityKind) : Built (.new entity)
  | filter {q r : Query} {criterion : Criterion} : Built q → q.filter criterion = .ok r → Built r
  | intersect {a b r : Query} : Built a → Built b → a.intersect b = .ok r → Built r
  | union {a b r : Query} : Built a → Built b → a.union b = .ok r → Built r

/-- a query stands somewhere in another, or is it -/
inductive Within (node : Query) : Query → Prop
  | self : Within node node
  | part {p : Query} {entity : EntityKind} {op : SetOperator} {parts : List Query} :
      p ∈ parts → Within node p → Within node (.combined entity op parts)

/-- whether a query is a combination of an operator -/
def Combines (op : SetOperator) (q : Query) : Prop := ∃ entity parts, q = .combined entity op parts

/-- a combination as it should be -/
structure Joined (entity : EntityKind) (op : SetOperator) (parts : List Query) : Prop where
  two : 2 ≤ parts.length
  asking : ∀ p ∈ parts, p.isEmpty = false
  flat : ∀ p ∈ parts, ¬p.Combines op
  first : ∃ p rest, parts = p :: rest ∧ p.entity = entity

/-- every combination in a query is as it should be -/
def Shaped (q : Query) : Prop := ∀ entity op parts, Within (.combined entity op parts) q → Joined entity op parts

variable {node q p a b r : Query} {op : SetOperator}

theorem shaped_simple (entity : EntityKind) (criterion : Option Criterion) : Shaped (.simple entity criterion) := by
  intro e op parts h
  cases h

/-! ## One operation -/

theorem within_of_mem_parts (hp : p ∈ a.parts op) (h : Within node p) : Within node a := by
  cases a with
  | simple entity criterion =>
    rw [parts, List.mem_singleton] at hp
    exact hp ▸ h
  | combined entity inner queries =>
    rw [parts] at hp
    split_ifs at hp
    · exact .part hp h
    · exact List.mem_singleton.1 hp ▸ h

/-- what a query that asks for something gives to a combination: at least one part, none empty or of the operator, the
first one of its entity -/
theorem parts_ok (ha : Shaped a) (hne : a.isEmpty = false) (op : SetOperator) :
    (∀ p ∈ a.parts op, p.isEmpty = false ∧ ¬p.Combines op) ∧
      ∃ p rest, a.parts op = p :: rest ∧ p.entity = a.entity := by
  cases a with
  | simple entity criterion =>
    refine ⟨?_, _, _, rfl, rfl⟩
    intro p hp
    obtain rfl := List.mem_singleton.1 hp
    refine ⟨hne, ?_⟩
    rintro ⟨e, queries, h⟩
    cases h
  | combined entity inner queries =>
    rw [parts]
    split_ifs with hop
    · subst hop
      have h := ha entity inner queries .self
      exact ⟨fun p hp => ⟨h.asking p hp, h.flat p hp⟩, h.first⟩
    · refine ⟨?_, _, _, rfl, rfl⟩
      intro p hp
      obtain rfl := List.mem_singleton.1 hp
      refine ⟨hne, ?_⟩
      rintro ⟨e, queries', h⟩
      cases h
      exact hop rfl

/-- **A combination of two shaped queries is shaped.** -/
theorem shaped_combine (ha : Shaped a) (hb : Shaped b) (h : combine op a b = .ok r) : Shaped r := by
  obtain ⟨hae, hbe, ⟨entity, x, y, rfl, rfl, rfl⟩ | rfl⟩ := combine_ok h
  · exact shaped_simple _ _
  obtain ⟨hpa, p, prest, hap, hentity⟩ := parts_ok ha hae op
  obtain ⟨hpb, q, qrest, hbq, -⟩ := parts_ok hb hbe op
  intro e op' parts hw
  cases hw with
  | self =>
    have hall := List.forall_mem_append.2 ⟨hpa, hpb⟩
    refine ⟨?_, fun p hp => (hall p hp).1, fun p hp => (hall p hp).2, p, prest ++ b.parts op, ?_, hentity⟩
    · rw [hap, hbq]
      simp only [List.length_append, List.length_cons]
      omega
    · rw [hap, List.cons_append]
  | part hp hw =>
    rcases List.mem_append.1 hp with hp | hp
    · exact ha e op' parts (within_of_mem_parts hp hw)
    · exact hb e op' parts (within_of_mem_parts hp hw)

theorem shaped_filter {criterion : Criterion} (h : q.filter criterion = .ok r) : Shaped r := by
  unfold filter at h
  split at h <;> cases h
  · exact shaped_simple _ _
  · exact shaped_simple _ _

/-! ## Every query -/

/-- **Every query that can be made is shaped.** -/
theorem shaped_of_built (h : Built q) : Shaped q := by
  induction h with
  | new entity => exact shaped_simple _ _
  | filter _ h _ => exact shaped_filter h
  | intersect _ _ h iha ihb => exact shaped_combine iha ihb h
  | union _ _ h iha ihb => exact shaped_combine iha ihb h

theorem toBody?_eq_none_iff : q.toBody? = none ↔ q.isEmpty = true := by
  cases q with
  | simple entity criterion => cases criterion <;> simp [toBody?, isEmpty]
  | combined entity op parts => simp [toBody?, isEmpty]

theorem forall₂_toBodies {parts : List Query} (h : ∀ p ∈ parts, p.isEmpty = false) :
    List.Forall₂ (fun p body => toBody? p = some body) parts (toBodies parts) := by
  induction parts with
  | nil => exact .nil
  | cons p parts ih =>
    rw [List.forall_mem_cons] at h
    rw [toBodies]
    cases hp : toBody? p with
    | none => simp [toBody?_eq_none_iff.1 hp] at h
    | some body => exact .cons hp (ih h.2)

theorem filter_error_iff (q : Query) (criterion : Criterion) :
    (∃ fault, q.filter criterion = .error fault) ↔ ∃ op, q.Combines op := by
  unfold filter
  constructor
  · rintro ⟨fault, h⟩
    split at h
    · cases h
    · cases h
    · exact ⟨_, _, _, rfl⟩
  · rintro ⟨op, entity, parts, rfl⟩
    exact ⟨_, rfl⟩

theorem combine_error_iff (op : SetOperator) (a b : Query) :
    (∃ fault, combine op a b = .error fault) ↔ a.isEmpty = true ∨ b.isEmpty = true := by
  unfold combine
  rw [← Bool.or_eq_true]
  split_ifs with h
  · exact iff_of_true ⟨_, rfl⟩ h
  · refine iff_of_false ?_ h
    rintro ⟨fault, he⟩
    split at he
    · split_ifs at he
    · cases he

/-- **The shape of every query that can be made.** A combination in it has at least two parts, none empty and none a
combination of its operator, and the entity of its first part; its document has the document of each part in the same
order. Only an empty query has no document. A filter is refused by combinations only, a combination by empty operands
only. -/
theorem built_shape (h : Built q) :
    (∀ entity op parts, Within (.combined entity op parts) q →
      2 ≤ parts.length ∧ (∀ p ∈ parts, p.isEmpty = false ∧ ¬p.Combines op) ∧
      (∃ p rest, parts = p :: rest ∧ p.entity = entity) ∧
      ∃ bodies, (Query.combined entity op parts).toBody? = some (.combined op bodies) ∧
        List.Forall₂ (fun p body => p.toBody? = some body) parts bodies) ∧
    (q.toWire? = none ↔ q.isEmpty = true) ∧
    (∀ criterion, (∃ fault, q.filter criterion = .error fault) ↔ ∃ op, q.Combines op) ∧
    (∀ p, (∃ fault, q.intersect p = .error fault) ↔ q.isEmpty = true ∨ p.isEmpty = true) ∧
    (∀ p, (∃ fault, q.union p = .error fault) ↔ q.isEmpty = true ∨ p.isEmpty = true) := by
  refine ⟨?_, ?_, filter_error_iff q, combine_error_iff .intersect q, combine_error_iff .union q⟩
  · intro entity op parts hw
    have hj := shaped_of_built h entity op parts hw
    exact ⟨hj.two, fun p hp => ⟨hj.asking p hp, hj.flat p hp⟩, hj.first, _, rfl, forall₂_toBodies hj.asking⟩
  · rw [toWire?, Option.map_eq_none_iff, toBody?_eq_none_iff]

/-- a union that takes in the parts of another, inside an intersection -/
theorem built_shape_nested :
    let named : Criterion := .atomic "base.firstName" .equals (some (.string "Ann"))
    let logged : Criterion := .atomic "type" .equals (some (.string "loggedIn"))
    let people : Query := .simple .customer (some named)
    let logins : Query := .simple .event (some logged)
    let either : Query := .combined .customer .union [people, logins]
    let all : Query := .combined .event .union [logins, people, logins]
    let both : Query := .combined .event .intersect [all, people]
    (people.union logins = .ok either ∧ logins.union either = .ok all ∧ all.intersect people = .ok both) ∧
    Built both ∧ Within all both ∧
    (∃ bodies, all.toBody? = some (.combined .union bodies) ∧
      List.Forall₂ (fun p body => p.toBody? = some body) [logins, people, logins] bodies) ∧
    ((∃ fault, both.filter named = .error fault) ↔ ∃ op, both.Combines op) := by
  intro named logged people logins either all both
  have hfilter : ∀ entity criterion, Built (.simple entity (some criterion)) := fun entity criterion =>
    .filter (.new entity) (show (Query.new entity).filter criterion = _ from rfl)
  have hpeople : Built people := hfilter .customer named
  have hlogins : Built logins := hfilter .event logged
  have heither : Built either := .union hpeople hlogins rfl
  have hboth : Built both := .intersect (.union hlogins heither rfl) hpeople rfl
  have hall : Within all both := .part List.mem_cons_self .self
  exact ⟨⟨rfl, rfl, rfl⟩, hboth, hall, ((built_shape hboth).1 _ _ _ hall).2.2.2, (built_shape hboth).2.2.1 named⟩

end Query

end ContactSync
