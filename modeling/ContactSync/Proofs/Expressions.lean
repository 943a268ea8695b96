/-
Search expressions on the wire.

An expression is what the builders on fields and the joins write. Its wire form is put together from those of its parts,
no more and no less (`within_toWire_iff`), so what is true of every comparison is true of every atomic condition at any
depth (`sent_comparison`).

- `Compares`: the comparison that a part has to send.
- `well_formed_on_wire`: which conditions carry a value, and which one; what every part sends, joins included; and which
  comparisons become null tests.
-/
import ContactSync.Proofs.DottedText
import ContactSync.Search.Wire
import Mathlib.Tactic.SplitIfs

namespace ContactSync

namespace Wire.Condition

/-- a condition stands somewhere in another, or is it -/
inductive Within (node : Condition) : Condition → Prop
  | self : Within node node
  | part {c : Condition} {conjunction : Conjunction} {conditions : List Condition} (hc : c ∈ conditions)
      (h : Within node c) : Within node (.composite conjunction conditions)

theorem member?_value (path : String) (operator : Operator) (value : Option Json) :
    (atomic path operator value).toJson.member? "value" = value := by
  cases value <;> rfl

/-- a condition that is sent names this operator -/
def Names (condition : Condition) (text : String) : Prop := condition.toJson.member? "operator" = some (.string text)

theorem names_iff {path : String} {operator : Operator} {value : Option Json} (other : Operator) :
    (atomic path operator value).Names other.name ↔ operator = other := by
  have hmember : (atomic path operator value).toJson.member? "operator" = some (.string operator.name) := rfl
  rw [Names, hmember, Option.some_inj, Json.string.injEq, Operator.name_inj]

end Wire.Condition

/-! ## Expressions -/

namespace Operand

/-- a value that is none: null, nothing at all, or a number that is none -/
def Nothing (o : Operand) : Prop := o = .json .null ∨ o = .absent ∨ o = .real none

theorem isNull_iff {o : Operand} : o.isNull = true ↔ o.Nothing := by
  cases o with
  | json j => cases j <;> simp [Nothing, isNull, toJson, Json.isNull]
  | real d => cases d <;> simp [Nothing, isNull, toJson, Json.isNull]
  | _ => simp [Nothing, isNull, toJson, Json.isNull, Json.ofInt]

theorem toJson_eq_null_iff {o : Operand} : o.toJson = .null ↔ o.Nothing := by
  rw [← isNull_iff, isNull]
  cases o.toJson <;> simp [Json.isNull]

end Operand

/-- the builders that compare a field with one value; the last two take the value first -/
inductive Expression.Builder where
  | equals | notEquals | lt | lte | gt | gte | contains | lacks | isIn | notIn
  deriving DecidableEq, Repr

def Expression.Builder.build : Expression.Builder → Field → Operand → Criterion
  | .equals => Field.equals
  | .notEquals => Field.notEquals
  | .lt => Field.lt
  | .lte => Field.lte
  | .gt => Field.gt
  | .gte => Field.gte
  | .contains => Field.contains
  | .lacks => Field.lacks
  | .isIn => fun field value => Criterion.isIn value field
  | .notIn => fun field value => Criterion.notIn value field

def Expression.Builder.operator : Expression.Builder → Operator
  | .equals => .equals
  | .notEquals => .notEquals
  | .lt => .lt
  | .lte => .lte
  | .gt => .gt
  | .gte => .gte
  | .contains | .isIn => .isIn
  | .lacks | .notIn => .notIn

/-- the builders of a range: the method of a field, and the function -/
inductive Expression.RangeBuilder where
  | method | function
  deriving DecidableEq, Repr

def Expression.RangeBuilder.build : Expression.RangeBuilder → Field → Operand → Operand → Criterion
  | .method => Field.between
  | .function => Criterion.between

/-- a search expression as it is written -/
inductive Expression where
  | isNull (field : Field)
  | isNotNull (field : Field)
  | compared (field : Field) (builder : Expression.Builder) (value : Operand)
  | between (builder : Expression.RangeBuilder) (field : Field) (low high : Operand)
  | joined (left : Expression) (conjunction : Conjunction) (right : Expression)

namespace Expression

def criterion : Expression → Criterion
  | .isNull field => field.isNull
  | .isNotNull field => field.isNotNull
  | .compared field builder value => builder.build field value
  | .between builder field low high => builder.build field low high
  | .joined left .and right => left.criterion.and right.criterion
  | .joined left .or right => left.criterion.or right.criterion

def toWire (e : Expression) : Wire.Condition := e.criterion.toWire

/-- an expression stands somewhere in another, or is it -/
inductive Within (part : Expression) : Expression → Prop
  | self : Within part part
  | left {left : Expression} (h : Within part left) (conjunction : Conjunction) (right : Expression) :
      Within part (.joined left conjunction right)
  | right {right : Expression} (left : Expression) (conjunction : Conjunction) (h : Within part right) :
      Within part (.joined left conjunction right)

/-! ## Comparisons -/

/-- the comparison that a part has to send. An equality or inequality with a value that is none becomes a null test -/
inductive Compares : Expression → Field → Operator → Option Json → Prop
  | isNull (field : Field) : Compares (.isNull field) field .isNull none
  | isNotNull (field : Field) : Compares (.isNotNull field) field .isNotNull none
  | nothing (field : Field) {o : Operand} (h : o.Nothing) : Compares (.compared field .equals o) field .isNull none
  | anything (field : Field) {o : Operand} (h : o.Nothing) :
      Compares (.compared field .notEquals o) field .isNotNull none
  | value (field : Field) {builder : Builder} {o : Operand}
      (h : builder = .equals ∨ builder = .notEquals → ¬o.Nothing) :
      Compares (.compared field builder o) field builder.operator (some o.toJson)
  | range (builder : RangeBuilder) (field : Field) (low high : Operand) :
      Compares (.between builder field low high) field .between (some (.list [low.toJson, high.toJson]))

theorem Builder.operator_ne (builder : Builder) :
    builder.operator ≠ .isNull ∧ builder.operator ≠ .isNotNull ∧ builder.operator ≠ .between := by
  cases builder <;> decide

theorem Builder.tests_of_operator {builder : Builder} (h : builder.operator = .equals ∨ builder.operator = .notEquals) :
    builder = .equals ∨ builder = .notEquals := by
  cases builder <;> simp_all [operator]

namespace Compares

variable {e : Expression} {field : Field} {operator : Operator} {value : Option Json}

theorem carries (h : Compares e field operator value) :
    value.isSome = true ↔ operator ≠ .isNull ∧ operator ≠ .isNotNull := by
  cases h with
  | value _ h => exact iff_of_true rfl ⟨(Builder.operator_ne _).1, (Builder.operator_ne _).2.1⟩
  | range => exact iff_of_true rfl (by decide)
  | _ => exact iff_of_false (by decide) (by decide)

theorem notNull (h : Compares e field operator value) (hop : operator = .equals ∨ operator = .notEquals) :
    value ≠ some .null := by
  cases h with
  | value _ h =>
    intro hnull
    exact h (Builder.tests_of_operator hop) (Operand.toJson_eq_null_iff.1 (Option.some.inj hnull))
  | _ => simp

theorem bounds (h : Compares e field operator value) (hop : operator = .between) :
    ∃ builder low high, e = .between builder field low high ∧ value = some (.list [low.toJson, high.toJson]) := by
  cases h with
  | value => exact absurd hop (Builder.operator_ne _).2.2
  | range builder _ low high => exact ⟨builder, low, high, rfl, rfl⟩
  | _ => cases hop

/-- **A comparison is sent as it has to be.** -/
theorem toWire (h : Compares e field operator value) : e.toWire = .atomic field.path operator value := by
  cases h with
  | isNull => rfl
  | isNotNull => rfl
  | nothing _ h => exact congrArg Criterion.toWire (if_pos (Operand.isNull_iff.2 h))
  | anything _ h => exact congrArg Criterion.toWire (if_pos (Operand.isNull_iff.2 h))
  | @value _ builder o h =>
    have hsome (h : ¬o.Nothing) : ¬o.isNull = true := mt Operand.isNull_iff.1 h
    cases builder with
    | equals => exact congrArg Criterion.toWire (if_neg (hsome (h (.inl rfl))))
    | notEquals => exact congrArg Criterion.toWire (if_neg (hsome (h (.inr rfl))))
    | _ => rfl
  | range builder => cases builder <;> rfl

end Compares

theorem joined_or_compares (e : Expression) : (∃ left conjunction right, e = joined left conjunction right) ∨
    ∃ field operator value, Compares e field operator value := by
  cases e with
  | isNull field => exact .inr ⟨_, _, _, .isNull field⟩
  | isNotNull field => exact .inr ⟨_, _, _, .isNotNull field⟩
  | between builder field low high => exact .inr ⟨_, _, _, .range builder field low high⟩
  | joined left conjunction right => exact .inl ⟨left, conjunction, right, rfl⟩
  | compared field builder o =>
    by_cases h : (builder = .equals ∨ builder = .notEquals) ∧ o.Nothing
    · obtain ⟨rfl | rfl, ho⟩ := h
      · exact .inr ⟨_, _, _, .nothing field ho⟩
      · exact .inr ⟨_, _, _, .anything field ho⟩
    · exact .inr ⟨_, _, _, .value field (not_and.1 h)⟩

/-! ## Parts -/

theorem toWire_joined (left : Expression) (conjunction : Conjunction) (right : Expression) :
    (joined left conjunction right).toWire = .composite conjunction [left.toWire, right.toWire] := by
  cases conjunction <;> rfl

/-- one condition has no others in it -/
theorem within_flat {e : Expression} {c : Wire.Condition}
    (he : ∀ left conjunction right, e ≠ joined left conjunction right) (h : c.Within e.toWire) : c = e.toWire := by
  rcases joined_or_compares e with ⟨left, conjunction, right, hjoin⟩ | ⟨field, operator, value, hcompares⟩
  · exact absurd hjoin (he left conjunction right)
  · rw [hcompares.toWire] at h ⊢
    cases h
    rfl

/-- **The conditions in a wire form are the wire forms of the parts.** -/
theorem within_toWire_iff {e : Expression} {c : Wire.Condition} :
    c.Within e.toWire ↔ ∃ part, Within part e ∧ c = part.toWire := by
  constructor
  · intro h
    induction e with
    | joined left conjunction right ihl ihr =>
      rw [toWire_joined] at h
      cases h with
      | self => exact ⟨_, .self, (toWire_joined left conjunction right).symm⟩
      | part hc h =>
        rw [List.mem_cons, List.mem_singleton] at hc
        rcases hc with rfl | rfl
        · obtain ⟨part, hpart, rfl⟩ := ihl h
          exact ⟨part, .left hpart conjunction right, rfl⟩
        · obtain ⟨part, hpart, rfl⟩ := ihr h
          exact ⟨part, .right left conjunction hpart, rfl⟩
    | _ => exact ⟨_, .self, within_flat (by simp) h⟩
  · rintro ⟨part, hpart, rfl⟩
    induction hpart with
    | self => exact .self
    | left _ conjunction right ih =>
      rw [toWire_joined]
      exact .part List.mem_cons_self ih
    | right left conjunction _ ih =>
      rw [toWire_joined]
      exact .part (List.mem_cons_of_mem _ List.mem_cons_self) ih

/-- a comparison in a wire form is what some part has to send -/
theorem compares_of_within {e : Expression} {path : String} {operator : Operator} {value : Option Json}
    (h : (Wire.Condition.atomic path operator value).Within e.toWire) :
    ∃ part field, Within part e ∧ path = field.path ∧ Compares part field operator value := by
  obtain ⟨part, hpart, hwire⟩ := within_toWire_iff.1 h
  rcases joined_or_compares part with ⟨left, conjunction, right, rfl⟩ | ⟨field, operator', value', hcompares⟩
  · rw [toWire_joined] at hwire
    cases hwire
  · rw [hcompares.toWire] at hwire
    obtain ⟨rfl, rfl, rfl⟩ := Wire.Condition.atomic.inj hwire
    exact ⟨part, field, hpart, rfl, hcompares⟩

/-- a join in a wire form is that of the two sides of some part -/
theorem joined_of_within {e : Expression} {conjunction : Conjunction} {conditions : List Wire.Condition}
    (h : (Wire.Condition.composite conjunction conditions).Within e.toWire) :
    ∃ left right, Within (.joined left conjunction right) e ∧ conditions = [left.toWire, right.toWire] := by
  obtain ⟨part, hpart, hwire⟩ := within_toWire_iff.1 h
  rcases joined_or_compares part with ⟨left, conjunction', right, rfl⟩ | ⟨field, operator, value, hcompares⟩
  · rw [toWire_joined] at hwire
    obtain ⟨rfl, rfl⟩ := Wire.Condition.composite.inj hwire
    exact ⟨left, right, hpart, rfl⟩
  · rw [hcompares.toWire] at hwire
    cases hwire

/-- an equality and an inequality become the null tests just for a value that is none -/
theorem toWire_eq_test_iff (field : Field) (o : Operand) :
    ((compared field .equals o).toWire = (isNull field).toWire ↔ o.Nothing) ∧
      ((compared field .notEquals o).toWire = (isNotNull field).toWire ↔ o.Nothing) := by
  by_cases ho : o.Nothing
  · have hequals := (Compares.nothing field ho).toWire
    have hnotEquals := (Compares.anything field ho).toWire
    exact ⟨iff_of_true hequals ho, iff_of_true hnotEquals ho⟩
  · have hequals : (compared field .equals o).toWire = .atomic field.path .equals (some o.toJson) :=
      Compares.toWire (.value field fun _ => ho)
    have hnotEquals : (compared field .notEquals o).toWire = .atomic field.path .notEquals (some o.toJson) :=
      Compares.toWire (.value field fun _ => ho)
    rw [hequals, hnotEquals]
    exact ⟨iff_of_false (fun he => by cases he) ho, iff_of_false (fun he => by cases he) ho⟩

/-- **What is built from fields is well formed on the wire.** Of the conditions in the wire form of an expression, at
any depth, a comparison bears a value exactly when its operator is no null test; it is never equality or inequality with
null; between bears the low and the high value of a part of the expression, in this order; and a join has two
conditions, the wire forms of the two sides of a part, in their order. Conversely every part of the expression is among
the conditions: a join as the two sides, and anything else as the comparison that it has to send. An equality is sent as
the null test exactly when its value is none. -/
theorem well_formed_on_wire (e : Expression) :
    (∀ path operator value, (Wire.Condition.atomic path operator value).Within e.toWire →
      let condition := Wire.Condition.atomic path operator value
      let sent := condition.toJson.member? "value"
      (sent.isSome = true ↔ ¬condition.Names "IS_NULL" ∧ ¬condition.Names "IS_NOT_NULL") ∧
      (condition.Names "EQUALS" ∨ condition.Names "NOT_EQUALS" → sent ≠ some .null) ∧
      (condition.Names "BETWEEN" → ∃ builder field low high, Within (.between builder field low high) e ∧
        path = field.path ∧ sent = some (.list [low.toJson, high.toJson]))) ∧
    (∀ conjunction conditions, (Wire.Condition.composite conjunction conditions).Within e.toWire →
      ∃ left right, Within (.joined left conjunction right) e ∧ conditions = [left.toWire, right.toWire] ∧
        (Wire.Condition.composite conjunction conditions).toJson.member? "conditions" =
          some (.list [left.toWire.toJson, right.toWire.toJson])) ∧
    (∀ left conjunction right, Within (.joined left conjunction right) e →
      (joined left conjunction right).toWire = .composite conjunction [left.toWire, right.toWire] ∧
      (Wire.Condition.composite conjunction [left.toWire, right.toWire]).Within e.toWire) ∧
    (∀ part, Within part e → (∀ left conjunction right, part ≠ .joined left conjunction right) →
      ∃ field operator value, Compares part field operator value ∧ part.toWire = .atomic field.path operator value ∧
        (Wire.Condition.atomic field.path operator value).Within e.toWire) ∧
    (∀ field o, ((compared field .equals o).toWire = (isNull field).toWire ↔ o.Nothing) ∧
      ((compared field .notEquals o).toWire = (isNotNull field).toWire ↔ o.Nothing)) := by
  refine ⟨?_, ?_, ?_, ?_, toWire_eq_test_iff⟩
  · intro path operator value h condition sent
    obtain ⟨part, field, hpart, rfl, hcompares⟩ := compares_of_within h
    have hnames (other : Operator) : condition.Names other.name ↔ operator = other := Wire.Condition.names_iff other
    have hsent : sent = value := Wire.Condition.member?_value _ _ _
    rw [hsent]
    refine ⟨?_, fun hequality => ?_, fun hrange => ?_⟩
    · rw [hcompares.carries]
      exact and_congr (not_congr (hnames .isNull).symm) (not_congr (hnames .isNotNull).symm)
    · exact hcompares.notNull (hequality.imp (hnames .equals).1 (hnames .notEquals).1)
    · obtain ⟨builder, low, high, rfl, hvalue⟩ := hcompares.bounds ((hnames .between).1 hrange)
      exact ⟨builder, field, low, high, hpart, rfl, hvalue⟩
  · intro conjunction conditions h
    obtain ⟨left, right, hpart, rfl⟩ := joined_of_within h
    exact ⟨left, right, hpart, rfl, rfl⟩
  · intro left conjunction right hpart
    have hjoin := toWire_joined left conjunction right
    exact ⟨hjoin, within_toWire_iff.2 ⟨_, hpart, hjoin.symm⟩⟩
  · intro part hpart hflat
    rcases joined_or_compares part with ⟨left, conjunction, right, hjoin⟩ | ⟨field, operator, value, hcompares⟩
    · exact absurd hjoin (hflat left conjunction right)
    · exact ⟨field, operator, value, hcompares, hcompares.toWire,
        within_toWire_iff.2 ⟨part, hpart, hcompares.toWire.symm⟩⟩

/-- a range written as a function, and an inequality with a number that is none, below two joins -/
theorem well_formed_on_wire_ranged :
    let dob : Field := ⟨.customer, ["dob"]⟩
    let tags : Field := ⟨.customer, ["tags"]⟩
    let range : Expression := .between .function dob (.text "2011") (.integer 2015)
    let known : Expression := .compared dob .notEquals (.real none)
    let both : Expression := .joined range .and known
    let tagged : Expression := .compared tags .isIn (.many [.absent, .truth false])
    let e : Expression := .joined both .or tagged
    let value : Json := .list [.string "2011", .ofInt 2015]
    let ranged : Wire.Condition := .atomic "dob" .between (some value)
    let test : Wire.Condition := .atomic "dob" .isNotNull none
    let inList : Wire.Condition := .atomic "tags" .isIn (some (.list [.null, .bool false]))
    (ranged.Within e.toWire ∧ test.Within e.toWire ∧ (Wire.Condition.composite .and [ranged, test]).Within e.toWire) ∧
    (∃ builder field low high, Within (.between builder field low high) e ∧ "dob" = field.path ∧
      ranged.toJson.member? "value" = some (.list [low.toJson, high.toJson])) ∧
    ((test.toJson.member? "value").isSome = true ↔ ¬test.Names "IS_NULL" ∧ ¬test.Names "IS_NOT_NULL") ∧
    (∃ left right, Within (.joined left .and right) e ∧ [ranged, test] = [left.toWire, right.toWire]) ∧
    e.toWire = .composite .or [.composite .and [ranged, test], inList] ∧
    known.toWire = (isNotNull dob).toWire := by
  intro dob tags range known both tagged e value ranged test inList
  have hdob : dob.path = "dob" := Dotted.ofKeys_singleton "dob"
  have htags : tags.path = "tags" := Dotted.ofKeys_singleton "tags"
  have hranged : range.toWire = ranged := congrArg (Wire.Condition.atomic · .between (some value)) hdob
  have htest : known.toWire = test := congrArg (Wire.Condition.atomic · .isNotNull none) hdob
  have hinList : tagged.toWire = inList := congrArg (Wire.Condition.atomic · .isIn _) htags
  have hrange : ranged.Within e.toWire :=
    within_toWire_iff.2 ⟨range, .left (.left .self .and known) .or tagged, hranged.symm⟩
  have hknown : test.Within e.toWire :=
    within_toWire_iff.2 ⟨known, .left (.right range .and .self) .or tagged, htest.symm⟩
  obtain ⟨hsent, hjoined, hjoins, -, htests⟩ := well_formed_on_wire e
  have hboth := hjoins range .and known (.left .self .or tagged)
  have hor := hjoins both .or tagged .self
  rw [hranged, htest] at hboth
  rw [hboth.1, hinList] at hor
  obtain ⟨left, right, hwithin, hsides, -⟩ := hjoined _ _ hboth.2
  exact ⟨⟨hrange, hknown, hboth.2⟩, (hsent _ _ _ hrange).2.2 rfl, (hsent _ _ _ hknown).1,
    ⟨left, right, hwithin, hsides⟩, hor.1, (htests dob _).2.2 (.inr (.inr rfl))⟩

end Expression

end ContactSync
