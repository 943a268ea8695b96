/-
Finite binary64 numbers in exact integer arithmetic.

A `Double` is sign, mantissa and exponent; infinity and NaN have no value here, so a calculation that would leave the
range answers `none`. Every operation forms the exact ratio of two naturals and rounds it once (`ofRatio?`), to nearest
with ties to even, which is what the format prescribes for one operation.

- `roundEven`: a ratio to its nearest natural, a half to the even neighbour.
- `ofRatio?`: a ratio to its nearest double, subnormals included, `none` above the largest finite one.
- `times?`, `over?`: one rounded multiplication, one rounded division.
- `same`: equality of values, in which the two zeros agree.
-/
namespace ContactSync

/-- a finite binary64 number, (-1)^negative · mantissa · 2^exponent, with the exponent as small as 53 bits and the
bound -1074 allow -/
structure Double where
  negative : Bool
  mantissa : Nat
  exponent : Int
  deriving DecidableEq, Repr

namespace Double

def twoTo (k : Nat) : Nat := Nat.pow 2 k

def tenTo (k : Nat) : Nat := Nat.pow 10 k

/-- num / den to the nearest natural, a half to the even neighbour -/
def roundEven (num den : Nat) : Nat :=
  let q := num / den
  let r := num % den
  if 2 * r < den then q
  else if den < 2 * r then q + 1
  else if q % 2 = 0 then q else q + 1

def zero (negative : Bool) : Double := ⟨negative, 0, -1074⟩

/-- the double nearest to num / den; `none` above the largest finite one -/
def ofRatio? (negative : Bool) (num den : Nat) : Option Double :=
  if num = 0 then some (zero negative)
  else
    let low : Int := max ((num.log2 : Int) - (den.log2 : Int) - 53) (-1074)
    let top (e : Int) : Nat := num * twoTo (-e).toNat
    let bottom (e : Int) : Nat := den * twoTo e.toNat
    let e := if twoTo 53 * bottom low ≤ top low then low + 1 else low
    let m := roundEven (top e) (bottom e)
    let m' := if m = twoTo 53 then twoTo 52 else m
    let e' := if m = twoTo 53 then e + 1 else e
    if 971 < e' then none else some ⟨negative, m', e'⟩

/-- the magnitude as a ratio of two naturals -/
def ratio (d : Double) : Nat × Nat :=
  (d.mantissa * twoTo d.exponent.toNat, twoTo (-d.exponent).toNat)

def isZero (d : Double) : Bool := d.mantissa == 0

/-- the product of the magnitudes, rounded once -/
def times? (a b : Double) : Option Double :=
  ofRatio? a.negative (a.ratio.1 * b.ratio.1) (a.ratio.2 * b.ratio.2)

/-- the quotient of the magnitudes, rounded once -/
def over? (a b : Double) : Option Double :=
  ofRatio? a.negative (a.ratio.1 * b.ratio.2) (a.ratio.2 * b.ratio.1)

/-- the double nearest to an integer of at most 64 bits -/
def ofInt (i : Int) : Double :=
  (ofRatio? (i < 0) i.natAbs 1).getD (zero false)

/-- equality of values: 0.0 and -0.0 agree -/
def same (a b : Double) : Bool :=
  a == b || (a.isZero && b.isZero)

end Double

end ContactSync
