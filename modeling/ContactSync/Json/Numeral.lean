/-
Numbers in JSON text.

Reading takes the digits into a 64-bit significand and a power of ten. Once a digit would overflow the significand,
the digits left in the whole part only count into the power of ten, and those left in the fraction are dropped. A
numeral without fraction and exponent that fits is an integer; any other is the significand, rounded to a double, times
or divided by the rounded power of ten, rounded again. So the last bit of a long numeral may differ from the nearest
double's: the two roundings are part of the format.

- `Numeral.read?`: a whole numeral, or nothing when the text is none or its value is above the largest double.
- `Number.text`: integers in full, doubles by their shortest digits.
-/
import ContactSync.Decimal.Shortest
import ContactSync.Json.Basic

namespace ContactSync

namespace Numeral

open Double (twoTo tenTo)

def digit? (c : Char) : Option Nat :=
  if c.isDigit then some (c.toNat - '0'.toNat) else none

/-- takes digits into the significand as long as it stays below 2^64; answers it and the digits left over -/
def absorb : Nat → List Nat → Nat × List Nat
  | s, [] => (s, [])
  | s, d :: rest => if s * 10 + d < twoTo 64 then absorb (s * 10 + d) rest else (s, d :: rest)

/-- the double nearest to 10^k, for k up to 308 -/
def power (k : Nat) : Double :=
  (Double.ofRatio? false (tenTo k) 1).getD (Double.zero false)

/-- divides by 10^k: by 10^308 as long as k is above 308 and something is left to divide -/
def lower : Nat → Double → Nat → Double
  | 0, d, _ => d
  | n + 1, d, k =>
    if k ≤ 308 then (d.over? (power k)).getD d
    else if d.isZero then d
    else lower n ((d.over? (power 308)).getD d) (k - 308)

/-- significand · 10^scale as a double: one rounding for the significand, one for each factor. Three divisions leave
nothing of a 64-bit significand -/
def scaled? (negative : Bool) (significand : Nat) (scale : Int) : Option Double :=
  (Double.ofRatio? negative significand 1).bind fun d =>
    if scale < 0 then some (lower 4 d scale.natAbs)
    else if scale ≤ 308 then d.times? (power scale.toNat)
    else if d.isZero then some d
    else none

/-- the largest magnitude an exponent is read to -/
def exponentBound : Nat := twoTo 31

/-- the digits of an exponent, at least one -/
def exponentDigits? (text : List Char) : Option (List Nat) :=
  if text.isEmpty then none else text.mapM digit?

/-- an exponent after its letter: whether it points down, and its digits -/
def exponent? : List Char → Option (Bool × List Nat)
  | '+' :: text => (exponentDigits? text).map (Prod.mk false)
  | '-' :: text => (exponentDigits? text).map (Prod.mk true)
  | text => (exponentDigits? text).map (Prod.mk false)

/-- a double from its significand, its scale, and an exponent on top -/
def double? (negative : Bool) (significand : Nat) (scale : Int) (down : Bool) (exponent : List Nat) : Option Double :=
  let e := exponent.foldl (fun n d => n * 10 + d) 0
  if e < exponentBound then scaled? negative significand (if down then scale - e else scale + e)
  else if significand = 0 ∨ down = true then some (Double.zero negative)
  else none

/-- a double whose digits are read, with whatever exponent part follows them -/
def finish? (negative : Bool) (significand : Nat) (scale : Int) : List Char → Option Number
  | [] => (scaled? negative significand scale).map .double
  | c :: text =>
    if c = 'e' ∨ c = 'E' then
      (exponent? text).bind fun (down, ds) => (double? negative significand scale down ds).map .double
    else none

/-- a numeral that starts with its first digit; a leading zero stands alone -/
def unsigned? (negative : Bool) (text : List Char) : Option Number :=
  let whole := text.takeWhile Char.isDigit
  let (s, left) := absorb 0 (whole.filterMap digit?)
  if whole.isEmpty || (whole.head? == some '0' && 1 < whole.length) then none
  else match text.dropWhile Char.isDigit with
    | [] =>
      if !left.isEmpty then (scaled? negative s left.length).map .double
      else if !negative then some (.integer s)
      else if s = 0 ∨ twoTo 63 < s then (Double.ofRatio? true s 1).map .double
      else some (.integer (-s))
    | '.' :: tail =>
      let fraction := (tail.takeWhile Char.isDigit).filterMap digit?
      let (s', dropped) := absorb s fraction
      if fraction.isEmpty then none
      else finish? negative s' ((left.length : Int) + dropped.length - fraction.length) (tail.dropWhile Char.isDigit)
    | tail => finish? negative s left.length tail

/-- the number a whole text writes -/
def read? : List Char → Option Number
  | '-' :: text => unsigned? true text
  | text => unsigned? false text

end Numeral

def Number.text : Number → String
  | .integer i => toString i
  | .double d => d.text

end ContactSync
