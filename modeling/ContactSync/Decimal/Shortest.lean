/-
The shortest decimal that reads back as a given double.

A double stands for every real number that rounds to it: an interval around m · 2^q, its ends included exactly when m
is even. For one digit, two digits and so on, `Shortest.search` looks at the two neighbours of the value on the grid of
that many digits; the first grid with a neighbour in the interval wins, and of two the nearer one, a tie going to the
even digit. Seventeen digits always suffice.

- `Shortest.digits`: digits d and scale k of the decimal d · 10^k.
- `Double.text`: the decimal in writing. Positional between 10^-5 and 10^16 with at least one digit after the point,
  otherwise scientific with an explicit sign of the exponent.
-/
import ContactSync.Decimal.Double

namespace ContactSync

namespace Shortest

open Double (twoTo tenTo)

/-- four times the interval's lower end, in units of 2^(q-2): half a unit in the last place below the value, a quarter
where the value is the smallest of its binade -/
def lowEnd (m : Nat) (q : Int) : Nat :=
  if m = twoTo 52 ∧ -1074 < q then 4 * m - 1 else 4 * m - 2

/-- the neighbour of m · 2^q on the grid of multiples of 10^k that reads back, if one does -/
def onGrid? (m : Nat) (q k : Int) : Option Nat :=
  let unit := tenTo k.toNat * twoTo (2 - q).toNat
  let scale := twoTo (q - 2).toNat * tenTo (-k).toNat
  let value := 4 * m * scale
  let low := lowEnd m q * scale
  let high := (4 * m + 2) * scale
  let inside (c : Nat) : Bool :=
    if m % 2 = 0 then low ≤ c * unit && c * unit ≤ high else low < c * unit && c * unit < high
  let c := value / unit
  let below := value - c * unit
  let above := (c + 1) * unit - value
  match inside c, inside (c + 1) with
  | true, true =>
    some (if below < above then c else if above < below then c + 1 else if c % 2 = 0 then c else c + 1)
  | true, false => some c
  | false, true => some (c + 1)
  | false, false => none

/-- the grids from 10^k downwards, one digit more each time -/
def search (m : Nat) (q : Int) : Nat → Int → Nat × Int
  | 0, k => ((onGrid? m q k).getD 0, k)
  | n + 1, k =>
    match onGrid? m q k with
    | some c => (c, k)
    | none => search m q n (k - 1)

/-- the decimal exponent of m · 2^q: the greatest E with 10^E ≤ m · 2^q -/
def magnitude (m : Nat) (q : Int) : Int :=
  let guess := ((m.log2 : Int) + q) * 30103 / 100000
  let reaches (e : Int) : Bool := tenTo e.toNat * twoTo (-q).toNat ≤ m * twoTo q.toNat * tenTo (-e).toNat
  if reaches (guess + 1) then guess + 1 else if reaches guess then guess else guess - 1

/-- digits d and scale k of the shortest decimal d · 10^k that reads back as m · 2^q -/
def digits (m : Nat) (q : Int) : Nat × Int :=
  search m q 17 (magnitude m q)

end Shortest

namespace Double

def trimZeros (s : List Char) : List Char :=
  (s.reverse.dropWhile (· == '0')).reverse

/-- digits and decimal exponent (the power of ten of the first digit) in writing -/
def layout (digits : List Char) (e : Int) : String :=
  if -5 ≤ e ∧ e ≤ 15 then
    if 0 ≤ e then
      let whole := digits.take (e.toNat + 1) ++ List.replicate (e.toNat + 1 - digits.length) '0'
      let part := digits.drop (e.toNat + 1)
      String.ofList (whole ++ '.' :: if part.isEmpty then ['0'] else part)
    else
      String.ofList ('0' :: '.' :: List.replicate ((-e).toNat - 1) '0' ++ digits)
  else
    let fraction := digits.drop 1
    let point := if fraction.isEmpty then [] else '.' :: fraction
    String.ofList (digits.take 1 ++ point ++ ['e', if e < 0 then '-' else '+']) ++ toString e.natAbs

/-- a double in writing: the shortest digits that read back -/
def text (d : Double) : String :=
  let sign := if d.negative then "-" else ""
  if d.isZero then sign ++ "0.0"
  else
    let (c, k) := Shortest.digits d.mantissa d.exponent
    let all := Nat.toDigits 10 c
    sign ++ layout (trimZeros all) (k + (all.length : Int) - 1)

end Double

end ContactSync
