/-
Session ids: random identifiers in the usual form of 32 hexadecimal digits in five groups, version 4.
-/
namespace ContactSync

namespace SessionId

/-- the lengths of the groups of digits -/
def groups : List Nat := [8, 4, 4, 4, 12]

/-- the last digits of a number, base 16, most significant first -/
def hexDigits : Nat → Nat → List Char
  | 0, _ => []
  | count + 1, n => hexDigits count (n / 16) ++ [Nat.digitChar (n % 16)]

/-- cuts a row of characters into groups with dashes between them -/
def dashed : List Nat → List Char → List Char
  | [], _ => []
  | [size], cs => cs.take size
  | size :: rest, cs => cs.take size ++ '-' :: dashed rest (cs.drop size)

/-- the identifier of 122 random bits: digit 13 is the version, the two high bits of digit 17 the variant -/
def ofRandom (bits : Nat) : String :=
  let high := hexDigits 12 (bits >>> 74)
  let middle := hexDigits 3 (bits >>> 62)
  let variant := Nat.digitChar (8 + (bits >>> 60) % 4)
  let low := hexDigits 15 bits
  String.ofList (dashed groups (high ++ '4' :: middle ++ variant :: low))

end SessionId

end ContactSync
