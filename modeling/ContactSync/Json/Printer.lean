/-
JSON values in writing.

Compact text has no spaces. Strings escape the quote, the backslash and the control characters below U+0020, which are
written by their letter where they have one and as four lower-case hexadecimal digits otherwise; everything else stands
as it is. Pretty text puts every element on a line of its own, two spaces deeper than its container; containers without
elements stay on one line.
-/
import ContactSync.Json.Numeral

namespace ContactSync

namespace Json

/-- one character inside a quoted string -/
def escaped (c : Char) : List Char :=
  if c = '"' then ['\\', '"']
  else if c = '\\' then ['\\', '\\']
  else if c.toNat = 8 then ['\\', 'b']
  else if c.toNat = 9 then ['\\', 't']
  else if c.toNat = 10 then ['\\', 'n']
  else if c.toNat = 12 then ['\\', 'f']
  else if c.toNat = 13 then ['\\', 'r']
  else if c.toNat < 32 then
    ['\\', 'u', '0', '0', Nat.digitChar (c.toNat / 16), Nat.digitChar (c.toNat % 16)]
  else [c]

/-- a string between quotes -/
def quoted (s : String) : String :=
  String.ofList ('"' :: s.toList.flatMap escaped ++ ['"'])

mutual
/-- a value in compact text -/
def text : Json → String
  | .null => "null"
  | .bool b => if b then "true" else "false"
  | .number n => n.text
  | .string s => quoted s
  | .list items => "[" ++ String.intercalate "," (itemTexts items) ++ "]"
  | .object members => "\x7b" ++ String.intercalate "," (memberTexts members) ++ "\x7d"
termination_by structural j => j

def itemTexts : List Json → List String
  | [] => []
  | j :: rest => text j :: itemTexts rest
termination_by structural items => items

def memberTexts : List (String × Json) → List String
  | [] => []
  | (k, v) :: rest => (quoted k ++ ":" ++ text v) :: memberTexts rest
termination_by structural members => members
end

/-- a new line at a depth of nesting -/
def newLine (depth : Nat) : String :=
  String.ofList ('\n' :: List.replicate (2 * depth) ' ')

mutual
/-- a value in pretty text, its first line standing at the given depth -/
def prettyAt (depth : Nat) : Json → String
  | .list [] => "[]"
  | .object [] => "\x7b\x7d"
  | .list items => "[" ++ String.intercalate "," (prettyItems depth items) ++ newLine depth ++ "]"
  | .object members => "\x7b" ++ String.intercalate "," (prettyMembers depth members) ++ newLine depth ++ "\x7d"
  | .null => "null"
  | .bool b => if b then "true" else "false"
  | .number n => n.text
  | .string s => quoted s
termination_by structural j => j

/-- the elements of a list at the given depth, each on its own line -/
def prettyItems (depth : Nat) : List Json → List String
  | [] => []
  | j :: rest => (newLine (depth + 1) ++ prettyAt (depth + 1) j) :: prettyItems depth rest
termination_by structural items => items

/-- the members of an object at the given depth, each on its own line -/
def prettyMembers (depth : Nat) : List (String × Json) → List String
  | [] => []
  | (k, v) :: rest => (newLine (depth + 1) ++ quoted k ++ ": " ++ prettyAt (depth + 1) v) :: prettyMembers depth rest
termination_by structural members => members
end

def pretty (j : Json) : String := prettyAt 0 j

end Json

def Tree.text (tree : Tree) : String := (Json.object tree).text

end ContactSync
