/-
Dotted texts.

A dotted text such as base.contacts.email names a place in a tree by the keys that lead there. Its components are the
pieces between the points, empty ones left out, so leading, trailing and doubled points do not matter.

- `components`: a text to its keys.
- `join`: a key below a dotted text; below the empty text it is the key alone.
- `below?`: the text that is left of a path when another path and a point are taken off its front. It is there exactly
  when the first path lies textually below the second.
-/
namespace ContactSync

namespace Dotted

/-- the pieces of a text between its points; there is always at least one -/
def pieces : List Char → List (List Char)
  | [] => [[]]
  | c :: rest =>
    if c = '.' then [] :: pieces rest
    else match pieces rest with
      | piece :: others => (c :: piece) :: others
      | [] => [[c]]

/-- the keys that a dotted text names -/
def components (text : String) : List String :=
  ((pieces text.toList).filter fun piece => !piece.isEmpty).map String.ofList

/-- a key below a dotted text -/
def join (path key : String) : String :=
  if path = "" then key else path ++ "." ++ key

/-- keys with points between them -/
def ofKeys (keys : List String) : String :=
  String.intercalate "." keys

/-- what follows a row of characters at the start of another -/
def after? : List Char → List Char → Option (List Char)
  | [], text => some text
  | c :: start, d :: text => if c = d then after? start text else none
  | _ :: _, [] => none

/-- what follows `path` and a point at the start of `text` -/
def below? (path text : String) : Option String :=
  (after? (path.toList ++ ['.']) text.toList).map String.ofList

/-- whether a text starts with `path` and a point -/
def isBelow (path text : String) : Bool :=
  (below? path text).isSome

/-- a key that a dotted text can name: not empty and without a point -/
def PlainKey (key : String) : Prop :=
  key ≠ "" ∧ '.' ∉ key.toList

end Dotted

end ContactSync
