/-
Reading JSON text.

Two passes, each one walk along its input. `Lexer.step` takes one character and keeps the token it is inside of;
`Reader.step` takes one token and keeps the containers that are still open. Nothing is looked at twice and nothing is
guessed, so the whole text is refused at the first character or token that no JSON text has in that place.

A key written twice keeps its first place and its last value. At most 127 containers may be open at once.

- `Lexer.tokens?`: text to tokens.
- `Reader.value?`: tokens to a value.
- `Json.parse?`: both.
-/
import ContactSync.Json.Numeral

namespace ContactSync

/-! ## Tokens -/

inductive Token where
  | openList | closeList | openObject | closeObject | comma | colon
  | literal (value : Json)

namespace Lexer

/-- what the lexer is inside of; text so far is kept in reverse -/
inductive Mode where
  | between
  | word (sofar : List Char)
  | numeral (sofar : List Char)
  | quoted (sofar : List Char)
  | escape (sofar : List Char)
  | unicode (sofar : List Char) (high : Option Nat) (digits : List Nat)
  | surrogate (sofar : List Char) (high : Nat) (escapeSeen : Bool)

/-- tokens so far, in reverse, and the mode -/
structure State where
  tokens : List Token
  mode : Mode

/-- the value of a bare word -/
def word? : List Char → Option Json
  | ['n', 'u', 'l', 'l'] => some .null
  | ['t', 'r', 'u', 'e'] => some (.bool true)
  | ['f', 'a', 'l', 's', 'e'] => some (.bool false)
  | _ => none

def hex? (c : Char) : Option Nat :=
  if c.isDigit then some (c.toNat - '0'.toNat)
  else if 'a' ≤ c ∧ c ≤ 'f' then some (c.toNat - 'a'.toNat + 10)
  else if 'A' ≤ c ∧ c ≤ 'F' then some (c.toNat - 'A'.toNat + 10)
  else none

/-- the character of an escape of one letter -/
def letter? : Char → Option Char
  | '"' => some '"'
  | '\\' => some '\\'
  | '/' => some '/'
  | 'b' => some (Char.ofNat 8)
  | 'f' => some (Char.ofNat 12)
  | 'n' => some (Char.ofNat 10)
  | 'r' => some (Char.ofNat 13)
  | 't' => some (Char.ofNat 9)
  | _ => none

/-- a character outside of words, numerals and strings -/
def fresh? (tokens : List Token) (c : Char) : Option State :=
  if c = ' ' ∨ c = '\t' ∨ c = '\n' ∨ c = '\r' then some ⟨tokens, .between⟩
  else if c = '[' then some ⟨.openList :: tokens, .between⟩
  else if c = ']' then some ⟨.closeList :: tokens, .between⟩
  else if c = '\x7b' then some ⟨.openObject :: tokens, .between⟩
  else if c = '\x7d' then some ⟨.closeObject :: tokens, .between⟩
  else if c = ',' then some ⟨.comma :: tokens, .between⟩
  else if c = ':' then some ⟨.colon :: tokens, .between⟩
  else if c = '"' then some ⟨tokens, .quoted []⟩
  else if c = '-' ∨ c.isDigit then some ⟨tokens, .numeral [c]⟩
  else if c.isAlpha then some ⟨tokens, .word [c]⟩
  else none

def numeric (c : Char) : Bool :=
  c.isDigit || c == '.' || c == 'e' || c == 'E' || c == '+' || c == '-'

/-- closes a word or a numeral -/
def settle? (s : State) : Option (List Token) :=
  match s.mode with
  | .between => some s.tokens
  | .word w => (word? w.reverse).map fun j => .literal j :: s.tokens
  | .numeral w => (Numeral.read? w.reverse).map fun n => .literal (.number n) :: s.tokens
  | _ => none

/-- the four digits of a Unicode escape are there. A high surrogate waits for its low one; a low one needs its high
one before it -/
def escaped? (tokens : List Token) (sofar : List Char) (high : Option Nat) (unit : Nat) : Option State :=
  match high with
  | none =>
    if 0xD800 ≤ unit ∧ unit < 0xDC00 then some ⟨tokens, .surrogate sofar unit false⟩
    else if 0xDC00 ≤ unit ∧ unit < 0xE000 then none
    else some ⟨tokens, .quoted (Char.ofNat unit :: sofar)⟩
  | some h =>
    if 0xDC00 ≤ unit ∧ unit < 0xE000 then
      some ⟨tokens, .quoted (Char.ofNat (0x10000 + (h - 0xD800) * 0x400 + (unit - 0xDC00)) :: sofar)⟩
    else none

/-- one character -/
def step (s : State) (c : Char) : Option State :=
  match s.mode with
  | .between => fresh? s.tokens c
  | .word w =>
    if c.isAlpha then some ⟨s.tokens, .word (c :: w)⟩
    else (settle? s).bind fun tokens => fresh? tokens c
  | .numeral w =>
    if numeric c then some ⟨s.tokens, .numeral (c :: w)⟩
    else (settle? s).bind fun tokens => fresh? tokens c
  | .quoted w =>
    if c = '"' then some ⟨.literal (.string (String.ofList w.reverse)) :: s.tokens, .between⟩
    else if c = '\\' then some ⟨s.tokens, .escape w⟩
    else if c.toNat < 32 then none
    else some ⟨s.tokens, .quoted (c :: w)⟩
  | .escape w =>
    if c = 'u' then some ⟨s.tokens, .unicode w none []⟩
    else (letter? c).map fun d => ⟨s.tokens, .quoted (d :: w)⟩
  | .unicode w high digits =>
    (hex? c).bind fun d =>
      if digits.length < 3 then some ⟨s.tokens, .unicode w high (digits ++ [d])⟩
      else escaped? s.tokens w high ((digits ++ [d]).foldl (fun n d => n * 16 + d) 0)
  | .surrogate w high escapeSeen =>
    if c = '\\' ∧ escapeSeen = false then some ⟨s.tokens, .surrogate w high true⟩
    else if c = 'u' ∧ escapeSeen = true then some ⟨s.tokens, .unicode w (some high) []⟩
    else none

def tokens? (text : List Char) : Option (List Token) :=
  (text.foldlM step ⟨[], .between⟩).bind fun s => (settle? s).map List.reverse

end Lexer

/-! ## Values -/

namespace Reader

/-- a container that is open: a list, its elements in reverse, or an object with the key that waits for a value -/
inductive Frame where
  | list (items : List Json)
  | object (members : Tree) (key : Option String)

/-- what may come next -/
inductive Place where
  | value
  | firstElement
  | afterElement
  | firstKey
  | key
  | colon
  | nothing

/-- open containers, innermost first, what may come next, and the finished value -/
structure State where
  frames : List Frame
  place : Place
  result : Option Json

/-- the most containers that may be open at once -/
def depthLimit : Nat := 127

/-- a value is complete: it goes into the innermost container, or it is the result -/
def put? (frames : List Frame) (j : Json) : Option State :=
  match frames with
  | [] => some ⟨[], .nothing, some j⟩
  | .list items :: outer => some ⟨.list (j :: items) :: outer, .afterElement, none⟩
  | .object members (some key) :: outer => some ⟨.object (Tree.insert key j members) none :: outer, .afterElement, none⟩
  | .object _ none :: _ => none

/-- opens a container -/
def openFrame? (frames : List Frame) (frame : Frame) (place : Place) : Option State :=
  if frames.length < depthLimit then some ⟨frame :: frames, place, none⟩ else none

/-- closes the innermost container, when it is a list -/
def closeList? : List Frame → Option State
  | .list items :: outer => put? outer (.list items.reverse)
  | _ => none

/-- closes the innermost container, when it is an object -/
def closeObject? : List Frame → Option State
  | .object members none :: outer => put? outer (.object members)
  | _ => none

/-- a key is read: the innermost object waits for its value -/
def hold? (key : String) : List Frame → Option State
  | .object members none :: outer => some ⟨.object members (some key) :: outer, .colon, none⟩
  | _ => none

/-- a comma: another element of a list, another key of an object -/
def comma? (frames : List Frame) : Option State :=
  match frames with
  | .list _ :: _ => some ⟨frames, .value, none⟩
  | .object _ _ :: _ => some ⟨frames, .key, none⟩
  | [] => none

/-- the first token of a value -/
def begin? (frames : List Frame) : Token → Option State
  | .literal j => put? frames j
  | .openList => openFrame? frames (.list []) .firstElement
  | .openObject => openFrame? frames (.object [] none) .firstKey
  | _ => none

/-- one token -/
def step (s : State) (t : Token) : Option State :=
  match s.place, t with
  | .firstElement, .closeList => closeList? s.frames
  | .firstElement, t => begin? s.frames t
  | .value, t => begin? s.frames t
  | .afterElement, .comma => comma? s.frames
  | .afterElement, .closeList => closeList? s.frames
  | .afterElement, .closeObject => closeObject? s.frames
  | .firstKey, .closeObject => closeObject? s.frames
  | .firstKey, .literal (.string key) => hold? key s.frames
  | .key, .literal (.string key) => hold? key s.frames
  | .colon, .colon => some ⟨s.frames, .value, none⟩
  | _, _ => none

/-- the value that a list of tokens writes -/
def value? (tokens : List Token) : Option Json :=
  (tokens.foldlM step ⟨[], .value, none⟩).bind State.result

end Reader

def Json.parse? (text : String) : Option Json :=
  (Lexer.tokens? text.toList).bind Reader.value?

end ContactSync
