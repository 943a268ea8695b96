/-
Requests and answers as they travel, in the text form of HTTP 1.1 without encryption.

A request asks for the connection to be closed after the answer, so an answer is everything that comes back. Parameters
are written as a form: letters, digits and *-._ stand for themselves, a blank is a plus, any other byte is written after
a percent sign.

- `Target.ofUrl?`: where an address leads.
- `Message.ofRequest`: the bytes to send.
- `Message.exchange`: what the bytes of an answer say.
-/
import ContactSync.Hub.Exchange

namespace ContactSync

/-- where a request goes -/
structure Target where
  host : String
  tcpPort : Nat
  path : String
  deriving DecidableEq, Repr

/-- where an address without encryption leads -/
def Target.ofUrl? (url : String) : Option Target :=
  match url.toList with
  | 'h' :: 't' :: 't' :: 'p' :: ':' :: '/' :: '/' :: rest =>
    let authority := rest.takeWhile fun c => c != '/'
    let path := rest.dropWhile fun c => c != '/'
    let host := authority.takeWhile fun c => c != ':'
    let tcpPort := match authority.dropWhile fun c => c != ':' with
      | ':' :: digits => if digits.isEmpty then some 80 else (String.ofList digits).toNat?
      | _ => some 80
    if host.isEmpty then none
    else tcpPort.map fun number => ⟨String.ofList host, number, String.ofList (if path.isEmpty then ['/'] else path)⟩
  | _ => none

namespace Message

/-- a byte after a percent sign -/
def percent (b : UInt8) : List Char :=
  ['%', (Nat.digitChar (b.toNat / 16)).toUpper, (Nat.digitChar (b.toNat % 16)).toUpper]

/-- a byte of a form -/
def formByte (b : UInt8) : List Char :=
  let c := Char.ofNat b.toNat
  if c.isAlphanum || ['*', '-', '.', '_'].contains c then [c]
  else if c = ' ' then ['+']
  else percent b

/-- a byte of a path -/
def pathByte (b : UInt8) : List Char :=
  let c := Char.ofNat b.toNat
  if b.toNat ≤ 32 || 127 ≤ b.toNat || ['"', '#', '<', '>', '?', '\x60', '\x7b', '\x7d'].contains c then percent b
  else [c]

/-- a text with its bytes written one by one -/
def encoded (byte : UInt8 → List Char) (s : String) : String :=
  String.ofList (s.toUTF8.toList.flatMap byte)

/-- parameters as a form -/
def form (params : List (String × String)) : String :=
  String.intercalate "&" (params.map fun p => encoded formByte p.1 ++ "=" ++ encoded formByte p.2)

/-- a request in writing -/
def text (r : Request) (t : Target) : String :=
  let query := if r.params.isEmpty then "" else "?" ++ form r.params
  let body := (r.body.map Json.text).getD ""
  let own := r.headers.map fun h => h.1 ++ ": " ++ h.2
  let length := if r.body.isSome then ["Content-Length: " ++ toString body.utf8ByteSize] else []
  String.intercalate "\r\n"
    ([r.method.name ++ " " ++ encoded pathByte t.path ++ query ++ " HTTP/1.1",
      "Host: " ++ t.host ++ ":" ++ toString t.tcpPort, "Accept: */*", "Connection: close"] ++ own ++ length ++ ["", body])

/-- the bytes of a request -/
def ofRequest (r : Request) (t : Target) : ByteArray := (text r t).toUTF8

/-! ## Answers -/

/-- the lines before the first empty line, and what follows it -/
def head : List Char → List UInt8 → List String × List UInt8
  | line, 13 :: 10 :: rest =>
    if line.isEmpty then ([], rest)
    else let (lines, body) := head [] rest; (String.ofList line.reverse :: lines, body)
  | line, b :: rest => head (Char.ofNat b.toNat :: line) rest
  | line, [] => (if line.isEmpty then [] else [String.ofList line.reverse], [])

def header? (name : String) (lines : List String) : Option String :=
  lines.findSome? fun line =>
    let cs := line.toList
    if (String.ofList (cs.takeWhile fun c => c != ':')).toLower = name then
      some (String.ofList (((cs.dropWhile fun c => c != ':').drop 1).filter fun c => !c.isWhitespace))
    else none

/-- the number that hexadecimal digits at the start of a line write -/
def chunkSize (line : List UInt8) : Nat :=
  ((line.map fun b => Char.ofNat b.toNat).map Lexer.hex?).takeWhile Option.isSome
    |>.foldl (fun n d => n * 16 + d.getD 0) 0

/-- joins the chunks of a body, as many as its length bounds -/
def unchunked : Nat → List UInt8 → List UInt8
  | 0, _ => []
  | count + 1, bytes =>
    let size := chunkSize (bytes.takeWhile fun b => b != 13)
    let rest := (bytes.dropWhile fun b => b != 10).drop 1
    if size = 0 then [] else rest.take size ++ unchunked count ((rest.drop size).drop 2)

def status? (line : String) : Option Nat :=
  (String.ofList (((line.toList.dropWhile fun c => c != ' ').drop 1).takeWhile fun c => c != ' ')).toNat?

/-- a body as text; one that is no text is not JSON either -/
def bodyText (bytes : List UInt8) : String :=
  (String.fromUTF8? ⟨bytes.toArray⟩).getD "\ufffd"

/-- what the bytes of an answer say -/
def exchange (answer : ByteArray) : Exchange :=
  let (lines, rest) := head [] answer.toList
  match lines.head?.bind status? with
  | none => .dropped
  | some status =>
    let body :=
      if header? "transfer-encoding" lines = some "chunked" then unchunked rest.length rest
      else match (header? "content-length" lines).bind String.toNat? with
        | some length => rest.take length
        | none => rest
    .answered status (bodyText body)

end Message

end ContactSync
