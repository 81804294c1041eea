import ConsensusLink.Text.HttpUrl
/-!
# Requests and responses over HTTP

The bytes of a request that posts a JSON text to an address, and the response that bytes are, as far
as they have arrived. A response says itself where it ends: by the length of its body, by the empty
piece that ends a body in pieces, or by the end of the connection.
-/

namespace ConsensusLink

/-- The name of the host and the number of the service, if it is not the usual one, as they stand
in a request. -/
def HttpUrl.authority (u : HttpUrl) : String :=
  match u.service with
  | some service => u.host ++ ":" ++ toString service
  | none => u.host

/-- What a request asks the host for: the path, which begins with a slash. -/
def HttpUrl.target (u : HttpUrl) : String := if u.path.startsWith "/" then u.path else "/" ++ u.path

/-- The lines of text, each with its end. -/
def crlfLines (lines : List String) : String := String.join (lines.map (· ++ "\r\n"))

/-- A request that posts a JSON text to an address and asks for the end of the connection. -/
def HttpUrl.post (u : HttpUrl) (text : String) : ByteArray :=
  let head := crlfLines [
    "POST " ++ u.target ++ " HTTP/1.1",
    "host: " ++ u.authority,
    "content-type: application/json",
    "accept: application/json",
    "connection: close",
    "content-length: " ++ toString text.utf8ByteSize,
    ""]
  (head ++ text).toUTF8

/-- A response. -/
structure HttpResponse where
  /-- The status. -/
  status : Nat
  /-- The body. -/
  body : Bytes
deriving DecidableEq, Inhabited, Repr

namespace HttpResponse

/-- The bytes before the first end of a line and those after it, if the line has ended. -/
def splitLine? : Bytes → Option (Bytes × Bytes)
  | 13 :: 10 :: rest => some ([], rest)
  | b :: rest => (splitLine? rest).map fun (line, rest) => (b :: line, rest)
  | [] => none

/-- The characters of a line, one for each byte. -/
def lineText (line : Bytes) : List Char := line.map fun b => Char.ofNat b.toNat

/-- The lines up to the first empty one and what follows that, if it has arrived. The first argument
bounds the number of lines. -/
def splitHead? : Nat → Bytes → Option (List (List Char) × Bytes)
  | 0, _ => none
  | fuel + 1, bs => do
    let (line, rest) ← splitLine? bs
    if line = [] then some ([], rest)
    else
      let (lines, rest) ← splitHead? fuel rest
      some (lineText line :: lines, rest)

/-- The status in the first line: the three digits behind the first blank. -/
def status? (line : List Char) : Option Nat :=
  let digits := ((line.dropWhile (· ≠ ' ')).drop 1).takeWhile Char.isDigit
  if digits.length = 3 then HttpUrl.numberOf? 10 digits else none

/-- The value of a field, in lower case and without blanks at its ends. -/
def field? (name : String) (lines : List (List Char)) : Option (List Char) :=
  lines.findSome? fun line =>
    if (line.takeWhile (· ≠ ':')).map Char.toLower = name.toList then
      some (HttpUrl.trim Char.isWhitespace (((line.dropWhile (· ≠ ':')).drop 1).map Char.toLower))
    else none

/-- The length that digits stand for, of which there is one at least. -/
def length? (base : Nat) (digits : List Char) : Option Nat :=
  if digits = [] then none else HttpUrl.numberOf? base digits

/-- The pieces of a body up to the empty one, if that has arrived. Each stands behind a line with
its length. The first argument bounds the number of pieces. -/
def joinPieces? : Nat → Bytes → Option Bytes
  | 0, _ => none
  | fuel + 1, bs => do
    let (line, rest) ← splitLine? bs
    let size ← length? 16 ((lineText line).takeWhile fun c => c ≠ ';' && c ≠ ' ')
    if size = 0 then some []
    else if rest.length < size + 2 then none
    else some (rest.take size ++ (← joinPieces? fuel (rest.drop (size + 2))))

/-- The body behind a head, if all of it has arrived. -/
def body? (lines : List (List Char)) (ended : Bool) (bs : Bytes) : Option Bytes :=
  if field? "transfer-encoding" lines = some "chunked".toList then joinPieces? (bs.length + 1) bs
  else
    match field? "content-length" lines with
    | some digits => do
      let n ← length? 10 digits
      if bs.length < n then none else some (bs.take n)
    | none => if ended then some bs else none

/-- The response that bytes are, if all of it has arrived; `ended` says that nothing will follow. -/
def read? (ended : Bool) (bs : Bytes) : Option HttpResponse := do
  let (lines, rest) ← splitHead? (bs.length + 1) bs
  return ⟨← lines.head? >>= status?, ← body? lines ended rest⟩

/-- The body as text, if it is text. -/
def text? (r : HttpResponse) : Option String := String.fromUTF8? (ByteArray.mk r.body.toArray)

end HttpResponse

end ConsensusLink
