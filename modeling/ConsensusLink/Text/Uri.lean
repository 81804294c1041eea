/-!
# Addresses of services, as a program writes them

The strict grammar of the address of a service: a path, a host with or without a number, or a
scheme, a host and a path, in which every character is one that may stand in its place.
-/

namespace ConsensusLink

namespace Uri

/-- Whether a character may stand before the path. A percent sign may stand in the user's part
alone. -/
def isAuthorityChar (c : Char) : Bool :=
  c.isAlphanum || c ∈ "!$&'()*+,-.:;=@[]_~%".toList

/-- Whether a character may stand in the name of a scheme. -/
def isSchemeChar (c : Char) : Bool := c.isAlphanum || c ∈ "+-.~".toList

/-- The part before `://` and the rest, if there is such a part. -/
def splitScheme (cs : List Char) : Option (List Char × List Char) :=
  match cs.dropWhile isSchemeChar with
  | ':' :: '/' :: '/' :: rest =>
    if 3 < cs.length then some (cs.takeWhile isSchemeChar, rest) else none
  | _ => none

/-- Whether brackets are closed, and come once at most. -/
def hasPairedBrackets (cs : List Char) : Bool :=
  match cs.filter fun c => c = '[' || c = ']' with
  | [] | ['[', ']'] => true
  | _ => false

/-- Whether the part before the path may stand there. It is made of pieces that end with `@`, the
user's part, or with a bracket that closes, a host in brackets; the last piece may have a number.
What the user's part and the brackets may have, a percent sign or several colons, the last piece
may not. -/
def isAuthority (cs : List Char) : Bool :=
  let pieces := cs.splitOnP fun c => c = '@' || c = ']'
  let isPiece (piece : List Char) : Bool :=
    piece.count ':' ≤ 8 && !(piece.contains '[' && (piece.takeWhile (· ≠ '[')).contains '%')
  let isLastPiece (piece : List Char) : Bool := piece.count ':' ≤ 1 && !piece.contains '%'
  cs.all isAuthorityChar && hasPairedBrackets cs && cs.getLast? ≠ some '@' &&
    pieces.all isPiece && (pieces.getLast?.all isLastPiece)

/-- Whether a character may stand in a path. -/
def isPathChar (c : Char) : Bool :=
  c.toNat = 0x21 || 0x24 ≤ c.toNat && c.toNat ≤ 0x3b || c = '=' ||
    0x40 ≤ c.toNat && c.toNat ≤ 0x5f || 0x61 ≤ c.toNat && c.toNat ≤ 0x7a || c = '|' || c = '~' ||
    0x7f ≤ c.toNat || c = '"' || c = '\x7b' || c = '\x7d'

/-- Whether a character may stand in a query. -/
def isQueryChar (c : Char) : Bool :=
  c.toNat = 0x21 || 0x24 ≤ c.toNat && c.toNat ≤ 0x3b || c = '=' || 0x3f ≤ c.toNat

/-- Whether a path may stand there, with its query. What follows the mark `#` does not count. -/
def isPath (cs : List Char) : Bool :=
  let cs := cs.takeWhile (· ≠ '#')
  let query := (cs.dropWhile (· ≠ '?')).drop 1
  (cs.takeWhile (· ≠ '?')).all isPathChar && query.all isQueryChar

/-- Where the part before the path ends. -/
def endsAuthority (c : Char) : Bool := c = '/' || c = '?' || c = '#'

/-- Whether a text is the address of a service: a path, a host with or without a number, or a
scheme, a host and a path. -/
def isWellFormed (s : String) : Bool :=
  match s.toList with
  | [] => false
  | ['*'] => true
  | '/' :: rest => isPath ('/' :: rest)
  | cs =>
    match splitScheme cs with
    | none => isAuthority cs
    | some (scheme, rest) =>
      let authority := rest.takeWhile (!endsAuthority ·)
      scheme.length ≤ 64 && authority ≠ [] && isAuthority authority &&
        isPath (rest.dropWhile (!endsAuthority ·))

end Uri

end ConsensusLink
