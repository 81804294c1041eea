import ConsensusLink.Text.Hex
/-!
# Addresses of web services, as a user types them

`HttpUrl.parse?` reads the address of a service that is reached over HTTP. The grammar is the
lenient one of browsers: blanks around the address and line ends within it do not count, slashes of
either kind and of any number may follow the scheme, letters may be of either case, a host may be
written with escapes, and a number may stand for the four bytes of an internet address.
-/

namespace ConsensusLink

/-- The address of a service that is reached over HTTP. -/
structure HttpUrl where
  /-- Whether the connection is to be encrypted. -/
  isSecure : Bool
  /-- The host, in lower case; an address of the newer kind stands in brackets. -/
  host : String
  /-- The number of the service at the host, if it is given and is not the usual one. -/
  service : Option UInt16
  /-- What follows the host, up to the mark `#`. -/
  path : String
deriving DecidableEq, Inhabited, Repr

namespace HttpUrl

/-- Takes characters off both ends. -/
def trim (p : Char → Bool) (cs : List Char) : List Char :=
  ((cs.dropWhile p).reverse.dropWhile p).reverse

/-- The characters of an address that count. -/
def clean (s : String) : List Char :=
  (trim (·.toNat ≤ 32) s.toList).filter fun c => c ≠ '\t' && c ≠ '\n' && c ≠ '\r'

/-- The scheme, in lower case, and what follows its colon. -/
def splitScheme? (cs : List Char) : Option (String × List Char) :=
  let isSchemeChar (c : Char) : Bool := c.isAlphanum || c = '+' || c = '-' || c = '.'
  match cs, cs.dropWhile isSchemeChar with
  | c :: _, ':' :: rest =>
    if c.isAlpha then some (String.ofList ((cs.takeWhile isSchemeChar).map Char.toLower), rest)
    else none
  | _, _ => none

/-- Whether a character is a slash of either kind. -/
def isSlash (c : Char) : Bool := c = '/' || c = '\\'

/-- Whether a character ends the part that names the host. -/
def endsHost (c : Char) : Bool := isSlash c || c = '?' || c = '#'

/-- Takes the user's part off the front, up to the last `@`. There must be a host behind it. -/
def dropUser? (cs : List Char) : Option (List Char) :=
  if cs.contains '@' then
    let host := (cs.reverse.takeWhile (· ≠ '@')).reverse
    if host = [] then none else some host
  else some cs

/-- Splits a host from the number of the service at the first colon outside brackets. -/
def splitService : Bool → List Char → List Char × Option (List Char)
  | _, [] => ([], none)
  | inBrackets, c :: rest =>
    if c = ':' ∧ !inBrackets then ([], some rest)
    else
      let inBrackets := c = '[' || inBrackets && c ≠ ']'
      let (host, service) := splitService inBrackets rest
      (c :: host, service)

/-- The number that digits stand for in a given base, if they are digits of the base. -/
def numberOf? (base : Nat) (cs : List Char) : Option Nat :=
  cs.foldlM (fun n c => do
    let d ← Hex.value? c
    if d < base then some (n * base + d) else none) 0

/-- The number of a service that digits stand for; without digits there is none, and none is
given. -/
def service? : Option (List Char) → Option (Option UInt16)
  | none | some [] => some none
  | some cs => do
    let n ← numberOf? 10 cs
    if n < UInt16.size then some (some (UInt16.ofNat n)) else none

/-! ### Numbers as hosts -/

/-- The number that a part of a numeric host stands for: hexadecimal after `0x`, octal after a zero,
and decimal otherwise. -/
def partValue? : List Char → Option Nat
  | [] => none
  | '0' :: x :: digits =>
    if x = 'x' ∨ x = 'X' then numberOf? 16 digits else numberOf? 8 (x :: digits)
  | cs => numberOf? 10 cs

/-- The parts of a host between its dots; a dot at the end does not count. -/
def hostParts (host : List Char) : List (List Char) :=
  let parts := host.splitOn '.'
  if parts.getLast? = some [] ∧ 1 < parts.length then parts.dropLast else parts

/-- Whether a host has to be numeric: its last part is a number. -/
def endsInNumber (host : List Char) : Bool :=
  match (hostParts host).getLast? with
  | none | some [] => false
  | some last =>
    last.all Char.isDigit ||
      (match last with
        | '0' :: x :: digits => (x = 'x' || x = 'X') && (numberOf? 16 digits).isSome
        | _ => false)

/-- Whether a numeric host stands for four bytes: its last part fills all bytes that the parts
before it leave. -/
def isNumeric (host : List Char) : Bool :=
  match (hostParts host).mapM partValue? with
  | none | some [] => false
  | some values =>
    values.length ≤ 4 && values.dropLast.all (· < 256) &&
      values.getLast?.all (· < 1 <<< (8 * (5 - values.length)))

/-- Whether a text is four decimal bytes with dots between them, without superfluous zeros. -/
def isDotted (cs : List Char) : Bool :=
  let parts := cs.splitOn '.'
  parts.length = 4 && parts.all fun p =>
    p ≠ [] && p.all Char.isDigit && (p.head? ≠ some '0' || p.length = 1) &&
      (numberOf? 10 p).any (· < 256)

/-- The number of two-byte groups that a text of groups with colons between them has, if it is
one; the last two groups may be four decimal bytes. -/
def groupCount? (cs : List Char) : Option Nat :=
  if cs = [] then some 0
  else
    let groups := cs.splitOn ':'
    let isGroup (g : List Char) : Bool := g ≠ [] && g.length ≤ 4 && g.all (Hex.value? · |>.isSome)
    if !groups.dropLast.all isGroup then none
    else
      match groups.getLast? with
      | some last =>
        if isGroup last then some groups.length
        else if isDotted last then some (groups.length + 1)
        else none
      | none => none

/-- The halves of a text around its first two colons in a row. -/
def splitGap : List Char → List Char × Option (List Char)
  | ':' :: ':' :: rest => ([], some rest)
  | [] => ([], none)
  | c :: rest => let (a, b) := splitGap rest; (c :: a, b)

/-- Whether a text is an address of eight groups, of which one run of groups may be left out. -/
def isGrouped (cs : List Char) : Bool :=
  match splitGap cs with
  | (all, none) => groupCount? all = some 8
  | (before, some after) =>
    match groupCount? before, groupCount? after with
    | some m, some n => m + n ≤ 7 && !(before.contains '.')
    | _, _ => false

/-! ### Hosts -/

/-- Resolves escapes; an escape that is none stands for itself. -/
def unescape : List Char → List UInt8
  | '%' :: a :: b :: rest =>
    match Hex.value? a, Hex.value? b with
    | some high, some low => UInt8.ofNat (16 * high + low) :: unescape rest
    | _, _ => 37 :: unescape (a :: b :: rest)
  | c :: rest => (String.singleton c).toUTF8.toList ++ unescape rest
  | [] => []

/-- Whether a character may stand in the name of a host. -/
def isHostChar (c : Char) : Bool :=
  32 < c.toNat && c.toNat ≠ 127 && c ∉ "#%/:<>?@[\\]^|".toList

/-- The host that characters stand for. -/
def host? (cs : List Char) : Option String :=
  match cs with
  | '[' :: rest =>
    if rest.getLast? = some ']' ∧ isGrouped rest.dropLast then
      some (String.ofList (cs.map Char.toLower))
    else none
  | _ => do
    let name ← String.fromUTF8? (ByteArray.mk (unescape cs).toArray)
    let name := name.toList.map Char.toLower
    if name = [] ∨ !name.all isHostChar then none
    else if endsInNumber name ∧ !isNumeric name then none
    else some (String.ofList name)

/-- The address that a text stands for, if it is one of a service reached over HTTP. -/
def parse? (s : String) : Option HttpUrl := do
  let (scheme, rest) ← splitScheme? (clean s)
  let isSecure ← [("http", false), ("https", true)].lookup scheme
  let rest := rest.dropWhile isSlash
  let (host, service) := splitService false (← dropUser? (rest.takeWhile (!endsHost ·)))
  let path := (rest.dropWhile (!endsHost ·)).takeWhile (· ≠ '#')
  let usual : UInt16 := if isSecure then 443 else 80
  return {
    isSecure
    host := ← host? host
    service := (← service? service).filter (· ≠ usual)
    path := String.ofList path }

end HttpUrl

end ConsensusLink
