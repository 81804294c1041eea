import ConsensusLink.Text.Json
import ConsensusLink.Text.Decimal
/-!
# Reading JSON text

`Json.read?` reads a text that holds exactly one value. It takes the grammar as it stands: blanks
are the space, the tab and the two line ends; numbers have no superfluous zeros; texts hold no bare
control characters. `Json.asData?` says which values may be kept as data: those that nest less than
128 deep, whose numbers are not beyond the range of a double and whose texts can be read.
-/

namespace ConsensusLink.Json

/-- Whether a character is a blank between values. -/
def isBlank (c : Char) : Bool := c = ' ' || c = '\n' || c = '\t' || c = '\r'

/-- Passes over blanks. -/
def skipBlanks (cs : List Char) : List Char := cs.dropWhile isBlank

/-- Reads the four digits of an escaped code unit. -/
def codeUnit? : List Char → Option (Nat × List Char)
  | a :: b :: c :: d :: rest => do
    let a ← Hex.value? a
    let b ← Hex.value? b
    let c ← Hex.value? c
    let d ← Hex.value? d
    return (((a * 16 + b) * 16 + c) * 16 + d, rest)
  | _ => none

/-- The character that a letter stands for after a backslash. -/
def unescape? : Char → Option Char
  | '"' => some '"'
  | '\\' => some '\\'
  | '/' => some '/'
  | 'b' => some '\x08'
  | 'f' => some '\x0c'
  | 'n' => some '\n'
  | 'r' => some '\r'
  | 't' => some '\t'
  | _ => none

/-- Adds a character in front of a text that was read, if both can be read. -/
private def consChar (c : Option Char) (r : Option (List Char) × List Char) :
    Option (List Char) × List Char :=
  ((do return (← c) :: (← r.1)), r.2)

/-- Reads the rest of a text up to its closing quote. The text is absent when an escaped half of a
surrogate pair stands alone. The first argument bounds the number of characters read. -/
def readText? : Nat → List Char → Option (Option (List Char) × List Char)
  | 0, _ => none
  | _, [] => none
  | _ + 1, '"' :: rest => some (some [], rest)
  | fuel + 1, '\\' :: 'u' :: rest => do
    let (unit, rest) ← codeUnit? rest
    if unit < 0xD800 ∨ 0xDFFF < unit then
      return consChar (some (Char.ofNat unit)) (← readText? fuel rest)
    else if 0xDBFF < unit then
      return consChar none (← readText? fuel rest)
    else
      match rest with
      | '\\' :: 'u' :: rest' =>
        let (low, rest'') ← codeUnit? rest'
        if 0xDC00 ≤ low ∧ low ≤ 0xDFFF then
          let c := Char.ofNat (0x10000 + (unit - 0xD800) * 0x400 + (low - 0xDC00))
          return consChar (some c) (← readText? fuel rest'')
        else
          return consChar none (← readText? fuel rest)
      | _ => return consChar none (← readText? fuel rest)
  | fuel + 1, '\\' :: c :: rest => do
    let c ← unescape? c
    return consChar (some c) (← readText? fuel rest)
  | fuel + 1, c :: rest =>
    if c.toNat < 32 then none
    else do return consChar (some c) (← readText? fuel rest)

/-- Reads as many digits as there are. -/
def readDigits (cs : List Char) : List Char × List Char :=
  (cs.takeWhile Char.isDigit, cs.dropWhile Char.isDigit)

/-- Reads the digits before the point: a zero alone, or digits that do not begin with a zero. -/
def readWhole? (cs : List Char) : Option (List Char × List Char) :=
  match readDigits cs with
  | ([], _) => none
  | ('0' :: _ :: _, _) => none
  | r => some r

/-- Reads a fraction, if there is one. -/
def readFraction? : List Char → Option (List Char × List Char)
  | '.' :: rest =>
    match readDigits rest with
    | ([], _) => none
    | (ds, rest) => some ('.' :: ds, rest)
  | rest => some ([], rest)

/-- Reads an exponent, if there is one. -/
def readExponent? : List Char → Option (List Char × List Char)
  | [] => some ([], [])
  | e :: rest =>
    if e = 'e' ∨ e = 'E' then
      let (sign, rest) := match rest with
        | '+' :: rest => (['+'], rest)
        | '-' :: rest => (['-'], rest)
        | rest => ([], rest)
      match readDigits rest with
      | ([], _) => none
      | (ds, rest) => some (e :: sign ++ ds, rest)
    else some ([], e :: rest)

/-- Reads a number. -/
def readNumber? (cs : List Char) : Option (Json × List Char) := do
  let (negative, cs) := match cs with
    | '-' :: rest => (true, rest)
    | rest => (false, rest)
  let (whole, cs) ← readWhole? cs
  let (fraction, cs) ← readFraction? cs
  let (exponent, cs) ← readExponent? cs
  let literal := (if negative then ['-'] else []) ++ whole ++ fraction ++ exponent
  if fraction = [] ∧ exponent = [] ∧ ¬(negative ∧ whole = ['0']) then
    let n := Decimal.value whole
    return (int (if negative then -(n : Int) else n), cs)
  else
    return (decimal (String.ofList literal), cs)

mutual

/-- Reads a value after blanks. The first argument bounds the depth and length of the reading. -/
def readValue? : Nat → List Char → Option (Json × List Char)
  | 0, _ => none
  | fuel + 1, cs =>
    match skipBlanks cs with
    | 'n' :: 'u' :: 'l' :: 'l' :: rest => some (null, rest)
    | 't' :: 'r' :: 'u' :: 'e' :: rest => some (bool true, rest)
    | 'f' :: 'a' :: 'l' :: 's' :: 'e' :: rest => some (bool false, rest)
    | '"' :: rest => do
      let (s, rest) ← readText? (rest.length + 1) rest
      return (match s with
        | some s => string (String.ofList s)
        | none => unreadable, rest)
    | '[' :: rest =>
      match skipBlanks rest with
      | ']' :: rest => some (array [], rest)
      | _ => do
        let (items, rest) ← readItems? fuel rest
        return (array items, rest)
    | '{' :: rest =>
      match skipBlanks rest with
      | '}' :: rest => some (object [], rest)
      | _ => do
        let (members, rest) ← readMembers? fuel rest
        return (match members with
          | some members => object members
          | none => unreadable, rest)
    | cs => readNumber? cs

/-- Reads the items of a list up to its closing bracket. -/
def readItems? : Nat → List Char → Option (List Json × List Char)
  | 0, _ => none
  | fuel + 1, cs => do
    let (item, rest) ← readValue? fuel cs
    match skipBlanks rest with
    | ',' :: rest =>
      let (items, rest) ← readItems? fuel rest
      return (item :: items, rest)
    | ']' :: rest => return ([item], rest)
    | _ => none

/-- Reads the members of an object up to its closing brace. They are absent when a name cannot be
read. -/
def readMembers? : Nat → List Char → Option (Option (List (String × Json)) × List Char)
  | 0, _ => none
  | fuel + 1, cs =>
    match skipBlanks cs with
    | '"' :: rest => do
      let (name, rest) ← readText? (rest.length + 1) rest
      match skipBlanks rest with
      | ':' :: rest =>
        let (item, rest) ← readValue? fuel rest
        let member := name.map fun name => (String.ofList name, item)
        match skipBlanks rest with
        | ',' :: rest =>
          let (members, rest) ← readMembers? fuel rest
          return ((do return (← member) :: (← members)), rest)
        | '}' :: rest => return (member.map ([·]), rest)
        | _ => none
      | _ => none
    | _ => none

end

/-- Reads characters that hold exactly one value, with blanks around it. -/
def readChars? (cs : List Char) : Option Json := do
  let (j, rest) ← readValue? (cs.length + 1) cs
  match skipBlanks rest with
  | [] => return j
  | _ => none

/-- Reads a text that holds exactly one value, with blanks around it. -/
def read? (s : String) : Option Json := readChars? s.toList

/-- A whole number as data: beyond the range of words it is kept as the nearest double. -/
def wholeAsData? (i : Int) : Option Json :=
  if Int64.minValue.toInt ≤ i ∧ i < UInt64.size then some (int i)
  else
    let magnitude := Decimal.roundToDouble i.natAbs
    if magnitude < 1 <<< 1024 then some (int (if i < 0 then -magnitude else magnitude)) else none

mutual

/-- The value as data, nesting less deep than the first argument. -/
def asDataWithin? : Nat → Json → Option Json
  | _, null => some null
  | _, bool b => some (bool b)
  | _, int i => wholeAsData? i
  | _, decimal literal => if Decimal.inRange literal then some (decimal literal) else none
  | _, string s => some (string s)
  | 0, array _ | 0, object _ => none
  | depth + 1, array items =>
    if depth = 0 then none else (asDataItems? depth items).map array
  | depth + 1, object members =>
    if depth = 0 then none else (asDataMembers? depth members).map object
  | _, unreadable => none

/-- The items as data. -/
def asDataItems? : Nat → List Json → Option (List Json)
  | _, [] => some []
  | depth, item :: rest => do return (← asDataWithin? depth item) :: (← asDataItems? depth rest)

/-- The members as data. -/
def asDataMembers? : Nat → List (String × Json) → Option (List (String × Json))
  | _, [] => some []
  | depth, (name, item) :: rest => do
    return (name, ← asDataWithin? depth item) :: (← asDataMembers? depth rest)

end

/-- The value as data that may be kept, if it may. -/
def asData? (j : Json) : Option Json := asDataWithin? 128 j

end ConsensusLink.Json
