import ConsensusLink.Text.Hex
/-!
# JSON values and their compact text

The values that JSON text stands for, and the text without blanks that stands for a value.
Whole numbers are kept apart from all other numbers, which are kept as they are written: the
client computes with the former and only passes on the latter.
-/

namespace ConsensusLink

/-- A JSON value. The members of an object keep the order in which they are written, and a name
may occur more than once; who reads an object decides what that means. -/
inductive Json where
  /-- The value `null`. -/
  | null
  /-- A truth value. -/
  | bool (b : Bool)
  /-- A number written with digits only, with or without a sign in front. -/
  | int (i : Int)
  /-- Any other number, as it is written: with a fraction or an exponent, or the zero with a
  sign. -/
  | decimal (literal : String)
  /-- A text. -/
  | string (s : String)
  /-- A list of values. -/
  | array (items : List Json)
  /-- A list of named values. -/
  | object (members : List (String × Json))
  /-- What is written as a value but stands for none: a text, or an object with a member name,
  in which an escaped half of a surrogate pair lacks its other half. It can be passed over. -/
  | unreadable
deriving Inhabited

namespace Json

/-- A character as it is written inside a text: quotes and backslashes are escaped, as are the
control characters, by a letter where there is one. -/
def escape (c : Char) : List Char :=
  if c = '"' then ['\\', '"']
  else if c = '\\' then ['\\', '\\']
  else if c = '\x08' then ['\\', 'b']
  else if c = '\x0c' then ['\\', 'f']
  else if c = '\n' then ['\\', 'n']
  else if c = '\r' then ['\\', 'r']
  else if c = '\t' then ['\\', 't']
  else if c.toNat < 32 then
    ['\\', 'u', '0', '0', Hex.digit (c.toNat / 16), Hex.digit (c.toNat % 16)]
  else [c]

/-- A text in quotes. -/
def quote (s : String) : List Char := '"' :: s.toList.flatMap escape ++ ['"']

/-- The compact text of a value. -/
def chars : Json → List Char
  | null => ['n', 'u', 'l', 'l']
  | bool true => ['t', 'r', 'u', 'e']
  | bool false => ['f', 'a', 'l', 's', 'e']
  | int i => (toString i).toList
  | decimal literal => literal.toList
  | string s => quote s
  | array items => '[' :: itemChars items ++ [']']
  | object members => '{' :: memberChars members ++ ['}']
  | unreadable => ['n', 'u', 'l', 'l']
where
  /-- The items of a list, separated by commas. -/
  itemChars : List Json → List Char
    | [] => []
    | [item] => chars item
    | item :: rest => chars item ++ ',' :: itemChars rest
  /-- The members of an object, separated by commas. -/
  memberChars : List (String × Json) → List Char
    | [] => []
    | [(name, item)] => quote name ++ ':' :: chars item
    | (name, item) :: rest => quote name ++ ':' :: chars item ++ ',' :: memberChars rest

/-- The end of a line and the blanks before the next one. -/
def newLine (indent : Nat) : List Char := '\n' :: List.replicate indent ' '

/-- The compact text of a value. -/
def compress (j : Json) : String := String.ofList j.chars

mutual

/-- The text of a value over several lines: each item and each member has a line of its own,
indented by two blanks more than what contains it. -/
def prettyChars (indent : Nat) : Json → List Char
  | array [] => ['[', ']']
  | object [] => ['\x7b', '\x7d']
  | array items => '[' :: prettyItems (indent + 2) true items ++ newLine indent ++ [']']
  | object members =>
    '\x7b' :: prettyMembers (indent + 2) true members ++ newLine indent ++ ['\x7d']
  | j => j.chars

/-- The items of a list, each on its line. -/
def prettyItems (indent : Nat) (isFirst : Bool) : List Json → List Char
  | [] => []
  | item :: rest =>
    (if isFirst then [] else [',']) ++ newLine indent ++ prettyChars indent item ++
      prettyItems indent false rest

/-- The members of an object, each on its line. -/
def prettyMembers (indent : Nat) (isFirst : Bool) : List (String × Json) → List Char
  | [] => []
  | (name, item) :: rest =>
    (if isFirst then [] else [',']) ++ newLine indent ++ quote name ++ ':' :: ' ' ::
      prettyChars indent item ++ prettyMembers indent false rest

end

/-- The text of a value over several lines. -/
def pretty (j : Json) : String := String.ofList (j.prettyChars 0)

/-- A natural number as a value. -/
def nat (n : Nat) : Json := int n

/-- A word as a value. -/
def word (w : UInt64) : Json := nat w.toNat

/-- A value that may be absent, written as `null` when it is. -/
def option {α : Type} (f : α → Json) : Option α → Json
  | some a => f a
  | none => null

/-- Inserts a member where its name belongs, in place of a member of that name. -/
def insertMember (name : String) (item : Json) : List (String × Json) → List (String × Json)
  | [] => [(name, item)]
  | (other, j) :: rest =>
    if name = other then (name, item) :: rest
    else if name < other then (name, item) :: (other, j) :: rest
    else (other, j) :: insertMember name item rest

mutual

/-- The value with the members of all objects in the order of their names, of which the last one of
each name counts. -/
def canonical : Json → Json
  | array items => array (canonicalItems items)
  | object members => object (canonicalMembers members [])
  | j => j

/-- The items of a list, each in canonical form. -/
def canonicalItems : List Json → List Json
  | [] => []
  | item :: rest => item.canonical :: canonicalItems rest

/-- The members of an object, each in canonical form, inserted into those given. -/
def canonicalMembers : List (String × Json) → List (String × Json) → List (String × Json)
  | [], done => done
  | (name, item) :: rest, done => canonicalMembers rest (insertMember name item.canonical done)

end

/-- The members of which those that are absent are left out. -/
def present (members : List (String × Option Json)) : List (String × Json) :=
  members.filterMap fun m => m.2.map fun j => (m.1, j)

/-- The first member of an object with a given name. -/
def get? (j : Json) (name : String) : Option Json :=
  match j with
  | object members => members.lookup name
  | _ => none

/-- The text that a value is, if it is one. -/
def text? : Json → Option String
  | string s => some s
  | _ => none

/-- The word that a value is, if it is a whole number from zero to `2 ^ 64 - 1`. -/
def word? : Json → Option UInt64
  | int (.ofNat n) => if n < UInt64.size then some (UInt64.ofNat n) else none
  | _ => none

theorem word?_word (w : UInt64) : (word w).word? = some w := by
  simp [word, nat, word?, w.toNat_lt_size]

end Json

end ConsensusLink
