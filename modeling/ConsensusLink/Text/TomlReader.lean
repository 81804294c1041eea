import ConsensusLink.Text.Decimal
import ConsensusLink.Text.Toml
import ConsensusLink.Text.TomlToken
/-!
# Reading a configuration text

`Toml.read?` reads a text in TOML as one table. The text is a list of sections, each with a header
and the entries below it; `Toml.assemble?` puts sections together. A header may be given once only,
and a table that is given once cannot be made a list of tables later; but the same name may occur
twice among the entries of one section.
-/

namespace ConsensusLink.Toml

open TomlToken

/-! ### Numbers -/

/-- The value of a digit in a given base. -/
def digitValue? (base : Nat) (c : Char) : Option Nat :=
  (Hex.value? c).bind fun n => if n < base then some n else none

/-- Reads digits in groups with a single underscore between two groups. Without `padded` they do
not begin with a superfluous zero. -/
def readDigits? (base : Nat) (padded : Bool) (cs : List Char) : Option (List Char × List Char) :=
  let isDigit (c : Char) : Bool := (digitValue? base c).isSome
  let run := cs.takeWhile fun c => isDigit c || c = '_'
  let digits := run.filter (· ≠ '_')
  let isGrouped := (run.splitOn '_').all (· ≠ [])
  let isPadded := digits.head? = some '0' ∧ 1 < digits.length
  if isGrouped ∧ (padded ∨ ¬isPadded) then some (digits, cs.drop run.length) else none

/-- Takes a hyphen off the front. -/
def takeSign : List Char → Bool × List Char
  | '-' :: rest => (true, rest)
  | cs => (false, cs)

/-- Reads a whole number that fits a signed word. -/
def whole? (base : Nat) (signed : Bool) (cs : List Char) : Option Toml := do
  let (negative, cs) := if signed then takeSign cs else (false, cs)
  let (digits, rest) ← readDigits? base (base ≠ 10) cs
  let n := (digits.filterMap (digitValue? base)).foldl (fun n d => n * base + d) 0
  let i : Int := if negative then -n else n
  if rest = [] ∧ Int64.minValue.toInt ≤ i ∧ i ≤ Int64.maxValue.toInt then some (whole i) else none

/-- Reads the exponent that follows its letter; a plus sign in it is a mark of its own. -/
def readExponent? (cs : List Char) (ts : List TomlToken) : Option (List Char × List TomlToken) := do
  let (sign, cs, ts) ← match cs, ts with
    | [], mark '+' :: word w :: ts => some ([], w, ts)
    | [], word w :: ts => some ([], w, ts)
    | [], _ => none
    | '-' :: cs, ts => some (['-'], cs, ts)
    | cs, ts => some ([], cs, ts)
  let (digits, rest) ← readDigits? 10 true cs
  if rest = [] then some (sign ++ digits, ts) else none

/-- Reads a number with a fraction or an exponent, which must be in the range of doubles. Its
words are the one before the point and, if there is a point, the one after it. -/
def readFraction? (cs : List Char) (after : Option (List Char)) (ts : List TomlToken) :
    Option (Toml × List TomlToken) := do
  let (integral, rest) ← readDigits? 10 false (takeSign cs).2
  let (fraction, rest) ← match after with
    | none => some ([], rest)
    | some after => do
      if rest = [] then
        let (digits, rest) ← readDigits? 10 true after
        pure ('.' :: digits, rest)
      else none
  let (exponent, ts) ← match rest with
    | [] => some ([], ts)
    | c :: rest =>
      if c = 'e' ∨ c = 'E' then do
        let (digits, ts) ← readExponent? rest ts
        pure ('e' :: digits, ts)
      else none
  if Decimal.inRange (String.ofList (integral ++ fraction ++ exponent)) then some (plain, ts)
  else none

/-- Reads a number that begins with a given word. -/
def readNumber? (cs : List Char) (ts : List TomlToken) : Option (Toml × List TomlToken) :=
  match cs with
  | '0' :: 'x' :: digits => (whole? 16 false digits).map (·, ts)
  | '0' :: 'o' :: digits => (whole? 8 false digits).map (·, ts)
  | '0' :: 'b' :: digits => (whole? 2 false digits).map (·, ts)
  | cs =>
    if 'e' ∈ cs ∨ 'E' ∈ cs then readFraction? cs none ts
    else
      match ts with
      | mark '.' :: word after :: ts => readFraction? cs (some after) ts
      | mark '.' :: _ => none
      | ts =>
        if (takeSign cs).2 ∈ [['i', 'n', 'f'], ['n', 'a', 'n']] then some (plain, ts)
        else (whole? 10 true cs).map (·, ts)

/-- Whether a word begins a date, or a date and a time. -/
def isDateWord (cs : List Char) : Bool :=
  let hasExponent := (cs.zip (cs.drop 1)).any fun (c, d) => (c = 'e' || c = 'E') && d = '-'
  'T' ∈ cs ∨ 't' ∈ cs ∨ '-' ∈ cs.drop 1 ∧ !hasExponent

/-- Reads what follows the hours of a time and their colon. -/
def readMinutes? (ts : List TomlToken) : Option (List TomlToken) := do
  match ts with
  | word _ :: mark ':' :: word _ :: ts =>
    let ts ← optionalPart '.' ts
    let ts ← optionalPart '+' ts
    optionalPart ':' ts
  | _ => none
where
  /-- Reads a word after a mark, if the mark is there. -/
  optionalPart (m : Char) : List TomlToken → Option (List TomlToken)
    | mark c :: ts =>
      if c = m then
        match ts with
        | word _ :: ts => some ts
        | _ => none
      else some (mark c :: ts)
    | ts => some ts

/-- Reads the rest of a date or time after its first word. A time may be set off from its date by
one space. Whether there is such a day is not looked at. -/
def readMoment? (afterColon : Bool) (ts : List TomlToken) : Option (Toml × List TomlToken) :=
  let ts := match ts with
    | blank true :: word _ :: ts => ts
    | ts => ts
  let rest := match afterColon, ts with
    | true, ts => readMinutes? ts
    | false, mark ':' :: ts => readMinutes? ts
    | false, ts => some ts
  rest.map (moment, ·)

/-- Reads a value that begins with a given word. -/
def readWord? (cs : List Char) (ts : List TomlToken) : Option (Toml × List TomlToken) :=
  let startsNumber := match cs with
    | c :: _ => c = '-' || c.isDigit
    | [] => false
  if cs = ['t', 'r', 'u', 'e'] ∨ cs = ['f', 'a', 'l', 's', 'e'] then some (plain, ts)
  else if !startsNumber ∧ cs ∉ [['i', 'n', 'f'], ['n', 'a', 'n']] then none
  else if isDateWord cs then readMoment? false ts
  else
    match ts with
    | mark ':' :: ts => readMoment? true ts
    | ts => readNumber? cs ts

/-! ### Keys and values -/

/-- Passes over blanks within a line. -/
def skipBlanks : List TomlToken → List TomlToken
  | blank _ :: ts => ts
  | ts => ts

/-- Passes over blanks, comments and line ends. There is no answer if a comment does not end with
its line. -/
def skipLines? : List TomlToken → Option (List TomlToken)
  | blank _ :: ts => skipLines? ts
  | newline :: ts => skipLines? ts
  | [comment] => some []
  | comment :: newline :: ts => skipLines? ts
  | comment :: _ => none
  | ts => some ts

/-- Passes over the end of a line, with a comment before it or without. -/
def endLine? (ts : List TomlToken) : Option (List TomlToken) :=
  match skipBlanks ts with
  | [] | [comment] => some []
  | newline :: ts | comment :: newline :: ts => some ts
  | _ => none

/-- Reads a simple key: a word, or a quoted text that is not a long one. -/
def readKey? : List TomlToken → Option (String × List TomlToken)
  | word cs :: ts => some (String.ofList cs, ts)
  | .text cs false :: ts => some (String.ofList cs, ts)
  | _ => none

/-- Reads a key of one or more simple keys with dots between them. The first argument bounds their
number. -/
def readPath? : Nat → List TomlToken → Option (List String × List TomlToken)
  | 0, _ => none
  | fuel + 1, ts => do
    let (key, ts) ← readKey? (skipBlanks ts)
    match skipBlanks ts with
    | mark '.' :: ts =>
      let (keys, ts) ← readPath? fuel ts
      return (key :: keys, ts)
    | ts => return ([key], ts)

/-- Entries while they are read: values, and tables that dotted keys have opened. -/
inductive Entry where
  /-- A value. -/
  | value (t : Toml)
  /-- A table that dotted keys go on filling. -/
  | opened (members : List (String × Entry))

mutual

/-- The value that an entry comes to. -/
def Entry.close : Entry → Toml
  | .value t => t
  | .opened members => table (closeAll members)

/-- The values that entries come to. -/
def closeAll : List (String × Entry) → List (String × Toml)
  | [] => []
  | (name, e) :: rest => (name, e.close) :: closeAll rest

end

/-- Adds a value under a dotted key. A key may lead into a table that dotted keys have opened, but
not into a value. -/
def addEntry? : List String → Toml → List (String × Entry) → Option (List (String × Entry))
  | [], _, _ => none
  | [key], t, members => some (members ++ [(key, .value t)])
  | key :: keys, t, members =>
    match members.findIdx? (·.1 = key) with
    | none => do return members ++ [(key, .opened (← addEntry? keys t []))]
    | some i =>
      match members[i]? with
      | some (_, .opened inner) => do
        return members.set i (key, .opened (← addEntry? keys t inner))
      | _ => none

mutual

/-- Reads a value. The first argument bounds the depth and length of the reading. -/
def readValue? : Nat → List TomlToken → Option (Toml × List TomlToken)
  | 0, _ => none
  | fuel + 1, ts =>
    match ts with
    | .text cs _ :: ts => some (text (String.ofList cs), ts)
    | word cs :: ts => readWord? cs ts
    | mark '+' :: word cs :: ts => readNumber? cs ts
    | mark '\x7b' :: ts =>
      match skipBlanks ts with
      | mark '\x7d' :: ts => some (table [], ts)
      | ts => (readInline? fuel ts []).map fun (members, ts) => (table (closeAll members), ts)
    | mark '[' :: ts => (readItems? fuel ts).map fun (items, ts) => (list items, ts)
    | _ => none

/-- Reads the items of a list up to its closing bracket; there may be a comma before it. -/
def readItems? : Nat → List TomlToken → Option (List Toml × List TomlToken)
  | 0, _ => none
  | fuel + 1, ts => do
    match ← skipLines? ts with
    | mark ']' :: ts => return ([], ts)
    | ts =>
      let (item, ts) ← readValue? fuel ts
      match ← skipLines? ts with
      | mark ',' :: ts =>
        let (items, ts) ← readItems? fuel ts
        return (item :: items, ts)
      | mark ']' :: ts => return ([item], ts)
      | _ => none

/-- Reads the entries of a table within a line, up to its closing brace, and adds them to those
given. -/
def readInline? :
    Nat → List TomlToken → List (String × Entry) → Option (List (String × Entry) × List TomlToken)
  | 0, _, _ => none
  | fuel + 1, ts, members => do
    let (path, item, ts) ← readPair? fuel ts
    let members ← addEntry? path item members
    match skipBlanks ts with
    | mark '\x7d' :: ts => return (members, ts)
    | mark ',' :: ts => readInline? fuel ts members
    | _ => none

/-- Reads a key, the mark `=` and a value. -/
def readPair? : Nat → List TomlToken → Option (List String × Toml × List TomlToken)
  | 0, _ => none
  | fuel + 1, ts => do
    let (path, ts) ← readPath? (ts.length + 1) ts
    match ts with
    | mark '=' :: ts =>
      let (item, ts) ← readValue? fuel (skipBlanks ts)
      return (path, item, ts)
    | _ => none

end

/-! ### Sections -/

/-- A section: its header and the entries below it. -/
structure Section where
  /-- The names that lead to the table. -/
  path : List String
  /-- Whether the table is one of a list of tables. -/
  isItem : Bool
  /-- The entries. -/
  members : List (String × Toml)

/-- Reads the header of a section after its first bracket: whether it has two, and its names. -/
def readHeader? (ts : List TomlToken) : Option (Bool × List String × List TomlToken) := do
  let (isItem, ts) := match ts with
    | mark '[' :: ts => (true, ts)
    | ts => (false, ts)
  let (path, ts) ← readPath? (ts.length + 1) ts
  match isItem, ts with
  | false, mark ']' :: ts | true, mark ']' :: mark ']' :: ts =>
    return (isItem, path, ← endLine? ts)
  | _, _ => none

/-- A section while it is read. -/
structure OpenSection where
  /-- The names that lead to the table. -/
  path : List String
  /-- Whether the table is one of a list of tables. -/
  isItem : Bool
  /-- The entries. -/
  members : List (String × Entry)

/-- The section that was read. -/
def OpenSection.close (s : OpenSection) : Section := ⟨s.path, s.isItem, closeAll s.members⟩

/-- Reads the lines of a text, going on with a section. The first argument bounds their number. -/
def readSections? : Nat → List TomlToken → OpenSection → Option (List Section)
  | 0, _, _ => none
  | fuel + 1, ts, s => do
    match ← skipLines? ts with
    | [] => return [s.close]
    | mark '[' :: ts =>
      let (isItem, path, ts) ← readHeader? ts
      return s.close :: (← readSections? fuel ts ⟨path, isItem, []⟩)
    | ts =>
      let (path, item, ts) ← readPair? (ts.length + 1) ts
      readSections? fuel (← endLine? ts) { s with members := ← addEntry? path item s.members }

/-- The section without the first name of its path. -/
def Section.inner (s : Section) : Section := { s with path := s.path.drop 1 }

/-- Splits sections before each that begins a new item of the list they all belong to. -/
def splitItems : List Section → List (List Section)
  | [] => []
  | s :: rest =>
    match splitItems rest with
    | [] => [[s]]
    | g :: groups =>
      match g with
      | t :: _ => if t.isItem ∧ t.path = [] then [s] :: g :: groups else (s :: g) :: groups
      | [] => [s] :: groups

mutual

/-- The members of the table that sections lie in, which may have been given already. The first
argument bounds the length of all paths. -/
def assembleMembers? : Nat → Bool → List Section → Option (List (String × Toml))
  | _, _, [] => some []
  | 0, _, _ => none
  | fuel + 1, isGiven, s :: rest =>
    match s.path with
    | [] =>
      if isGiven ∨ s.isItem then none
      else do return s.members ++ (← assembleMembers? fuel true rest)
    | key :: _ =>
      let isWithin (t : Section) : Bool := t.path.head? = some key
      do
        let t ← assembleGroup? fuel (s.inner :: (rest.filter isWithin).map Section.inner)
        return (key, t) :: (← assembleMembers? fuel isGiven (rest.filter (!isWithin ·)))

/-- The value that sections below one name make. -/
def assembleGroup? : Nat → List Section → Option Toml
  | _, [] => none
  | 0, _ => none
  | fuel + 1, s :: rest =>
    if s.isItem ∧ s.path = [] then (assembleItems? fuel (splitItems (s :: rest))).map list
    else (assembleMembers? fuel false (s :: rest)).map table

/-- The tables of a list of tables, from the sections of each. -/
def assembleItems? : Nat → List (List Section) → Option (List Toml)
  | _, [] => some []
  | 0, _ => none
  | _ + 1, [] :: _ => none
  | fuel + 1, (s :: rest) :: groups => do
    let members ← assembleMembers? fuel true rest
    return table (s.members ++ members) :: (← assembleItems? fuel groups)

end

/-- Puts sections together to one table. -/
def assemble? (sections : List Section) : Option Toml :=
  let size := sections.foldl (fun n s => n + 4 * (s.path.length + 2)) 0
  (assembleMembers? size false sections).map table

/-- Reads a text as one table. -/
def read? (s : String) : Option Toml := do
  let ts ← TomlToken.ofChars? s.toList
  assemble? (← readSections? (ts.length + 1) ts ⟨[], false, []⟩)

end ConsensusLink.Toml
