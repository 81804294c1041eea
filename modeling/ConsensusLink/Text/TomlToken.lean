import ConsensusLink.Text.Hex
/-!
# The tokens of a configuration text

`TomlToken.ofChars?` takes a text in TOML apart into tokens: blanks, line ends, comments, marks,
bare words and quoted texts. Words are not looked into here, so a number is a word, or several with
marks between them. There are no tokens if some character belongs to none.
-/

namespace ConsensusLink

/-- A token. -/
inductive TomlToken where
  /-- Spaces and tabs; whether it is a single space. -/
  | blank (isSpace : Bool)
  /-- The end of a line. -/
  | newline
  /-- A comment, up to the end of its line. -/
  | comment
  /-- One of the marks `=`, `.`, `,`, `:`, `+`, `{`, `}`, `[` and `]`. -/
  | mark (c : Char)
  /-- A run of letters, digits, hyphens and underscores. -/
  | word (cs : List Char)
  /-- A quoted text; whether its quotes allow several lines. -/
  | text (cs : List Char) (isLong : Bool)
deriving DecidableEq, Inhabited

namespace TomlToken

/-- Whether a character is part of words. -/
def isWordChar (c : Char) : Bool := c.isAlphanum || c = '-' || c = '_'

/-- Whether a character is a mark. -/
def isMark (c : Char) : Bool := c ∈ ['=', '.', ',', ':', '+', '\x7b', '\x7d', '[', ']']

/-- Whether a character is a blank within a line. -/
def isBlank (c : Char) : Bool := c = ' ' || c = '\t'

/-- Whether a character may stand in a comment. -/
def isCommentChar (c : Char) : Bool := c = '\t' || 32 ≤ c.toNat

/-- Whether a character may stand in a quoted text as it is. -/
def isTextChar (c : Char) : Bool := c = '\t' || 32 ≤ c.toNat && c.toNat ≠ 127

/-- Turns each carriage return before a line feed, and that line feed, into one line end. -/
def foldLineEnds : List Char → List Char
  | '\r' :: '\n' :: rest => '\n' :: foldLineEnds rest
  | c :: rest => c :: foldLineEnds rest
  | [] => []

/-- The character with a given code, if there is one. -/
def charOfCode? (n : Nat) : Option Char := if n.isValidChar then some (Char.ofNat n) else none

/-- Reads the digits of an escaped character. -/
def readCode? (digits : Nat) (cs : List Char) : Option (Char × List Char) := do
  let values ← (cs.take digits).mapM Hex.value?
  if values.length = digits then
    return (← charOfCode? (values.foldl (fun n v => n * 16 + v) 0), cs.drop digits)
  else none

/-- The character that a letter stands for after a backslash. -/
def unescape? : Char → Option Char
  | '"' => some '"'
  | '\\' => some '\\'
  | 'b' => some '\x08'
  | 'f' => some '\x0c'
  | 'n' => some '\n'
  | 'r' => some '\r'
  | 't' => some '\t'
  | _ => none

/-- Passes over the end of a line that is continued, and all blanks and line ends after it. -/
def skipContinuation? (cs : List Char) : Option (List Char) :=
  match cs.dropWhile isBlank with
  | '\n' :: rest => some (rest.dropWhile fun c => isBlank c || c = '\n')
  | _ => none

/-- Reads what stands after a backslash: a character, or nothing where a line is continued. -/
def readEscape? (isLong : Bool) : List Char → Option (List Char × List Char)
  | 'u' :: rest => (readCode? 4 rest).map fun (c, rest) => ([c], rest)
  | 'U' :: rest => (readCode? 8 rest).map fun (c, rest) => ([c], rest)
  | c :: rest =>
    match unescape? c with
    | some c => some ([c], rest)
    | none => if isLong then (skipContinuation? (c :: rest)).map ([], ·) else none
  | [] => none

/-- How many quotes a text begins with. -/
def countQuotes (quote : Char) (cs : List Char) : Nat := (cs.takeWhile (· = quote)).length

/-- Reads the rest of a quoted text, which ends at its closing quotes. A long text is closed by
three quotes, before which it may have two of its own. Backslashes are escapes within double quotes
only. The first argument bounds the number of steps. -/
def readText? (quote : Char) (isLong : Bool) : Nat → List Char → Option (List Char × List Char)
  | 0, _ | _, [] => none
  | fuel + 1, c :: rest =>
    if c = quote then
      let n := countQuotes quote (c :: rest)
      if !isLong then some ([], rest)
      else if 3 ≤ n then
        let own := min (n - 3) 2
        some (List.replicate own quote, (c :: rest).drop (own + 3))
      else do
        let (cs, rest) ← readText? quote isLong fuel rest
        return (c :: cs, rest)
    else if c = '\n' then
      if isLong then do
        let (cs, rest) ← readText? quote isLong fuel rest
        return (c :: cs, rest)
      else none
    else if c = '\\' ∧ quote = '"' then do
      let (escaped, rest) ← readEscape? isLong rest
      let (cs, rest) ← readText? quote isLong fuel rest
      return (escaped ++ cs, rest)
    else if isTextChar c then do
      let (cs, rest) ← readText? quote isLong fuel rest
      return (c :: cs, rest)
    else none

/-- Reads a quoted text after its first quote. A line end right after three opening quotes does not
count. -/
def readQuoted? (quote : Char) (cs : List Char) : Option (TomlToken × List Char) :=
  let fuel := cs.length + 1
  match countQuotes quote cs with
  | 0 => (readText? quote false fuel cs).map fun (s, rest) => (text s false, rest)
  | 1 => some (text [] false, cs.drop 1)
  | _ =>
    let cs := match cs.drop 2 with
      | '\n' :: rest => rest
      | rest => rest
    (readText? quote true fuel cs).map fun (s, rest) => (text s true, rest)

/-- Reads the next token. -/
def next? : List Char → Option (TomlToken × List Char)
  | [] => none
  | c :: rest =>
    if isBlank c then
      some (blank (c = ' ' && (rest.takeWhile isBlank).isEmpty), rest.dropWhile isBlank)
    else if c = '\n' then some (newline, rest)
    else if c = '#' then some (comment, rest.dropWhile isCommentChar)
    else if isMark c then some (mark c, rest)
    else if c = '"' ∨ c = '\'' then readQuoted? c rest
    else if isWordChar c then
      some (word (c :: rest.takeWhile isWordChar), rest.dropWhile isWordChar)
    else none

/-- Takes characters apart into tokens. The first argument bounds their number. -/
def readAll? : Nat → List Char → Option (List TomlToken)
  | _, [] => some []
  | 0, _ => none
  | fuel + 1, cs => do
    let (t, rest) ← next? cs
    return t :: (← readAll? fuel rest)

/-- The tokens of a text. A byte order mark in front does not count. -/
def ofChars? (cs : List Char) : Option (List TomlToken) :=
  let cs := foldLineEnds cs
  let cs := match cs with
    | '\ufeff' :: rest => rest
    | cs => cs
  readAll? cs.length cs

end TomlToken

end ConsensusLink
