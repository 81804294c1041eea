/-!
# Values of a configuration text

The values that a text in TOML gives. A configuration holds texts, whole numbers and tables; all
else is told apart only as far as a reader of a configuration must: truth values and numbers with
a fraction are never asked for, and a date or time gives no field of a record.
-/

namespace ConsensusLink

/-- A value of a configuration text. The members of a table keep their order, and a name may occur
more than once; who reads a table decides what that means. -/
inductive Toml where
  /-- A text. -/
  | text (s : String)
  /-- A whole number that fits a signed word. -/
  | whole (i : Int)
  /-- A truth value, or a number with a fraction or an exponent. -/
  | plain
  /-- A date or time. -/
  | moment
  /-- A list of values. -/
  | list (items : List Toml)
  /-- Named values. -/
  | table (members : List (String × Toml))
deriving Inhabited

namespace Toml

/-- The value of a field of a table, if the table has it, given that it has it at most once. -/
def field? (members : List (String × Toml)) (name : String) : Option (Option Toml) :=
  match members.filter (·.1 = name) with
  | [] => some none
  | [m] => some (some m.2)
  | _ => none

/-- The values of the fields of a record, those left out being absent. There is no answer if the
value is no record with these fields. A record is a table, or a list of the values of its first
fields; a date is a record that gives no field. -/
def record? (names : List String) : Toml → Option (List (Option Toml))
  | table members => names.mapM (field? members)
  | list items =>
    if items.length ≤ names.length then
      some (items.map some ++ List.replicate (names.length - items.length) none)
    else none
  | moment => some (names.map fun _ => none)
  | _ => none

/-- A text. -/
def text? : Toml → Option String
  | text s => some s
  | _ => none

/-- A whole number from zero on. -/
def word? : Toml → Option UInt64
  | whole (.ofNat n) => if n < UInt64.size then some (UInt64.ofNat n) else none
  | _ => none

/-- A whole number below `2 ^ 16`. -/
def shortWord? : Toml → Option UInt16
  | whole (.ofNat n) => if n < UInt16.size then some (UInt16.ofNat n) else none
  | _ => none

/-- The value of a field, or its default if the field is left out. -/
def fieldOr? {α : Type} (read : Toml → Option α) (default : α) : Option Toml → Option α
  | none => some default
  | some t => read t

end Toml

end ConsensusLink
