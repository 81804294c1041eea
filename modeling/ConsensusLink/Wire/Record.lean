import ConsensusLink.Text.JsonReader
import ConsensusLink.Message
import ConsensusLink.Counter
/-!
# Records in JSON

A record has named fields in a fixed order. In JSON it is an object whose members are the fields,
in any order and among others that are passed over, or a list of the values of the first fields.
No field may be given twice. Here stand also the forms of the numbers, bytes and counters that
records are made of.
-/

namespace ConsensusLink

namespace Json

/-- The value of a field of an object, if the object has it, given that it has it at most once. -/
def field? (members : List (String × Json)) (name : String) : Option (Option Json) :=
  match members.filter (·.1 = name) with
  | [] => some none
  | [m] => some (some m.2)
  | _ => none

/-- The values of the fields of a record, those left out being absent. There is no answer if the
value is no record with these fields. -/
def record? (names : List String) : Json → Option (List (Option Json))
  | object members => names.mapM (field? members)
  | array items =>
    if items.length ≤ names.length then
      some (items.map some ++ List.replicate (names.length - items.length) none)
    else none
  | _ => none

/-- The value of a field that may be absent or `null`. -/
def optional? {α : Type} (read : Json → Option α) : Option Json → Option (Option α)
  | none | some null => some none
  | some j => (read j).map some

/-- The value of a field that must be there. -/
def required? {α : Type} (read : Json → Option α) (j : Option Json) : Option α := j.bind read

/-- A whole number below `2 ^ 8`. -/
def byte? : Json → Option UInt8
  | int (.ofNat n) => if n < UInt8.size then some (UInt8.ofNat n) else none
  | _ => none

/-- A whole number below `2 ^ 128`. -/
def wide? : Json → Option (Fin wideSize)
  | int (.ofNat n) => if h : n < wideSize then some ⟨n, h⟩ else none
  | _ => none

/-- A string of bytes, as hexadecimal digits with or without `0x` in front. -/
def bytes? : Json → Option Bytes
  | string s =>
    match s.toList with
    | '0' :: 'x' :: digits => Hex.decode? digits
    | digits => Hex.decode? digits
  | _ => none

/-- A string of bytes as hexadecimal digits with `0x` in front. -/
def bytes (bs : Bytes) : Json := string (String.ofList ('0' :: 'x' :: Hex.encode bs))

end Json

namespace MessageIndex

/-- The position that a JSON number is. -/
def ofJson? (j : Json) : Option MessageIndex := j.word?.map .mk

/-- The position as a JSON number. -/
def toJson (i : MessageIndex) : Json := .word i.word

@[simp] theorem ofJson?_toJson (i : MessageIndex) : ofJson? i.toJson = some i := by
  simp [ofJson?, toJson, Json.word?_word]

end MessageIndex

namespace BatchNumber

/-- The batch number that a JSON number is. -/
def ofJson? (j : Json) : Option BatchNumber := j.word?.map .mk

/-- The batch number as a JSON number. -/
def toJson (b : BatchNumber) : Json := .word b.word

@[simp] theorem ofJson?_toJson (b : BatchNumber) : ofJson? b.toJson = some b := by
  simp [ofJson?, toJson, Json.word?_word]

end BatchNumber

namespace BlockHeight

/-- The height that a JSON number is. -/
def ofJson? (j : Json) : Option BlockHeight := j.word?.map .mk

/-- The height as a JSON number. -/
def toJson (h : BlockHeight) : Json := .word h.word

@[simp] theorem ofJson?_toJson (h : BlockHeight) : ofJson? h.toJson = some h := by
  simp [ofJson?, toJson, Json.word?_word]

end BlockHeight

namespace Counter

/-- The counter that a JSON value names, either by its name alone or by an object whose only
member has that name and no value. -/
def ofJson? : Json → Option Counter
  | .string s => ofName? s
  | .object [(s, .null)] => ofName? s
  | _ => none

/-- The counter as a JSON text. -/
def toJson (c : Counter) : Json := .string c.name

@[simp] theorem ofJson?_toJson (c : Counter) : ofJson? c.toJson = some c := ofName?_name c

end Counter

namespace MessageCounts

/-- The three counts that a JSON record holds. -/
def ofJson? (j : Json) : Option MessageCounts := do
  match ← j.record? ["finalized", "safe", "target"] with
  | [finalized, safe, target] =>
    return ⟨← Json.required? MessageIndex.ofJson? finalized,
      ← Json.required? MessageIndex.ofJson? safe, ← Json.required? MessageIndex.ofJson? target⟩
  | _ => none

/-- The three counts as a JSON object. -/
def toJson (t : MessageCounts) : Json :=
  .object [("finalized", t.finalized.toJson), ("safe", t.safe.toJson), ("target", t.target.toJson)]

end MessageCounts

end ConsensusLink
