import ConsensusLink.Wire.Record
/-!
# Messages on the wire

The JSON form of a message writes addresses and hashes as hexadecimal bytes of any length. What is
read is therefore a message whose lengths are still to be checked, a `WireMessage`; `check` makes
it a message or names the field whose length is wrong.
-/

namespace ConsensusLink

/-- A message as read from the wire. -/
structure WireMessage where
  /-- What the message is. -/
  kind : UInt8
  /-- The address of the account that posted the message. -/
  poster : Bytes
  /-- The height of the base layer block that the message refers to. -/
  blockNumber : UInt64
  /-- The time of the message. -/
  timestamp : UInt64
  /-- The hash that names the request behind the message, if there is one. -/
  requestId : Option Bytes
  /-- The base fee of the base layer, if known. -/
  baseFee : Option (Fin wideSize)
  /-- The payload. -/
  payload : Bytes
  /-- How many messages of the delayed inbox were read. -/
  delayedRead : UInt64
deriving DecidableEq

/-- A field whose length is not the one that it must have. -/
structure WrongLength where
  /-- The name of the field. -/
  field : String
  /-- How many bytes it must have. -/
  expected : Nat
  /-- How many bytes it has. -/
  got : Nat
deriving DecidableEq, Repr

/-- The wording of a wrong length. -/
def WrongLength.message (e : WrongLength) : String :=
  "field " ++ e.field ++ " must be " ++ toString e.expected ++ " bytes, got " ++ toString e.got

namespace WireMessage

/-- The wire form of a message. -/
def ofMessage (m : Message) : WireMessage where
  kind := m.header.kind
  poster := m.header.poster.bytes
  blockNumber := m.header.blockNumber
  timestamp := m.header.timestamp
  requestId := m.header.requestId.map (·.bytes)
  baseFee := m.header.baseFee
  payload := m.payload
  delayedRead := m.delayedRead

/-- Bytes that must be as many as `n`. -/
def fixed (field : String) (n : Nat) (bs : Bytes) : Except WrongLength (FixedBytes n) :=
  match FixedBytes.ofBytes? n bs with
  | some b => .ok b
  | none => .error ⟨field, n, bs.length⟩

/-- The message, if the lengths of its fields are right. The request is checked before the
poster. -/
def check (w : WireMessage) : Except WrongLength Message := do
  let requestId ← match w.requestId with
    | none => .ok none
    | some id => (fixed "requestId" 32 id).map some
  let poster ← fixed "poster" 20 w.poster
  return {
    header := {
      kind := w.kind
      poster := poster
      blockNumber := w.blockNumber
      timestamp := w.timestamp
      requestId := requestId
      baseFee := w.baseFee }
    payload := w.payload
    delayedRead := w.delayedRead }

/-- The wire form of a message is checked to be that message. -/
theorem check_ofMessage (m : Message) : check (ofMessage m) = .ok m := by
  obtain ⟨⟨kind, poster, blockNumber, timestamp, requestId, baseFee⟩, payload, delayedRead⟩ := m
  cases requestId <;> simp [check, ofMessage, fixed, Except.map, bind, Except.bind, pure,
    Except.pure]

/-- The JSON form, with the fields that are absent left out. -/
def toJson (w : WireMessage) : Json :=
  let header := Json.present [
    ("kind", some (.nat w.kind.toNat)),
    ("poster", some (.bytes w.poster)),
    ("blockNumber", some (.word w.blockNumber)),
    ("timestamp", some (.word w.timestamp)),
    ("requestId", w.requestId.map .bytes),
    ("l1BaseFee", w.baseFee.map fun fee => .nat fee.val)]
  .object [
    ("message", .object [("header", .object header), ("l2Msg", .bytes w.payload)]),
    ("delayedMessagesRead", .word w.delayedRead)]

/-- The message that a JSON value holds. -/
def ofJson? (j : Json) : Option WireMessage := do
  match ← j.record? ["message", "delayedMessagesRead"] with
  | [message, delayedRead] =>
    match ← (← message).record? ["header", "l2Msg"] with
    | [header, payload] =>
      match ← (← header).record?
          ["kind", "poster", "blockNumber", "timestamp", "requestId", "l1BaseFee"] with
      | [kind, poster, blockNumber, timestamp, requestId, baseFee] =>
        return {
          kind := ← Json.required? Json.byte? kind
          poster := ← Json.required? Json.bytes? poster
          blockNumber := ← Json.required? Json.word? blockNumber
          timestamp := ← Json.required? Json.word? timestamp
          requestId := ← Json.optional? Json.bytes? requestId
          baseFee := ← Json.optional? Json.wide? baseFee
          payload := ← Json.required? Json.bytes? payload
          delayedRead := ← Json.required? Json.word? delayedRead }
      | _ => none
    | _ => none
  | _ => none

end WireMessage

/-- The JSON form of a message. -/
def Message.toJson (m : Message) : Json := (WireMessage.ofMessage m).toJson

end ConsensusLink
