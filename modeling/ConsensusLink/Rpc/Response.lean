import ConsensusLink.Rpc.Method
/-!
# Requests and responses of a client

A request is a JSON object with a number, a method and parameters; its response has the same number
and either a result or an error object. `answerOf` says what a client makes of whatever comes back:
an error object is the node's own failure, and everything that is no proper response means that no
definite answer was received, which is a failure of the transport.
-/

namespace ConsensusLink.Rpc

/-- The version of the protocol. -/
def version : String := "2.0"

/-- A request. -/
structure Request where
  /-- The number of the request. -/
  id : Nat
  /-- The call that it makes. -/
  call : Call

/-- A request as it is sent. -/
def Request.toJson (r : Request) : Json :=
  .object <| Json.present [
    ("jsonrpc", some (.string version)),
    ("id", some (.nat r.id)),
    ("method", some (.string r.call.topic.method)),
    ("params", r.call.params.map .array)]

/-- A whole number that fits a signed 32-bit word. -/
def code? : Json → Option Int
  | .int i => if Int32.minValue.toInt ≤ i ∧ i ≤ Int32.maxValue.toInt then some i else none
  | _ => none

/-- The error object that a value is. It has no other fields, and details that are `null` are
absent. -/
def errorObject? (j : Json) : Option ErrorObject := do
  let names := ["code", "message", "data"]
  let isKnown := match j with
    | .object members => members.all (names.contains ·.1)
    | .array items => items.length = 3
    | _ => false
  if !isKnown then none
  else
    match ← j.record? names with
    | [code, message, data] =>
      let data ← Json.optional? some data
      return ⟨← Json.required? code? code, ← Json.required? Json.text? message, data⟩
    | _ => none

/-- What a response says. -/
inductive Payload where
  /-- The call has a result. -/
  | result (j : Json)
  /-- The call failed. -/
  | error (e : ErrorObject)

/-- What a response names as its request. -/
inductive ResponseId where
  /-- A number. -/
  | number (n : Nat)
  /-- Something that no request of a client has. -/
  | other
deriving DecidableEq

/-- What a value names as a request, if it can name one. -/
def responseId? : Json → Option ResponseId
  | .null | .string _ => some .other
  | j => j.word?.map fun n => .number n.toNat

/-- Whether the version of a response, if it gives one, is the right one. -/
def isVersion : Option Json → Bool
  | none | some .null => true
  | some j => j.text? = some version

/-- Reads a response. Its fields come once at most, others are passed over, and it has either a
result or an error. -/
def readResponse? (body : String) : Option (ResponseId × Payload) := do
  match ← Json.read? body with
  | .object members =>
    match ← ["jsonrpc", "id", "result", "error"].mapM (Json.field? members) with
    | [given, id, result, error] =>
      let id ← id.bind responseId?
      let payload ← match result, error with
        | some j, none => some (.result j)
        | none, some j => (errorObject? j).map .error
        | _, _ => none
      if isVersion given then some (id, payload) else none
    | _ => none
  | _ => none

/-- The failure of a call that got no definite answer. -/
def noAnswer (why : String) : Failure := .transport why

/-- What a client makes of a body that answers a request. -/
def answerOf (r : Request) (body : String) : Outcome Answer :=
  match readResponse? body with
  | none => .error (noAnswer "the response cannot be read")
  | some (_, .error e) => .error (Failure.ofErrorObject e)
  | some (id, .result j) =>
    match Answer.ofJson? r.call.topic j with
    | none => .error (noAnswer "the result cannot be read")
    | some a =>
      if id = .number r.id then .ok a
      else .error (noAnswer "the response is to another request")

/-- A response to a request: a field that is a result or an error, as JSON text. -/
def responseTo (r : Request) (field value : String) : String :=
  "\x7b\"jsonrpc\":\"" ++ version ++ "\",\"id\":" ++ toString r.id ++ ",\"" ++ field ++ "\":" ++
    value ++ "\x7d"

/-- What comes back for a request over a connection. -/
inductive Delivery where
  /-- A body with a status. What the body says may depend on the request. -/
  | body (status : Nat) (text : Request → String)
  /-- The connection is closed without an answer, or cannot be made. -/
  | closed
  /-- Nothing. -/
  | silence
deriving Inhabited

/-- What a client makes of what comes back; there is no outcome until something does. A status of
four hundred and more is a failure, whatever the body. -/
def Delivery.outcome? (r : Request) : Delivery → Option (Outcome Answer)
  | body status text =>
    some (if status < 400 then answerOf r (text r)
      else .error (noAnswer ("the request was rejected with status " ++ toString status)))
  | closed => some (.error (noAnswer "the connection was closed"))
  | silence => none

end ConsensusLink.Rpc
