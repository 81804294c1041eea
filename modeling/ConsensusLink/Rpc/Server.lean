import ConsensusLink.Rpc.Method
/-!
# Serving the methods of a consensus node

How a consensus node in memory answers requests: it looks the method up, reads the parameters,
makes the call and writes what comes of it. Parameters are a list of values in order, of which
those that are not asked for are passed over, or an object of named values.
-/

namespace ConsensusLink.Rpc

/-- A reply of a server: a value or an error object. -/
abbrev Reply := Except ErrorObject Json

/-- What is said of a method that nobody serves. -/
def unknownMethod : ErrorObject := ⟨-32601, "Method not found", none⟩

/-- What is said of parameters that are not those of the method. -/
def invalidParams (message : String) : ErrorObject := ⟨-32602, message, none⟩

/-- Takes the next value off a list of parameters, which begins at its bracket or at the comma
before the value. There must be no blanks before the comma. -/
def nextParam? : List Char → Option (Json × List Char)
  | c :: rest =>
    if c = '[' ∨ c = ',' then Json.readValue? (rest.length + 1) rest else none
  | [] => none

/-- Takes a number of values off a list of parameters. -/
def listParams? : Nat → List Char → Option (List Json)
  | 0, _ => some []
  | n + 1, cs => do
    let (j, rest) ← nextParam? cs
    return j :: (← listParams? n rest)

/-- The value of a named parameter, which is given once under any of its names. -/
def namedParam? (members : List (String × Json)) (names : List String) : Option Json :=
  match members.filter (names.contains ·.1) with
  | [m] => some m.2
  | _ => none

/-- The values of parameters with given names, in order. -/
def readParams? (names : List (List String)) (params : String) : Option (List Json) :=
  match Json.skipBlanks params.toList with
  | '\x7b' :: rest =>
    match Json.readChars? ('\x7b' :: rest) with
    | some (.object members) => names.mapM (namedParam? members)
    | _ => none
  | cs => listParams? names.length cs

/-- The names of the parameters of a method, each with its spellings. -/
def paramNames : CallTopic → List (List String)
  | .fetchBatch | .batchBlock => [["batch_num", "batchNum"]]
  | .findBatch => [["message"]]
  | .write => [["pos"], ["msg"]]
  | .progressMap | .count _ | .probe => []

/-- The call of a given kind with given parameters, of which the bytes of a message must be as many
as they should be. -/
def callOf? (t : CallTopic) (params : List Json) : Option (Except WrongLength Call) :=
  match t, params with
  | .fetchBatch, [n] => (BatchNumber.ofJson? n).map fun n => .ok (.fetchBatch n)
  | .findBatch, [m] => (MessageIndex.ofJson? m).map fun m => .ok (.findBatch m)
  | .batchBlock, [n] => (BatchNumber.ofJson? n).map fun n => .ok (.batchBlock n)
  | .progressMap, [] => some (.ok .progressMap)
  | .count c, [] => some (.ok (.count c))
  | .probe, [] => some (.ok .probe)
  | .write, [pos, msg] => do
    let pos ← MessageIndex.ofJson? pos
    let msg ← WireMessage.ofJson? msg
    return msg.check.map (.write pos)
  | _, _ => none

/-- The call that a request makes. -/
def readCall (method params : String) : Except ErrorObject Call :=
  match CallTopic.ofMethod? method with
  | none => .error unknownMethod
  | some t =>
    let given := if paramNames t = [] then some [] else readParams? (paramNames t) params
    match given.bind (callOf? t) with
    | none => .error (invalidParams "Invalid params")
    | some (.error e) => .error (invalidParams e.message)
    | some (.ok call) => .ok call

/-- Answers a request with a node in memory. -/
def serve (n : MemoryNode) (method params : String) : Reply × MemoryNode :=
  match readCall method params with
  | .error e => (.error e, n)
  | .ok call =>
    let (o, n) := (n.arrive call.kind).answer call
    ((o.map Answer.toJson).mapError Failure.toErrorObject, n)

end ConsensusLink.Rpc
