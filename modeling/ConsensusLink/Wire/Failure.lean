import ConsensusLink.Wire.Record
import ConsensusLink.Failure
/-!
# Failures on the wire

A failure crosses the wire as an error object: a code, a wording and the details of the cause.
`Failure.toErrorObject` writes it and `Failure.ofErrorObject` reads it back. Each cause has its own
code; a code of nobody here is read as a failure of the transport, and a known code without the
details that its cause needs is read as an internal failure.
-/

namespace ConsensusLink

/-- The details of a cause. Each cause sets only those that it has. -/
structure FailureDetails where
  /-- What is missing or could not be looked up. -/
  resource : Option Resource := none
  /-- The batch that could not be read. -/
  batch : Option BatchNumber := none
  /-- Why. -/
  reason : Option String := none
  /-- The position of a write. -/
  pos : Option MessageIndex := none
  /-- The position that would have been accepted. -/
  expected : Option MessageIndex := none
  /-- The count at fault. -/
  counter : Option Counter := none
  /-- The value of the count before. -/
  previous : Option MessageIndex := none
  /-- The value of the count now. -/
  observed : Option MessageIndex := none
  /-- The count that bounds the count at fault. -/
  boundCounter : Option Counter := none
  /-- The value of the bounding count. -/
  bound : Option MessageIndex := none
deriving DecidableEq, Inhabited

/-- An error object. -/
structure ErrorObject where
  /-- The code of the cause. -/
  code : Int
  /-- The wording. -/
  message : String
  /-- The details, as JSON. -/
  data : Option Json

namespace Resource

/-- The JSON form of a resource: an object that says first of which kind it is. -/
def toJson : Resource → Json
  | batch n => .object [("kind", .string "batch"), ("batch", n.toJson)]
  | batchBlock n => .object [("kind", .string "batchL1Block"), ("batch", n.toJson)]
  | messageBatch m => .object [("kind", .string "messageBatch"), ("message", m.toJson)]

/-- The resource of a kind, from what says which one it is. -/
def ofKind? (kind : String) (rest : Json) : Option Resource :=
  let number (name : String) : Option Json :=
    match rest.record? [name] with
    | some [j] => j
    | _ => none
  if kind = "batch" then (number "batch").bind BatchNumber.ofJson? |>.map batch
  else if kind = "batchL1Block" then (number "batch").bind BatchNumber.ofJson? |>.map batchBlock
  else if kind = "messageBatch" then
    (number "message").bind MessageIndex.ofJson? |>.map messageBatch
  else none

/-- The resource that a JSON value stands for: an object that gives the kind once, or a list that
begins with the kind. -/
def ofJson? : Json → Option Resource
  | .object members => do
    let kind ← (← Json.field? members "kind") >>= Json.text?
    ofKind? kind (.object (members.filter (·.1 ≠ "kind")))
  | .array (kind :: rest) => do ofKind? (← kind.text?) (.array rest)
  | _ => none

end Resource

namespace FailureDetails

/-- No details. -/
def empty : FailureDetails := {}

/-- The details as a JSON object, with those that are absent left out. -/
def toJson (d : FailureDetails) : Json :=
  .object <| Json.present [
    ("resource", d.resource.map Resource.toJson),
    ("batch", d.batch.map BatchNumber.toJson),
    ("reason", d.reason.map Json.string),
    ("pos", d.pos.map MessageIndex.toJson),
    ("expected", d.expected.map MessageIndex.toJson),
    ("counter", d.counter.map Counter.toJson),
    ("previous", d.previous.map MessageIndex.toJson),
    ("observed", d.observed.map MessageIndex.toJson),
    ("boundCounter", d.boundCounter.map Counter.toJson),
    ("bound", d.bound.map MessageIndex.toJson)]

/-- The details that a JSON record holds. A resource is kept as data before it is read, so all of
it must be readable; it stands one level deep. -/
def ofJson? (j : Json) : Option FailureDetails := do
  match ← j.record? ["resource", "batch", "reason", "pos", "expected", "counter", "previous",
      "observed", "boundCounter", "bound"] with
  | [resource, batch, reason, pos, expected, counter, previous, observed, boundCounter, bound] =>
    return {
      resource := ← Json.optional? (fun r => r.asDataWithin? 127 >>= Resource.ofJson?) resource
      batch := ← Json.optional? BatchNumber.ofJson? batch
      reason := ← Json.optional? Json.text? reason
      pos := ← Json.optional? MessageIndex.ofJson? pos
      expected := ← Json.optional? MessageIndex.ofJson? expected
      counter := ← Json.optional? Counter.ofJson? counter
      previous := ← Json.optional? MessageIndex.ofJson? previous
      observed := ← Json.optional? MessageIndex.ofJson? observed
      boundCounter := ← Json.optional? Counter.ofJson? boundCounter
      bound := ← Json.optional? MessageIndex.ofJson? bound }
  | _ => none

end FailureDetails

namespace Failure

/-- The code of a cause. -/
def code : Failure → Int
  | notYetAvailable _ => -38001
  | batchUnavailable .. => -38002
  | lookupUnavailable .. => -38003
  | notChosenSequencer => -38010
  | outOfOrder .. => -38011
  | conflictingWrite _ => -38012
  | probeRequired => -38013
  | outcomeUnknown _ => -38014
  | nonMonotonic .. => -38020
  | orderViolation .. => -38021
  | transport _ => -38030
  | timeout => -38031
  | overloaded => -38032
  | cancelled => -38040
  | shutDown => -38041
  | internal _ => -38042

/-- The details of a cause. -/
def details : Failure → FailureDetails
  | notYetAvailable resource => { resource }
  | batchUnavailable batch reason => { batch, reason }
  | lookupUnavailable resource reason => { resource, reason }
  | outOfOrder expected got => { pos := got, expected }
  | conflictingWrite pos => { pos }
  | outcomeUnknown pos => { pos }
  | nonMonotonic counter previous observed => { counter, previous, observed }
  | orderViolation counter observed boundCounter bound =>
    { counter, observed, boundCounter, bound }
  | transport reason => { reason }
  | internal reason => { reason }
  | notChosenSequencer | probeRequired | timeout | overloaded | cancelled | shutDown => .empty

/-- The error object of a failure; details are left out when there are none. -/
def toErrorObject (f : Failure) : ErrorObject where
  code := f.code
  message := f.message
  data := if f.details = .empty then none else some f.details.toJson

/-- The cause of a given code with given details, if the details that it needs are there. The
wording stands in for a reason that is not given. -/
def ofDetails? (code : Int) (message : String) (d : FailureDetails) : Option Failure :=
  let reason := d.reason.getD message
  match code with
  | -38001 => return notYetAvailable (← d.resource)
  | -38002 => return batchUnavailable (← d.batch) reason
  | -38003 => return lookupUnavailable (← d.resource) reason
  | -38010 => some notChosenSequencer
  | -38011 => return outOfOrder d.expected (← d.pos)
  | -38012 => return conflictingWrite (← d.pos)
  | -38013 => some probeRequired
  | -38014 => return outcomeUnknown (← d.pos)
  | -38020 => return nonMonotonic (← d.counter) (← d.previous) (← d.observed)
  | -38021 => return orderViolation (← d.counter) (← d.observed) (← d.boundCounter) (← d.bound)
  | -38030 => some (transport reason)
  | -38031 => some timeout
  | -38032 => some overloaded
  | -38040 => some cancelled
  | -38041 => some shutDown
  | -38042 => some (internal reason)
  | code => some (transport ("rpc error " ++ toString code ++ ": " ++ message))

/-- The failure that an error object stands for. Data that is no record of details is an internal
failure, whatever the code; what the reader has to say of it is given after a colon, or left out. -/
def ofErrorObject (e : ErrorObject) (complaint : Json → Option String := fun _ => none) :
    Failure :=
  let named (what : String) : String := what ++ " data for rpc error " ++ toString e.code
  let known (d : FailureDetails) : Failure :=
    (ofDetails? e.code e.message d).getD (internal (named "missing"))
  match e.data with
  | none => known .empty
  | some j =>
    match FailureDetails.ofJson? j with
    | some d => known d
    | none => internal (named "malformed" ++ ((complaint j).map (": " ++ ·)).getD "")

end Failure

end ConsensusLink
