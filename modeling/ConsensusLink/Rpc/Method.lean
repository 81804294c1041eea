import ConsensusLink.Node.Remote
import ConsensusLink.Wire.Failure
import ConsensusLink.Wire.Message
/-!
# The methods of a consensus node

A consensus node serves each kind of call under a name of its own. Here stand the names, the
parameters of a call as they are sent, and the values with which calls are answered, in both
directions: what a client writes a node reads, and the other way round.
-/

namespace ConsensusLink

namespace CallTopic

/-- All kinds of calls. -/
def all : List CallTopic :=
  [fetchBatch, findBatch, batchBlock, progressMap, count .finalized, count .safe, count .syncTarget,
    write, probe]

theorem mem_all (t : CallTopic) : t ∈ all := by
  cases t with
  | count c => cases c <;> simp [all]
  | _ => simp [all]

/-- The name of a method among the methods of a consensus node. -/
def shortName : CallTopic → String
  | fetchBatch => "fetchBatch"
  | findBatch => "findL1BatchForMessage"
  | batchBlock => "getBatchL1Block"
  | progressMap => "syncProgressMap"
  | count .finalized => "getFinalizedMsgCount"
  | count .safe => "getSafeMsgCount"
  | count .syncTarget => "syncTargetMessageCount"
  | write => "writeMessageFromSequencer"
  | probe => "expectChosenSequencer"

/-- What the names of all methods begin with. -/
def nameSpace : String := "nitroconsensus"

/-- The name of a method. -/
def method (t : CallTopic) : String := nameSpace ++ "_" ++ t.shortName

/-- The kind of call of a given method. -/
def ofMethod? (name : String) : Option CallTopic := all.find? (·.method = name)

theorem ofMethod?_method (t : CallTopic) : ofMethod? t.method = some t := by
  cases t with
  | count c => cases c <;> decide +kernel
  | _ => decide +kernel

end CallTopic

/-- The parameters of a call, or none for a method that has none. -/
def Call.params : Call → Option (List Json)
  | fetchBatch n => some [n.toJson]
  | findBatch m => some [m.toJson]
  | batchBlock n => some [n.toJson]
  | progressMap | count _ | probe => none
  | write pos msg => some [pos.toJson, msg.toJson]

/-- The value that answers a call, as it is sent. -/
def Answer.toJson : Answer → Json
  | batch b => .bytes b.bytes
  | batchNumber n => n.toJson
  | block h => h.toJson
  | progress m => .object m
  | count n => n.toJson
  | done => .null
  | other j => j

/-- The answer of a given kind that a value stands for. Diagnostics may be any values that can be
kept as data. -/
def Answer.ofJson? (t : CallTopic) (j : Json) : Option Answer :=
  match t with
  | .fetchBatch => j.bytes?.map fun bs => .batch ⟨bs⟩
  | .findBatch => (BatchNumber.ofJson? j).map .batchNumber
  | .batchBlock => (BlockHeight.ofJson? j).map .block
  | .progressMap =>
    match j.asData?.map Json.canonical with
    | some (.object members) => some (.progress members)
    | _ => none
  | .count _ => (MessageIndex.ofJson? j).map .count
  | .write | .probe =>
    match j with
    | .null => some .done
    | _ => none

end ConsensusLink
