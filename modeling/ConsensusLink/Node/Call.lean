import ConsensusLink.Failure
import ConsensusLink.Message
import ConsensusLink.Text.Json
/-!
# Calls of the consensus node

The calls that a client makes of a consensus node, and the values that they are answered with.
-/

namespace ConsensusLink

/-- Free-form diagnostics of the node, in the order of their names. They are only passed on. -/
abbrev ProgressMap := List (String × Json)

/-- Sets an entry of the diagnostics. -/
def ProgressMap.insert (m : ProgressMap) (name : String) (value : Json) : ProgressMap :=
  Json.insertMember name value m

/-- A call of the node. -/
inductive Call where
  /-- The payload of a batch. -/
  | fetchBatch (number : BatchNumber)
  /-- The batch that contains a message. -/
  | findBatch (message : MessageIndex)
  /-- The base layer block of a batch. -/
  | batchBlock (number : BatchNumber)
  /-- The diagnostics. -/
  | progressMap
  /-- One of the message counts. -/
  | count (counter : Counter)
  /-- Writes a message at a position. -/
  | write (pos : MessageIndex) (msg : Message)
  /-- Confirms that the caller holds the lease. -/
  | probe
deriving DecidableEq

/-- The kinds of calls. -/
inductive CallKind where
  /-- The payload of a batch. -/
  | fetchBatch
  /-- The batch that contains a message. -/
  | findBatch
  /-- The base layer block of a batch. -/
  | batchBlock
  /-- The diagnostics. -/
  | progressMap
  /-- One of the message counts. -/
  | count
  /-- Writes a message. -/
  | write
  /-- Confirms the lease. -/
  | probe
deriving DecidableEq, Inhabited, Repr

/-- The kind of a call. -/
def Call.kind : Call → CallKind
  | fetchBatch _ => .fetchBatch
  | findBatch _ => .findBatch
  | batchBlock _ => .batchBlock
  | progressMap => .progressMap
  | count _ => .count
  | write .. => .write
  | probe => .probe

/-- The name under which a kind of call appears in an injected failure. -/
def CallKind.label : CallKind → String
  | fetchBatch => "FetchBatch"
  | findBatch => "FindL1BatchForMessage"
  | batchBlock => "GetBatchL1Block"
  | progressMap => "SyncProgressMap"
  | count => "MessageCount"
  | write => "WriteMessage"
  | probe => "ExpectChosenSequencer"

/-- What is passed around as the value of a call or of a request. -/
inductive Answer where
  /-- A batch. -/
  | batch (b : Batch)
  /-- The number of a batch. -/
  | batchNumber (n : BatchNumber)
  /-- A block height. -/
  | block (h : BlockHeight)
  /-- The diagnostics. -/
  | progress (m : ProgressMap)
  /-- A count of messages. -/
  | count (n : MessageIndex)
  /-- The bare fact of success. -/
  | done
  /-- Any other value. -/
  | other (j : Json)
deriving Inhabited

end ConsensusLink
