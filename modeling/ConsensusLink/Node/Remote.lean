import ConsensusLink.Node.Memory
/-!
# A node as its callers see it

A `Remote` says how calls go: a call is begun, may wait for some time, any number of times, and
ends with an answer or breaks down. A `ScriptedNode` is a node in memory for which the next calls
of a kind can be given other answers beforehand; it also keeps a record of all calls.
-/

namespace ConsensusLink

/-- How a call goes on. -/
inductive CallProgress (φ : Type) where
  /-- It waits for a number of milliseconds that is not zero. -/
  | waits (ms : Nat) (phase : φ)
  /-- It ends. -/
  | ends (result : Outcome Answer)
  /-- It breaks down without an answer. -/
  | breaks

/-- How calls go, for nodes with states in `σ` and calls that wait in phases `φ`. -/
structure Remote (σ φ : Type) where
  /-- Begins a call at a given time. -/
  begin : Call → Nat → σ → CallProgress φ × σ
  /-- Resumes a call that has waited. -/
  resume : Call → φ → Nat → σ → CallProgress φ × σ

/-- The kinds of calls that can be scripted; each count has its own. -/
inductive CallTopic where
  /-- The payload of a batch. -/
  | fetchBatch
  /-- The batch that contains a message. -/
  | findBatch
  /-- The base layer block of a batch. -/
  | batchBlock
  /-- The diagnostics. -/
  | progressMap
  /-- One of the message counts. -/
  | count (counter : Counter)
  /-- Writes a message. -/
  | write
  /-- Confirms the lease. -/
  | probe
deriving DecidableEq, Inhabited, Repr

/-- The topic of a call. -/
def Call.topic : Call → CallTopic
  | fetchBatch _ => .fetchBatch
  | findBatch _ => .findBatch
  | batchBlock _ => .batchBlock
  | progressMap => .progressMap
  | count c => .count c
  | write .. => .write
  | probe => .probe

/-- How a scripted call ends. -/
inductive ScriptedEnd where
  /-- With an answer. -/
  | answer (result : Outcome Answer)
  /-- It breaks down. -/
  | breaks
  /-- It goes on to the node. -/
  | proceed

/-- A scripted reply. -/
structure ScriptedReply where
  /-- How long it takes, in milliseconds. -/
  delayMs : Nat
  /-- How it ends. -/
  finish : ScriptedEnd

/-- A call as it was recorded. -/
structure CallRecord where
  /-- When it was made. -/
  time : Nat
  /-- The call. -/
  call : Call

/-- A node in memory with scripted replies. -/
structure ScriptedNode where
  /-- The node. -/
  node : MemoryNode := {}
  /-- The replies to come, by topic, next one first. -/
  scripts : List (CallTopic × List ScriptedReply) := []
  /-- All calls, latest first. -/
  record : List CallRecord := []
deriving Inhabited

namespace ScriptedNode

/-- Where a call of a scripted node waits. -/
inductive Phase where
  /-- In its scripted reply. -/
  | scripted (finish : ScriptedEnd)
  /-- At the node. -/
  | atNode

/-- Changes the node. -/
def modifyNode (s : ScriptedNode) (f : MemoryNode → MemoryNode) : ScriptedNode :=
  { s with node := f s.node }

/-- Appends replies to the script of a topic. -/
def script (s : ScriptedNode) (topic : CallTopic) (replies : List ScriptedReply) : ScriptedNode :=
  let before := (s.scripts.lookup topic).getD []
  { s with scripts := (topic, before ++ replies) :: s.scripts.filter (·.1 ≠ topic) }

/-- Takes the next reply of a topic off its script. -/
def nextReply (s : ScriptedNode) (topic : CallTopic) : Option ScriptedReply × ScriptedNode :=
  match s.scripts.lookup topic with
  | some (reply :: rest) =>
    (some reply, { s with scripts := (topic, rest) :: s.scripts.filter (·.1 ≠ topic) })
  | _ => (none, s)

/-- Makes a call of the node, which waits if the node takes its time. -/
def atNode (s : ScriptedNode) (c : Call) : CallProgress Phase × ScriptedNode :=
  let s := s.modifyNode (·.arrive c.kind)
  if s.node.latency = 0 then finishAtNode s c else (.waits s.node.latency .atNode, s)
where
  /-- Lets the node answer. -/
  finishAtNode (s : ScriptedNode) (c : Call) : CallProgress Phase × ScriptedNode :=
    let (r, node) := s.node.answer c
    (.ends r, { s with node })

/-- Ends a scripted reply. -/
def finishScripted (s : ScriptedNode) (c : Call) : ScriptedEnd → CallProgress Phase × ScriptedNode
  | .answer result => (.ends result, s)
  | .breaks => (.breaks, s)
  | .proceed => s.atNode c

/-- How calls of a scripted node go. -/
def remote : Remote ScriptedNode Phase where
  begin c now s :=
    let s := { s with record := ⟨now, c⟩ :: s.record }
    match s.nextReply c.topic with
    | (some reply, s) =>
      if reply.delayMs = 0 then s.finishScripted c reply.finish
      else (.waits reply.delayMs (.scripted reply.finish), s)
    | (none, s) => s.atNode c
  resume c phase _ s :=
    match phase with
    | .scripted finish => s.finishScripted c finish
    | .atNode => atNode.finishAtNode s c

end ScriptedNode

end ConsensusLink
