import ConsensusLink.Client.Config
import ConsensusLink.Promise.Store
import ConsensusLink.Sequencer.LogView
/-!
# The coordinator of writes

Writes and probes wait in a queue and are handled one at a time, in order. Here stand the queue,
the published status, and what follows from the ways in which a request can end; how its calls are
made is the business of the client.
-/

namespace ConsensusLink

open Promise

/-- What the coordinator last learned about its role. -/
inductive SequencerStatus where
  /-- Nothing was written or probed yet. -/
  | notSequencer
  /-- A write is under way. -/
  | attemptingWrite (pos : MessageIndex)
  /-- The lease is held; the last position known to be accepted. -/
  | confirmed (tail : Option MessageIndex)
  /-- The last request failed; the position if it was a write. -/
  | rejected (pos : Option MessageIndex) (reason : Failure)
deriving DecidableEq, Inhabited, Repr

/-- Whether the status says that the lease is held. -/
def SequencerStatus.isConfirmed : SequencerStatus → Bool
  | confirmed _ => true
  | _ => false

/-- A request for the coordinator. -/
inductive SequencerRequest where
  /-- Write a message at a position. -/
  | write (pos : MessageIndex) (msg : Message)
  /-- Confirm the lease. -/
  | probe
deriving DecidableEq

namespace SequencerRequest

/-- The position of a write. -/
def pos? : SequencerRequest → Option MessageIndex
  | write pos _ => some pos
  | probe => none

end SequencerRequest

/-- How the attempts of a request went so far. -/
structure Attempts where
  /-- The state of the retry loop. -/
  retry : Retry.State
  /-- Whether an attempt was begun at the node. -/
  sent : Bool
deriving DecidableEq, Inhabited

/-- What a request ends with when its attempts end: a write that ends with a transient failure may
or may not have been applied once an attempt was begun at the node. -/
def Attempts.conclude (a : Attempts) (r : SequencerRequest) (o : Outcome Unit) : Outcome Unit :=
  match r, o with
  | .write pos _, .error e =>
    if e.isTransient ∧ a.sent then .error (.outcomeUnknown pos) else .error e
  | _, o => o

/-- The queue of the coordinator and what it knows. -/
structure Coordinator where
  /-- What is known of the log. -/
  view : LogView
  /-- The published status. -/
  status : SequencerStatus := .notSequencer
  /-- The requests that wait, oldest first. -/
  queue : List (SequencerRequest × Id) := []
  /-- How many requests may wait. -/
  capacity : Nat
  /-- Whether requests are no longer taken. -/
  isClosed : Bool := false
  /-- Whether nobody can make requests any more. -/
  isAbandoned : Bool := false
deriving Inhabited

namespace Coordinator

/-- A coordinator that has done nothing yet. -/
def ofConfig (c : SequencerConfig) : Coordinator where
  view := .empty c.recentWritesCapacity.toNat
  capacity := max c.queueCapacity.toNat 1

/-- Takes a request into the queue, if it may be taken. -/
def enqueue (c : Coordinator) (r : SequencerRequest) (p : Id) : Except Failure Coordinator :=
  if c.isClosed then .error .shutDown
  else if c.capacity ≤ c.queue.length then .error .overloaded
  else .ok { c with queue := c.queue ++ [(r, p)] }

/-- Publishes how a request ended. -/
def publish (c : Coordinator) (pos : Option MessageIndex) (o : Outcome Unit) : Coordinator :=
  { c with status := match o with
    | .ok () => .confirmed c.view.tail
    | .error e => .rejected pos e }

/-- Answers a request without the node, if possible. -/
def answerLocally (c : Coordinator) : SequencerRequest → Option (Outcome Unit) × Coordinator
  | .write pos msg =>
    match c.view.check pos msg with
    | (some o, view) => (some o, { c with view }.publish (some pos) o)
    | (none, view) => (none, { c with view })
  | .probe => (none, c)

/-- Notes that the calls of a request begin. -/
def startCalls (c : Coordinator) : SequencerRequest → Coordinator
  | .write pos _ => { c with status := .attemptingWrite pos }
  | .probe => c

/-- Notes how a request ended after its calls, and publishes it. -/
def finish (c : Coordinator) (r : SequencerRequest) (o : Outcome Unit) : Coordinator :=
  let view := match r with
    | .write pos msg => c.view.afterWrite pos msg o
    | .probe => c.view.afterProbe o
  { c with view }.publish r.pos? o

end Coordinator

end ConsensusLink
