import ConsensusLink.Cache.Table
import ConsensusLink.Node.Remote
import ConsensusLink.Pool
import ConsensusLink.Progress.Tracker
import ConsensusLink.Schedule
import ConsensusLink.Sequencer.Coordinator
/-!
# A client at work

A `Client` holds all that a client of a consensus node knows while it works: the promises it has
handed out, the pool, the caches, the counts, the coordinator of writes and the tasks that are under
way, together with the node and the clock. The node is any `Remote`.
-/

namespace ConsensusLink

open Promise

/-- A key of one of the caches. -/
inductive CacheKey where
  /-- The payload of a batch. -/
  | batch (number : BatchNumber)
  /-- The base layer block of a batch. -/
  | block (number : BatchNumber)
  /-- The batch that contains a message. -/
  | messageBatch (message : MessageIndex)
deriving DecidableEq, Inhabited, Repr

/-- What happens when a promise is settled. -/
inductive Follow where
  /-- A cache learns how its request ended. -/
  | cached (key : CacheKey) (promise : Id)
  /-- The query of a count is no longer under way. -/
  | counted (counter : Counter) (promise : Id)
deriving DecidableEq, Inhabited, Repr

/-- What a request of the pool does. -/
inductive Job where
  /-- Reads from the node, repeatedly if it must. -/
  | read (call : Call)
  /-- Queries a count, repeatedly if it must, and checks the answer. -/
  | query (counter : Counter) (ticket : Ticket)
  /-- Work that has nothing to do with the node: after some time it has a result, or breaks down
  if it has none. -/
  | errand (name : String) (delayMs : Nat) (result : Option (Outcome Answer))

/-- How far a request of the pool is. -/
inductive JobStage (φ : Type) where
  /-- It waits for a slot. -/
  | waiting
  /-- Its call waits. -/
  | calling (retry : Retry.State) (phase : φ)
  /-- It pauses between two attempts. -/
  | pausing (retry : Retry.State)
  /-- It works, without a call. -/
  | working

/-- How far an attempt of a write or probe is. -/
inductive AttemptStage (φ : Type) where
  /-- It waits for a slot, at most up to a moment. -/
  | waiting (deadline : Option Nat)
  /-- Its call waits, at most up to a moment. -/
  | calling (phase : φ) (deadline : Option Nat)
  /-- The next attempt is to begin after a pause. -/
  | pausing

/-- What the coordinator is doing. -/
inductive CoordinatorStage (φ : Type) where
  /-- It has not been started. -/
  | held
  /-- It waits for a request. -/
  | idle
  /-- It handles a request. -/
  | busy (request : SequencerRequest) (promise : Id) (attempts : Attempts)
      (stage : AttemptStage φ)
  /-- It has stopped. -/
  | stopped

/-- A task. -/
inductive Task (φ : Type) where
  /-- A request of the pool. -/
  | job (job : Job) (promise : Id) (stage : JobStage φ)
  /-- A call of the node that does not go through the pool. -/
  | direct (call : Call) (promise : Id) (phase : Option φ)
  /-- Something that runs until the client is shut down. -/
  | service
  /-- It is done. -/
  | finished

/-- Names the tasks. -/
inductive TaskId where
  /-- The coordinator. -/
  | coordinator
  /-- Any other task, by number. -/
  | task (number : Nat)
deriving DecidableEq, Inhabited, Repr

/-- A client at work on a node. -/
structure Client (σ φ : Type) where
  /-- The configuration. -/
  config : ClientConfig
  /-- How calls go. -/
  remote : Remote σ φ
  /-- The node. -/
  node : σ
  /-- The promises. -/
  promises : Store Answer Failure Follow := .empty
  /-- Which promises were settled and when, latest first. -/
  settlements : List (Id × Nat) := []
  /-- The pool. -/
  pool : Pool TaskId
  /-- Batches by number. -/
  batches : CacheTable BatchNumber Answer
  /-- Base layer blocks by batch. -/
  blocks : CacheTable BatchNumber Answer
  /-- Batches by message. -/
  messageBatches : CacheTable MessageIndex Answer
  /-- The counts. -/
  tracker : Tracker := {}
  /-- A finality mark for the cache of message batches that is set by hand; without one the mark
  of the tracker is used. -/
  manualFinality : Option (Option MessageIndex) := none
  /-- The coordinator. -/
  coordinator : Coordinator
  /-- What the coordinator is doing. -/
  coordinatorStage : CoordinatorStage φ := .held
  /-- The tasks by number. -/
  tasks : List (Task φ) := []
  /-- The task that the caller itself is waiting in, which has its turn first when time moves and
  last otherwise. -/
  foreground : Option TaskId := none
  /-- How many services have stopped. -/
  stoppedServices : Nat := 0
  /-- Whose turn it is. -/
  schedule : Schedule TaskId := {}

namespace Client

variable {σ φ : Type}

/-- A client that has done nothing yet. Its coordinator is not started. -/
def ofConfig (config : ClientConfig) (remote : Remote σ φ) (node : σ) : Client σ φ where
  config := config
  remote := remote
  node := node
  pool := .empty config.pool
  batches := .empty config.batchFetcher.batchCacheCapacity.toNat
  blocks := .empty config.batchFetcher.lookupCacheCapacity.toNat
  messageBatches := .empty config.batchFetcher.lookupCacheCapacity.toNat
  coordinator := .ofConfig config.sequencer

/-- The time in milliseconds. -/
def now (c : Client σ φ) : Nat := c.schedule.now

/-- The finality mark that decides which message batches are kept. -/
def finality (c : Client σ φ) : Option MessageIndex := c.manualFinality.getD c.tracker.finality

/-- Whether a message is below the finality mark. -/
def isFinal (c : Client σ φ) (m : MessageIndex) : Bool :=
  match c.finality with
  | some mark => m < mark
  | none => false

/-- Makes a task ready. -/
def wake (c : Client σ φ) (t : TaskId) : Client σ φ := { c with schedule := c.schedule.wake t }

/-- Makes a task ready, if there is one. -/
def wakeNext (c : Client σ φ) : Option TaskId → Client σ φ
  | some t => c.wake t
  | none => c

/-- Starts the coordinator, if it was not started. -/
def startCoordinator (c : Client σ φ) : Client σ φ :=
  match c.coordinatorStage with
  | .held => { c with coordinatorStage := .idle }.wake .coordinator
  | _ => c

/-- A new task, which is ready. -/
def spawn (c : Client σ φ) (t : Task φ) : Client σ φ :=
  { c with tasks := c.tasks ++ [t] }.wake (.task c.tasks.length)

/-- Replaces a task. -/
def setTask (c : Client σ φ) (i : Nat) (t : Task φ) : Client σ φ :=
  { c with tasks := c.tasks.set i t }

/-- Does what follows when a promise is settled. -/
def follow (c : Client σ φ) (o : Outcome Answer) : Follow → Client σ φ
  | .cached (.batch n) p => { c with batches := c.batches.finish n p o fun _ => true }
  | .cached (.block n) p => { c with blocks := c.blocks.finish n p o fun _ => true }
  | .cached (.messageBatch m) p =>
    { c with messageBatches := c.messageBatches.finish m p o fun _ => c.isFinal m }
  | .counted counter p => { c with tracker := c.tracker.clearPending counter p }

/-- Settles a promise, and does what follows. -/
def settle (c : Client σ φ) (p : Id) (o : Outcome Answer) : Client σ φ :=
  match c.promises.settle? p o with
  | none => c
  | some (follows, promises) =>
    let c := { c with promises, settlements := (p, c.now) :: c.settlements }
    follows.foldl (fun c f => c.follow o f) c

/-- A new promise that is settled already. -/
def newSettled (c : Client σ φ) (o : Outcome Answer) : Id × Client σ φ :=
  let (p, promises) := c.promises.newSettled o
  (p, { c with promises, settlements := (p, c.now) :: c.settlements })

/-- Registers what follows when a promise is settled, which happens at once if it is. -/
def onSettled (c : Client σ φ) (p : Id) (f : Follow) : Client σ φ :=
  let (o, promises) := c.promises.register p f
  let c := { c with promises }
  match o with
  | some o => c.follow o f
  | none => c

/-- Gives a slot of the pool back. -/
def releaseSlot (c : Client σ φ) : Client σ φ :=
  let (next, pool) := c.pool.release
  { c with pool }.wakeNext next

/-- Begins a call of the node. -/
def beginCall (c : Client σ φ) (call : Call) : CallProgress φ × Client σ φ :=
  let (progress, node) := c.remote.begin call c.now c.node
  (progress, { c with node })

/-- Resumes a call of the node. -/
def resumeCall (c : Client σ φ) (call : Call) (phase : φ) : CallProgress φ × Client σ φ :=
  let (progress, node) := c.remote.resume call phase c.now c.node
  (progress, { c with node })

/-- Sets an alarm. -/
def setAlarm (c : Client σ φ) (t : TaskId) (slot : AlarmSlot) (ms : Nat) : Client σ φ :=
  { c with schedule := c.schedule.setAlarm t slot ms }

/-- Takes the alarms of a task off. -/
def dropAlarms (c : Client σ φ) (t : TaskId) : Client σ φ :=
  { c with schedule := c.schedule.dropAlarms t }

/-- Whether a task still pauses. -/
def isPausing (c : Client σ φ) (t : TaskId) : Bool := c.schedule.hasAlarm t .pause

end Client

end ConsensusLink
