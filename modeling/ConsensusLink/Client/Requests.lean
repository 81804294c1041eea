import ConsensusLink.Client.Writes
/-!
# What a client offers

The requests that can be made of a client. Each returns at once with a promise, which may be that
of an earlier request for the same thing.
-/

namespace ConsensusLink.Client

open Promise

variable {σ φ : Type}

/-- Submits a job to the pool. If it is not admitted its promise is rejected at once. -/
def submit (c : Client σ φ) (job : Job) : Id × Client σ φ :=
  match c.pool.enter with
  | .error e => c.newSettled (.error e)
  | .ok pool =>
    let (p, promises) := c.promises.new
    (p, { c with pool, promises }.spawn (.job job p .waiting))

/-- The batch of a given number. -/
def fetchBatch (c : Client σ φ) (n : BatchNumber) : Id × Client σ φ :=
  match c.batches.lookup n with
  | (.ready a, batches) => { c with batches }.newSettled (.ok a)
  | (.pending p, batches) => (p, { c with batches })
  | (.absent, batches) =>
    let (p, c) := { c with batches }.submit (.read (.fetchBatch n))
    (p, { c with batches := c.batches.begin n p }.onSettled p (.cached (.batch n) p))

/-- The batch that contains a message. -/
def findBatch (c : Client σ φ) (m : MessageIndex) : Id × Client σ φ :=
  match c.messageBatches.lookup m with
  | (.ready a, messageBatches) => { c with messageBatches }.newSettled (.ok a)
  | (.pending p, messageBatches) => (p, { c with messageBatches })
  | (.absent, messageBatches) =>
    let (p, c) := { c with messageBatches }.submit (.read (.findBatch m))
    (p, { c with messageBatches := c.messageBatches.begin m p }.onSettled p
      (.cached (.messageBatch m) p))

/-- The base layer block of a batch. -/
def batchBlock (c : Client σ φ) (n : BatchNumber) : Id × Client σ φ :=
  match c.blocks.lookup n with
  | (.ready a, blocks) => { c with blocks }.newSettled (.ok a)
  | (.pending p, blocks) => (p, { c with blocks })
  | (.absent, blocks) =>
    let (p, c) := { c with blocks }.submit (.read (.batchBlock n))
    (p, { c with blocks := c.blocks.begin n p }.onSettled p (.cached (.block n) p))

/-- Forgets a batch, so that it is read again. -/
def invalidateBatch (c : Client σ φ) (n : BatchNumber) : Client σ φ :=
  { c with batches := c.batches.purge n }

/-- The diagnostics of the node. -/
def progressMap (c : Client σ φ) : Id × Client σ φ := c.submit (.read .progressMap)

/-- One of the counts: served from what was observed, from the query under way, or from a new
query. -/
def count (c : Client σ φ) (counter : Counter) : Id × Client σ φ :=
  match c.tracker.observations.cached? counter c.now c.config.sync.countTtlMs.toNat with
  | some value => c.newSettled (.ok (.count value))
  | none =>
    match c.tracker.pending? counter with
    | some p => (p, c)
    | none =>
      let (ticket, tracker) := c.tracker.issue
      let (p, c) := { c with tracker }.submit (.query counter ticket)
      (p, { c with tracker := c.tracker.setPending counter p }.onSettled p (.counted counter p))

/-- Makes the coordinator ready if it waits for a request. -/
def alertCoordinator (c : Client σ φ) : Client σ φ :=
  match c.coordinatorStage with
  | .idle => c.wake .coordinator
  | _ => c

/-- Hands a request to the coordinator. If it is not taken its promise is rejected at once. -/
def enqueue (c : Client σ φ) (r : SequencerRequest) : Id × Client σ φ :=
  let (p, promises) := c.promises.new
  match c.coordinator.enqueue r p with
  | .error e => c.newSettled (.error e)
  | .ok coordinator => (p, { c with promises, coordinator }.alertCoordinator)

/-- Writes a message at a position. -/
def write (c : Client σ φ) (pos : MessageIndex) (msg : Message) : Id × Client σ φ :=
  c.enqueue (.write pos msg)

/-- Confirms that the lease is held. -/
def probe (c : Client σ φ) : Id × Client σ φ := c.enqueue .probe

/-- Starts a new session of counts. -/
def newSession (c : Client σ φ) : Client σ φ := { c with tracker := c.tracker.newSession }

/-- Shuts the client down: whoever is at work learns of it at his next turn. -/
def shutDown (c : Client σ φ) : Client σ φ :=
  let tasks := (List.range c.tasks.length).map TaskId.task
  { c with
    pool := c.pool.shutDown
    schedule := c.schedule.wakeAll (.coordinator :: tasks) }

/-- Gives up the only way to make requests of the coordinator. -/
def abandonCoordinator (c : Client σ φ) : Client σ φ :=
  { c with coordinator := { c.coordinator with isAbandoned := true } }.alertCoordinator

/-- Starts a service, which runs until the client is shut down. -/
def startService (c : Client σ φ) : Client σ φ := c.spawn .service

/-- Whether the client is shut down. -/
def isShutDown (c : Client σ φ) : Bool := c.pool.isDown

/-- The published status of the coordinator. -/
def status (c : Client σ φ) : SequencerStatus := c.coordinator.status

/-- The outcome of a promise, once it is settled. -/
def outcome? (c : Client σ φ) (p : Id) : Option (Outcome Answer) := c.promises.outcome? p

/-- What becomes of a promise when all work is dropped: who waits for the pool learns that it is
shut down; what waits with the coordinator is never settled. -/
def abandonedOutcome? (c : Client σ φ) (p : Id) : Option (Outcome Answer) :=
  match c.outcome? p with
  | some o => some o
  | none =>
    let isPooled := c.tasks.any fun
      | .job _ q _ => q = p
      | _ => false
    if isPooled then some (.error .shutDown) else none

end ConsensusLink.Client
