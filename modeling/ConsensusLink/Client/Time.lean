import ConsensusLink.Client.Requests
/-!
# A client in time

Tasks have their turns in the order in which they become ready. The caller waits for some time to
pass or for a promise to be settled; while it waits time moves from alarm to alarm, and it stops
waiting only when all that can happen at the moment has happened.
-/

namespace ConsensusLink.Client

open Promise

variable {σ φ : Type}

/-- Gives a task its turn. -/
def turn (c : Client σ φ) : TaskId → Client σ φ
  | .coordinator => c.coordinatorTurn
  | .task i =>
    match c.tasks[i]? with
    | some (.job job p stage) => c.jobTurn i job p stage
    | some (.direct call p phase) => c.directTurn i call p phase
    | some .service =>
      if c.pool.isDown then
        { c.setTask i .finished with stoppedServices := c.stoppedServices + 1 }
      else c
    | some .finished | none => c

/-- The task whose turn is next: the one that the caller waits in only when it is alone. -/
def nextTask? (c : Client σ φ) : Option TaskId :=
  c.schedule.ready.find? (some · ≠ c.foreground) <|> c.schedule.ready.head?

/-- Takes a task out of those that are ready. -/
def takeReady (c : Client σ φ) (t : TaskId) : Client σ φ :=
  { c with schedule := { c.schedule with ready := c.schedule.ready.erase t } }

/-- Gives turns until nobody is ready, with a bound on their number. -/
def drainWithin : Nat → Client σ φ → Client σ φ
  | 0, c => c
  | fuel + 1, c =>
    match c.nextTask? with
    | none => c
    | some t => drainWithin fuel ((c.takeReady t).turn t)

/-- How many turns there may be at one moment: each task becomes ready, is handed a slot and has an
alarm go off; the coordinator besides takes up each request of its queue, as often as it may. -/
def turnsLeft (c : Client σ φ) : Nat :=
  4 * (c.tasks.length + 2) +
    2 * (c.coordinator.queue.length + 2) * (c.config.sequencer.maxWriteRetries.toNat + 2)

/-- Lets everything happen that can happen now. -/
def drain (c : Client σ φ) : Client σ φ := drainWithin c.turnsLeft c

/-- Moves the clock, letting all alarms up to the new time go off. The task that the caller waits
in has its turn first. -/
def moveTo (c : Client σ φ) (time : Nat) : Client σ φ :=
  let c := { c with schedule := c.schedule.moveTo time }
  match c.foreground with
  | some t => if t ∈ c.schedule.ready then (c.takeReady t).turn t else c
  | none => c

instance : Timed (Client σ φ) where
  now := now
  nextTime? c := c.schedule.nextTime?
  drain := drain
  moveTo := moveTo

/-- Waits for a promise for a limited time, in milliseconds. When the time is up the caller goes on
before anybody else has his turn. -/
def await (c : Client σ φ) (p : Id) (limit : Nat) : Outcome Answer × Client σ φ :=
  let c := match c.outcome? p with
    | some _ => c
    | none =>
      if limit = 0 then c
      else Timed.passUntil c (fun c => (c.outcome? p).isSome) (c.now + limit)
  ((c.outcome? p).getD (.error .timeout), c)

/-- Waits for a promise for a limited time. Returns what was found, once all that can happen then
has happened. -/
def wait (c : Client σ φ) (p : Id) (limit : Nat) : Outcome Answer × Client σ φ :=
  let (o, c) := c.await p limit
  (o, c.drain)

/-- How long the caller waits in a task of its own, in milliseconds. -/
def patience : Nat := 1000 * 365 * 24 * 3600 * 1000

/-- Waits in a task of the caller's own, whose turn is at once, until its promise is settled. -/
def waitIn (c : Client σ φ) (task : Id → Task φ) : Outcome Answer × Client σ φ :=
  let (p, promises) := c.promises.new
  let i := c.tasks.length
  let c := { c with
    promises
    tasks := c.tasks ++ [task p]
    foreground := some (.task i) }.turn (.task i)
  let (o, c) := c.wait p patience
  (o, { c with foreground := none })

/-- Runs a job in the pool while the caller waits. -/
def runInline (c : Client σ φ) (job : Job) : Outcome Answer × Client σ φ :=
  match c.pool.enter with
  | .error e => (.error e, c.drain)
  | .ok pool => { c with pool }.waitIn fun p => .job job p .waiting

/-- Makes a call of the node, past the pool, while the caller waits. -/
def callDirectly (c : Client σ φ) (call : Call) : Outcome Answer × Client σ φ :=
  c.waitIn fun p => .direct call p none

end ConsensusLink.Client
