import ConsensusLink.Client.Jobs
/-!
# Writes and probes

How the coordinator proceeds from turn to turn. It takes one request at a time from its queue and
answers it from its view of the log, or makes its attempts: each waits for a slot of the pool and
makes one call; a write gives an attempt up when it has taken too long. When the pool is shut down
the request at hand and all that wait are rejected, and the coordinator stops.
-/

namespace ConsensusLink

open Promise

/-- The call that a request makes. -/
def SequencerRequest.call : SequencerRequest → Call
  | write pos msg => .write pos msg
  | probe => .probe

namespace Client

variable {σ φ : Type}

/-- What an attempt has come to. -/
inductive AttemptProgress (σ φ : Type) where
  /-- It is still under way. -/
  | pending (client : Client σ φ)
  /-- It has a result. -/
  | result (attempts : Attempts) (o : Outcome Unit) (client : Client σ φ)

/-- The failure of an attempt that broke down. -/
def brokenAttempt (r : SequencerRequest) : Failure := (Job.read r.call).broken

/-- How the calls of the coordinator are repeated. -/
def writePolicy (c : Client σ φ) : Retry.Policy Failure := c.config.sequencer.retry.policy

/-- Keeps an attempt that waits, or gives it up if its time is up. -/
def keepAttempt (c : Client σ φ) (r : SequencerRequest) (p : Id) (a : Attempts)
    (stage : AttemptStage φ) (deadline : Option Nat) (giveUp : Client σ φ → Client σ φ) :
    AttemptProgress σ φ :=
  if deadline.any (· ≤ c.now) then
    .result a (.error .timeout) (giveUp (c.dropAlarms .coordinator))
  else .pending { c with coordinatorStage := .busy r p a stage }

/-- Gives up waiting for a slot. -/
def leavePool (c : Client σ φ) : Client σ φ :=
  let (next, pool) := c.pool.leave .coordinator
  { c with pool }.wakeNext next

/-- Goes on with an attempt whose call has proceeded. -/
def proceedAttempt (c : Client σ φ) (r : SequencerRequest) (p : Id) (a : Attempts)
    (deadline : Option Nat) : CallProgress φ → AttemptProgress σ φ
  | .ends o => .result a (o.map fun _ => ()) (c.dropAlarms .coordinator).releaseSlot
  | .breaks => .result a (.error (brokenAttempt r)) (c.dropAlarms .coordinator).releaseSlot
  | .waits ms phase =>
    let c := c.setAlarm .coordinator .pause ms
    c.keepAttempt r p a (.calling phase deadline) deadline releaseSlot

/-- Asks for the slot of an attempt; with the slot its call begins. -/
def askForSlot (c : Client σ φ) (r : SequencerRequest) (p : Id) (a : Attempts)
    (deadline : Option Nat) : AttemptProgress σ φ :=
  let (reply, next, pool) := c.pool.ask .coordinator
  let c := { c with pool }.wakeNext next
  match reply with
  | .refused => .result a (.error .shutDown) (c.dropAlarms .coordinator)
  | .wait => c.keepAttempt r p a (.waiting deadline) deadline leavePool
  | .taken =>
    let (progress, c) := c.beginCall r.call
    c.proceedAttempt r p { a with sent := true } deadline progress

/-- How long an attempt may take; a probe takes as long as it takes. -/
def attemptLimit (c : Client σ φ) : SequencerRequest → Option Nat
  | .write .. => some c.config.sequencer.writeTimeoutMs.toNat
  | .probe => none

/-- Begins an attempt. -/
def beginAttempt (c : Client σ φ) (r : SequencerRequest) (p : Id) (a : Attempts) :
    AttemptProgress σ φ :=
  match c.pool.enter with
  | .error e => .result a (.error e) c
  | .ok pool =>
    let limit := c.attemptLimit r
    match { c with pool }.askForSlot r p a (limit.map (c.now + ·)) with
    | .pending c =>
      .pending (match limit with
        | some ms => c.setAlarm .coordinator .deadline ms
        | none => c)
    | result => result

/-- Goes on with an attempt that is under way. -/
def resumeAttempt (c : Client σ φ) (r : SequencerRequest) (p : Id) (a : Attempts) :
    AttemptStage φ → AttemptProgress σ φ
  | .waiting deadline => c.askForSlot r p a deadline
  | .calling phase deadline =>
    if c.isPausing .coordinator then
      c.keepAttempt r p a (.calling phase deadline) deadline releaseSlot
    else
      let (progress, c) := c.resumeCall r.call phase
      c.proceedAttempt r p a deadline progress
  | .pausing => if c.isPausing .coordinator then .pending c else c.beginAttempt r p a

/-- What the coordinator comes to with the request at hand. -/
inductive RequestProgress (σ φ : Type) where
  /-- The request is still under way. -/
  | pending (client : Client σ φ)
  /-- The request is done. -/
  | done (client : Client σ φ)

/-- Settles the promise of a request. -/
def settleRequest (c : Client σ φ) (p : Id) (o : Outcome Unit) : Client σ φ :=
  c.settle p (o.map fun _ => .done)

/-- Goes on with a request after an attempt has come to something. -/
def proceedRequest (policy : Retry.Policy Failure) (r : SequencerRequest) (p : Id) (a : Attempts)
    (progress : AttemptProgress σ φ) : RequestProgress σ φ :=
  match progress with
  | .pending c => .pending c
  | .result a' o c =>
    match _h : policy.judge a.retry o with
    | .finish o =>
      let o := a'.conclude r o
      .done ({ c with coordinator := c.coordinator.finish r o }.settleRequest p o)
    | .again delay next =>
      let a' := { a' with retry := next }
      if delay = 0 then proceedRequest policy r p a' (c.beginAttempt r p a')
      else
        .pending ({ c with coordinatorStage := .busy r p a' .pausing }.setAlarm
          .coordinator .pause delay.toNat)
termination_by policy.maxRetries.toNat - a.retry.retries.toNat
decreasing_by
  have := Retry.Policy.retries_of_judge _h
  omega

/-- Takes up a request. -/
def beginRequest (c : Client σ φ) (r : SequencerRequest) (p : Id) : RequestProgress σ φ :=
  match c.coordinator.answerLocally r with
  | (some o, coordinator) => .done ({ c with coordinator }.settleRequest p o)
  | (none, coordinator) =>
    let c := { c with coordinator := coordinator.startCalls r }
    let a : Attempts := ⟨c.writePolicy.start, false⟩
    proceedRequest c.writePolicy r p a (c.beginAttempt r p a)

/-- Stops the coordinator: all requests that wait are rejected. -/
def stopCoordinator (c : Client σ φ) : Client σ φ :=
  let waiting := c.coordinator.queue
  let c := { c with
    coordinator := { c.coordinator with queue := [], isClosed := true }
    coordinatorStage := .stopped }
  waiting.foldl (fun c (_, p) => c.settleRequest p (.error .shutDown)) c

/-- Takes up requests until one stays under way or none waits; at most as many as the first
argument says. -/
def serve : Nat → Client σ φ → Client σ φ
  | 0, c => c
  | fuel + 1, c =>
    match c.coordinator.queue with
    | [] =>
      if c.coordinator.isAbandoned then c.stopCoordinator
      else { c with coordinatorStage := .idle }
    | (r, p) :: queue =>
      match { c with coordinator := { c.coordinator with queue } }.beginRequest r p with
      | .pending c => c
      | .done c => serve fuel c

/-- Takes up requests as long as none stays under way. -/
def serveAll (c : Client σ φ) : Client σ φ := serve (c.coordinator.queue.length + 1) c

/-- Ends the request at hand because the pool is shut down. -/
def abortRequest (c : Client σ φ) (p : Id) (stage : AttemptStage φ) : Client σ φ :=
  let c := c.dropAlarms .coordinator
  let c := match stage with
    | .waiting _ => c.leavePool
    | .calling .. => c.releaseSlot
    | .pausing => c
  c.settleRequest p (.error .shutDown)

/-- Gives the coordinator its turn. -/
def coordinatorTurn (c : Client σ φ) : Client σ φ :=
  match c.coordinatorStage with
  | .held | .stopped => c
  | .idle => if c.pool.isDown then c.stopCoordinator else c.serveAll
  | .busy r p a stage =>
    if c.pool.isDown then (c.abortRequest p stage).stopCoordinator
    else
      match proceedRequest c.writePolicy r p a (c.resumeAttempt r p a stage) with
      | .pending c => c
      | .done c => c.serveAll

end Client

end ConsensusLink
