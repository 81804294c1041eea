import ConsensusLink.Client.Basic
/-!
# Requests of the pool

How a request of the pool proceeds from turn to turn: it waits for a slot, makes its calls with
pauses between the attempts, gives its slot back and settles its promise. Shutting down ends it at
its next turn, wherever it is.
-/

namespace ConsensusLink

open Promise

namespace Job

/-- The name of a job, as it appears when the job breaks down. -/
def name : Job → String
  | read (.fetchBatch _) => "fetch_batch"
  | read (.findBatch _) => "find_l1_batch_for_message"
  | read (.batchBlock _) => "get_batch_l1_block"
  | read .progressMap => "sync_progress_map"
  | read (.count c) => c.name
  | read (.write ..) => "write_message_from_sequencer"
  | read .probe => "expect_chosen_sequencer"
  | query c _ => c.name
  | errand name .. => name

/-- The call that a job makes. -/
def call? : Job → Option Call
  | read call => some call
  | query c _ => some (.count c)
  | errand .. => none

/-- How a failure that remains after all attempts is reported. -/
def exhausted (j : Job) (e : Failure) : Failure :=
  match j with
  | read (.fetchBatch n) => .batchUnavailable n e.message
  | read (.findBatch m) => .lookupUnavailable (.messageBatch m) e.message
  | read (.batchBlock n) => .lookupUnavailable (.batchBlock n) e.message
  | _ => e

/-- How the last failure of a job is reported: as it is, unless it could have been tried again. -/
def report (j : Job) (e : Failure) : Failure := if e.isTransient then j.exhausted e else e

/-- The failure of a job that broke down. -/
def broken (j : Job) : Failure := .internal (j.name ++ " panicked")

end Job

namespace Client

variable {σ φ : Type}

/-- How the calls of a job are repeated. -/
def jobPolicy (c : Client σ φ) : Job → Retry.Policy Failure
  | .read .progressMap | .query .. => c.config.sync.retry.policy
  | _ => c.config.batchFetcher.retry.policy

/-- Ends a job that has a slot. -/
def endJob (c : Client σ φ) (i : Nat) (p : Id) (o : Outcome Answer) : Client σ φ :=
  let c := (c.setTask i .finished).dropAlarms (.task i)
  c.releaseSlot.settle p o

/-- What a job does with the result of its last attempt. -/
def concludeJob (c : Client σ φ) (job : Job) (o : Outcome Answer) : Outcome Answer × Client σ φ :=
  match job, o with
  | .query counter ticket, .ok (.count value) =>
    let (r, tracker) := c.tracker.answer counter value ticket c.now
    (r.map .count, { c with tracker })
  | _, .ok a => (.ok a, c)
  | job, .error e => (.error (job.report e), c)

mutual

/-- Goes on with a job after an attempt has proceeded. -/
def proceedJob (c : Client σ φ) (i : Nat) (job : Job) (p : Id) (policy : Retry.Policy Failure)
    (retry : Retry.State) (call : Call) (progress : CallProgress φ) : Client σ φ :=
  match progress with
  | .waits ms phase =>
    (c.setTask i (.job job p (.calling retry phase))).setAlarm (.task i) .pause ms
  | .breaks => c.endJob i p (.error job.broken)
  | .ends result =>
    match _h : policy.judge retry result with
    | .finish result =>
      let (o, c) := c.concludeJob job result
      c.endJob i p o
    | .again delay next =>
      if delay = 0 then c.attemptJob i job p policy next call
      else (c.setTask i (.job job p (.pausing next))).setAlarm (.task i) .pause delay.toNat
termination_by (policy.maxRetries.toNat - retry.retries.toNat, 0)
decreasing_by
  have := Retry.Policy.retries_of_judge _h
  apply Prod.Lex.left
  omega

/-- Begins an attempt of a job. -/
def attemptJob (c : Client σ φ) (i : Nat) (job : Job) (p : Id) (policy : Retry.Policy Failure)
    (retry : Retry.State) (call : Call) : Client σ φ :=
  let (progress, c) := c.beginCall call
  c.proceedJob i job p policy retry call progress
termination_by (policy.maxRetries.toNat - retry.retries.toNat, 1)
decreasing_by
  apply Prod.Lex.right
  omega

end

/-- Begins the work of a job that has a slot. -/
def beginJob (c : Client σ φ) (i : Nat) (job : Job) (p : Id) : Client σ φ :=
  match job with
  | .errand _ delay result =>
    if delay = 0 then c.endJob i p (result.getD (.error job.broken))
    else (c.setTask i (.job job p .working)).setAlarm (.task i) .pause delay
  | .read call =>
    let policy := c.jobPolicy job
    c.attemptJob i job p policy policy.start call
  | .query counter _ =>
    let policy := c.jobPolicy job
    c.attemptJob i job p policy policy.start (.count counter)

/-- Goes on with a job that has a slot. -/
def resumeJob (c : Client σ φ) (i : Nat) (job : Job) (p : Id) (stage : JobStage φ) :
    Client σ φ :=
  if c.pool.isDown then c.endJob i p (.error .shutDown)
  else if c.isPausing (.task i) then c
  else
    match job, stage with
    | .errand _ _ result, _ => c.endJob i p (result.getD (.error job.broken))
    | _, .calling retry phase =>
      match job.call? with
      | some call =>
        let (progress, c) := c.resumeCall call phase
        c.proceedJob i job p (c.jobPolicy job) retry call progress
      | none => c
    | _, .pausing retry =>
      match job.call? with
      | some call => c.attemptJob i job p (c.jobPolicy job) retry call
      | none => c
    | _, _ => c

/-- Gives a job its turn. -/
def jobTurn (c : Client σ φ) (i : Nat) (job : Job) (p : Id) : JobStage φ → Client σ φ
  | .waiting =>
    let (reply, next, pool) := c.pool.ask (.task i)
    let c := { c with pool }.wakeNext next
    match reply with
    | .taken => c.beginJob i job p
    | .wait => c
    | .refused => (c.setTask i .finished).settle p (.error .shutDown)
  | stage => c.resumeJob i job p stage

/-- Gives a call that does not go through the pool its turn. -/
def directTurn (c : Client σ φ) (i : Nat) (call : Call) (p : Id) (phase : Option φ) :
    Client σ φ :=
  let (progress, c) := match phase with
    | none => c.beginCall call
    | some phase => c.resumeCall call phase
  match progress with
  | .waits ms phase =>
    (c.setTask i (.direct call p (some phase))).setAlarm (.task i) .pause ms
  | .breaks => (c.setTask i .finished).settle p (.error (.internal "panicked"))
  | .ends result => (c.setTask i .finished).settle p result

end Client

end ConsensusLink
