import ConsensusLink.Client.Time
import Mathlib.Logic.Relation
/-!
# Runs of a client

A *situation* is a client together with where its coordinator stands in the middle of a turn, which
promise was handed out for what, and a journal of what the coordinator did. Situations change by
*events*: something is asked or ordered of the client, a job has its turn, the coordinator makes one
step of a turn, the clock or the ready tasks change, or the node changes behind the back of the
client. The order of events is up to nobody, so that a *run* is any sequence of them; all that is
asked is that the node changes by admissible moves.

The steps of the coordinator are smaller than its turns: at most one call of the node, or one
request. `rests_coordinatorTurn` and what follows it show that the turns of the client, however they
follow each other in time, are runs.
-/

namespace ConsensusLink

open Promise Relation

/-- What a client can be asked for. Each is answered with a promise. -/
inductive Ask where
  /-- A batch. -/
  | fetchBatch (number : BatchNumber)
  /-- The batch that contains a message. -/
  | findBatch (message : MessageIndex)
  /-- The base layer block of a batch. -/
  | batchBlock (number : BatchNumber)
  /-- The diagnostics of the node. -/
  | progressMap
  /-- One of the counts. -/
  | count (counter : Counter)
  /-- A write or a probe. -/
  | sequence (request : SequencerRequest)
  /-- Work that has nothing to do with the node. -/
  | errand (name : String) (delayMs : Nat) (result : Option (Outcome Answer))

/-- What a client can be told without an answer. -/
inductive Order where
  /-- To forget a batch. -/
  | forget (number : BatchNumber)
  /-- To use a finality mark that is set by hand. -/
  | mark (finality : Option (Option MessageIndex))
  /-- To start a new session of counts. -/
  | newSession
  /-- To start the coordinator. -/
  | start
  /-- That nobody will make requests of the coordinator any more. -/
  | abandon
  /-- To start a service. -/
  | service
  /-- To shut down. -/
  | shutDown

/-- What changes a situation. -/
inductive Event (σ : Type) where
  /-- Something is asked of the client. -/
  | ask (a : Ask)
  /-- Something is ordered. -/
  | order (o : Order)
  /-- A task has its turn. -/
  | job (number : Nat)
  /-- The coordinator goes one step ahead. -/
  | advance
  /-- Time passes, alarms go off, tasks become ready. -/
  | clock (schedule : Schedule TaskId)
  /-- The node is now in another state. -/
  | node (state : σ)

/-- Whether an event may happen to a node in a given state, when `moves` says how the node may
change by itself. -/
def Event.Allowed {σ : Type} (moves : σ → σ → Prop) (n : σ) : Event σ → Prop
  | .node n' => moves n n'
  | _ => True

/-- Where the coordinator stands in the middle of a turn. -/
inductive Stance where
  /-- It does not have its turn. -/
  | resting
  /-- An attempt of a request has ended. -/
  | judging (request : SequencerRequest) (promise : Id) (attempts : Attempts)
      (result : Outcome Unit)
  /-- It is about to take up the next request. -/
  | taking

/-- An entry of the journal of the coordinator. -/
inductive Entry (σ : Type) where
  /-- It was at an attempt of a request; the node before and after, and the result if the attempt
  ended. -/
  | attempted (request : SequencerRequest) (promise : Id) (before after : σ)
      (result : Option (Outcome Unit))
  /-- A request ended after its attempts; the node at that moment. -/
  | concluded (request : SequencerRequest) (promise : Id) (outcome : Outcome Unit) (node : σ)

/-- A client in the middle of its work. -/
structure Situation (σ φ : Type) where
  /-- The client. -/
  client : Client σ φ
  /-- Where its coordinator stands. -/
  stance : Stance := .resting
  /-- What was asked, with the promises that were handed out, latest first. -/
  asked : List (Id × Ask) := []
  /-- What the coordinator did, latest first. -/
  journal : List (Entry σ) := []

variable {σ φ : Type}

namespace Client

/-- Takes up what is asked. -/
def take (c : Client σ φ) : Ask → Id × Client σ φ
  | .fetchBatch n => c.fetchBatch n
  | .findBatch m => c.findBatch m
  | .batchBlock n => c.batchBlock n
  | .progressMap => c.progressMap
  | .count counter => c.count counter
  | .sequence r => c.enqueue r
  | .errand name delay result => c.submit (.errand name delay result)

/-- Carries out an order. -/
def obey (c : Client σ φ) : Order → Client σ φ
  | .forget n => c.invalidateBatch n
  | .mark finality => { c with manualFinality := finality }
  | .newSession => c.newSession
  | .start => c.startCoordinator
  | .abandon => c.abandonCoordinator
  | .service => c.startService
  | .shutDown => c.shutDown

end Client

namespace Situation

/-- What an attempt has come to, in the journal and for the coordinator. -/
def attempt (s : Situation σ φ) (r : SequencerRequest) (p : Id) :
    Client.AttemptProgress σ φ → Situation σ φ
  | .pending c =>
    { s with
      client := c
      stance := .resting
      journal := .attempted r p s.client.node c.node none :: s.journal }
  | .result a o c =>
    { s with
      client := c
      stance := .judging r p a o
      journal := .attempted r p s.client.node c.node (some o) :: s.journal }

/-- Ends a request after its attempts. -/
def conclude (s : Situation σ φ) (r : SequencerRequest) (p : Id) (o : Outcome Unit) :
    Situation σ φ :=
  let c := s.client
  { s with
    client := { c with coordinator := c.coordinator.finish r o }.settleRequest p o
    stance := .taking
    journal := .concluded r p o c.node :: s.journal }

/-- Takes up the next request of the queue. -/
def takeUp (s : Situation σ φ) : Situation σ φ :=
  let c := s.client
  match c.coordinator.queue with
  | [] =>
    { s with
      client :=
        if c.coordinator.isAbandoned then c.stopCoordinator
        else { c with coordinatorStage := .idle }
      stance := .resting }
  | (r, p) :: queue =>
    match Coordinator.answerLocally { c.coordinator with queue } r with
    | (some o, coordinator) =>
      { s with client := { c with coordinator }.settleRequest p o, stance := .taking }
    | (none, coordinator) =>
      let c := { c with coordinator := coordinator.startCalls r }
      s.attempt r p (c.beginAttempt r p ⟨c.writePolicy.start, false⟩)

/-- Lets the coordinator go one step ahead. Before it takes up a request it looks whether the pool
is shut down. -/
def advance (s : Situation σ φ) : Situation σ φ :=
  let c := s.client
  match s.stance with
  | .resting =>
    match c.coordinatorStage with
    | .held | .stopped => s
    | .idle => { s with stance := .taking }
    | .busy r p a stage =>
      if c.pool.isDown then { s with client := (c.abortRequest p stage).stopCoordinator }
      else s.attempt r p (c.resumeAttempt r p a stage)
  | .judging r p a o =>
    match c.writePolicy.judge a.retry o with
    | .finish o => s.conclude r p (a.conclude r o)
    | .again delay next =>
      let a := { a with retry := next }
      if delay = 0 then s.attempt r p (c.beginAttempt r p a)
      else
        { s with
          client := { c with coordinatorStage := .busy r p a .pausing }.setAlarm
            .coordinator .pause delay.toNat
          stance := .resting }
  | .taking =>
    if c.pool.isDown then { s with client := c.stopCoordinator, stance := .resting }
    else s.takeUp

/-- The situation after an event. -/
def after (s : Situation σ φ) : Event σ → Situation σ φ
  | .ask a =>
    let (p, c) := s.client.take a
    { s with client := c, asked := (p, a) :: s.asked }
  | .order o => { s with client := s.client.obey o }
  | .job i => { s with client := s.client.turn (.task i) }
  | .advance => s.advance
  | .clock schedule => { s with client := { s.client with schedule } }
  | .node n => { s with client := { s.client with node := n } }

/-- One event of a run. -/
def Step (moves : σ → σ → Prop) (s s' : Situation σ φ) : Prop :=
  ∃ e : Event σ, e.Allowed moves s.client.node ∧ s' = s.after e

/-- A run from one situation to another. -/
def Runs (moves : σ → σ → Prop) : Situation σ φ → Situation σ φ → Prop :=
  ReflTransGen (Step moves)

/-- The situation of a client that has done nothing yet. -/
def fresh (config : ClientConfig) (remote : Remote σ φ) (node : σ) : Situation σ φ where
  client := .ofConfig config remote node

/-- The situation after a list of events. -/
def afterAll (s : Situation σ φ) (es : List (Event σ)) : Situation σ φ := es.foldl after s

end Situation

end ConsensusLink
