import ConsensusLink.Failure
import ConsensusLink.Promise.Store
import ConsensusLink.Schedule
/-!
# Programs over promises

A program makes promises, settles them, reads them and registers continuations, which are programs
themselves; it may also start tasks that wait for a promise or run a program later. Continuations
run at once and to their end, whoever settles the promise, so a step is carried out by an agenda:
what a step sets off is put in front of what is still to be done.
-/

namespace ConsensusLink.Promise

/-- A step of a program. Promises and tokens are named by the number of the handle. -/
inductive Step where
  /-- A promise that is not settled. -/
  | new
  /-- The promise that stands for no choice: it is not settled. -/
  | newDefault
  /-- A promise settled with a value. -/
  | resolved (value : Int64)
  /-- A promise settled with a failure. -/
  | rejected (failure : Failure)
  /-- Another handle on a promise. -/
  | clone (p : Nat)
  /-- The promise of twice the value plus a summand. -/
  | map (p : Nat) (summand : Int64)
  /-- Settles a promise with a value. -/
  | resolve (p : Nat) (value : Int64)
  /-- Settles a promise with a failure. -/
  | reject (p : Nat) (failure : Failure)
  /-- The outcome of a promise, if it is settled. -/
  | read (p : Nat)
  /-- Whether a promise is settled. -/
  | isSettled (p : Nat)
  /-- Whether two handles are on the same promise. -/
  | same (p q : Nat)
  /-- A description of a promise. -/
  | describe (p : Nat)
  /-- Registers a program on a promise. -/
  | onSettled (p : Nat) (label : String) (steps : List Step)
  /-- A token by which waiting can be cancelled. -/
  | token
  /-- Cancels a token. -/
  | cancel (token : Nat)
  /-- Starts a task that waits for a promise, for a limited time or until a token is cancelled. -/
  | waiter (p : Nat) (label : String) (limit token : Option Nat)
  /-- Starts a task that runs a program after some time. -/
  | later (ms : Nat) (steps : List Step)
deriving Inhabited

/-- How much a step may lead to: carrying it out and noting its answer, running what it registers,
and the turns of the tasks that it starts. -/
def Step.size : Step → Nat
  | map .. => 3
  | onSettled _ _ steps => 3 + sizes steps
  | waiter .. => 4
  | later _ steps => 4 + sizes steps
  | _ => 2
where
  /-- How much steps may lead to in all. -/
  sizes : List Step → Nat
    | [] => 0
    | s :: rest => s.size + sizes rest

/-- What a step answers. -/
inductive Reply where
  /-- Nothing. -/
  | nothing
  /-- The number of a new handle. -/
  | number (n : Nat)
  /-- The promise was settled by this step. -/
  | settled
  /-- The promise was settled before, and a value was offered. -/
  | already
  /-- The promise was settled before, and a failure was offered. -/
  | refused
  /-- An outcome, if there is one. -/
  | outcome (o : Option (Outcome Int64))
  /-- A truth value. -/
  | flag (b : Bool)
  /-- A text. -/
  | text (s : String)
deriving Inhabited

/-- What runs when a promise is settled. -/
inductive Continuation where
  /-- A program. -/
  | program (label : String) (steps : List Step)
  /-- Settles another promise with twice the value plus a summand, or with the same failure. -/
  | doubling (target : Id) (summand : Int64)

/-- How much a continuation may lead to. -/
def Continuation.size : Continuation → Nat
  | program _ steps => 1 + Step.size.sizes steps
  | doubling .. => 1

/-- Who carries out a step. -/
inductive Origin where
  /-- The script itself. -/
  | script
  /-- A continuation. -/
  | continuation (label : String)
  /-- A program that runs later. -/
  | later

/-- What is put on record. -/
inductive Entry where
  /-- A continuation began to run. -/
  | ran (label : String) (outcome : Outcome Int64) (time : Nat)
  /-- A continuation carried out a step. -/
  | did (label : String) (step : Step) (reply : Reply)
  /-- A program that runs later carried out a step. -/
  | later (step : Step) (reply : Reply) (time : Nat)

/-- A task. -/
inductive Task where
  /-- Runs a program; it has not begun to wait. -/
  | laterFresh (ms : Nat) (steps : List Step)
  /-- Runs a program when its alarm goes off. -/
  | laterWaiting (steps : List Step)
  /-- Waits for a promise; it has not begun. -/
  | waiterFresh (p : Id) (label : String) (limit token : Option Nat)
  /-- Waits for a promise, up to a moment or until a token is cancelled. -/
  | waiting (p : Id) (label : String) (deadline token : Option Nat)
  /-- It is done. -/
  | finished
deriving Inhabited

/-- How much a task may still do. -/
def Task.size : Task → Nat
  | laterFresh _ steps => 2 + Step.size.sizes steps
  | laterWaiting steps => 1 + Step.size.sizes steps
  | waiterFresh .. => 2
  | waiting .. => 1
  | finished => 0

/-- A task's number. -/
abbrev TaskId := Nat

/-- Promises with what is known of them, tasks and time. -/
structure Scene where
  /-- The promises. -/
  promises : Store Int64 Failure Continuation := .empty
  /-- The handles by number. -/
  handles : List Id := []
  /-- The tokens by number: whether each is cancelled. -/
  tokens : List Bool := []
  /-- The tasks by number. -/
  tasks : List Task := []
  /-- Whose turn it is. -/
  schedule : Schedule TaskId := {}
  /-- What continuations and later programs did, latest first. -/
  entries : List Entry := []
  /-- What waiting tasks found, latest first. -/
  found : List (Nat × String × Outcome Int64) := []
  /-- What the last step of the script answered. -/
  reply : Reply := .nothing
deriving Inhabited

/-- What is still to be done. -/
inductive Action where
  /-- A step. -/
  | perform (origin : Origin) (step : Step)
  /-- A continuation. -/
  | resume (k : Continuation) (outcome : Outcome Int64)
  /-- Putting on record what a step answered. -/
  | note (origin : Origin) (step : Step) (reply : Reply)

/-- How much an action may lead to. -/
def Action.size : Action → Nat
  | perform _ step => step.size
  | resume k _ => k.size
  | note .. => 1

namespace Scene

/-- The promise of a handle. -/
def id? (s : Scene) (p : Nat) : Option Id := s.handles[p]?

/-- The outcome of a promise named by a handle. -/
def outcome? (s : Scene) (p : Nat) : Option (Outcome Int64) := do s.promises.outcome? (← s.id? p)

/-- A new handle. -/
def addHandle (s : Scene) (p : Id) : Nat × Scene :=
  (s.handles.length, { s with handles := s.handles ++ [p] })

/-- A new promise in a given state, with a handle. -/
def addPromise (s : Scene) (cell : Cell Int64 Failure Continuation) : Nat × Scene :=
  let (p, promises) := s.promises.add cell
  { s with promises }.addHandle p

/-- A new task, which is ready. -/
def spawn (s : Scene) (t : Task) : Scene :=
  { s with tasks := s.tasks ++ [t], schedule := s.schedule.wake s.tasks.length }

/-- The tasks that wait for something. -/
def waitingFor (s : Scene) (isFor : Task → Bool) : List TaskId :=
  (List.range s.tasks.length).filter fun i => (s.tasks[i]?).any isFor

/-- Whether a token is cancelled. -/
def isCancelled (s : Scene) (token : Nat) : Bool := (s.tokens[token]?).getD false

/-- Settles a promise: wakes who waits for it and hands back the continuations to run. -/
def settle (s : Scene) (p : Id) (o : Outcome Int64) : Bool × List Action × Scene :=
  match s.promises.settle? p o with
  | none => (false, [], s)
  | some (ks, promises) =>
    let waiters := s.waitingFor fun
      | .waiting q .. => q = p
      | _ => false
    (true, ks.map (.resume · o),
      { s with promises, schedule := s.schedule.wakeAll waiters })

/-- Registers a continuation; if it is to run now it is handed back. -/
def register (s : Scene) (p : Id) (k : Continuation) : List Action × Scene :=
  let (now, promises) := s.promises.register p k
  (match now with
    | some o => [.resume k o]
    | none => [], { s with promises })

/-- The description of a promise. -/
def describe (s : Scene) (p : Id) : String :=
  "Promise \x7b settled: " ++ toString (s.promises.isSettled p) ++ ", .. \x7d"

/-- Carries out a step. Returns its answer and what it sets off. -/
def step (s : Scene) : Step → Reply × List Action × Scene
  | .new | .newDefault =>
    let (n, s) := s.addPromise (.pending [])
    (.number n, [], s)
  | .resolved v =>
    let (n, s) := s.addPromise (.settled (.ok v))
    (.number n, [], s)
  | .rejected e =>
    let (n, s) := s.addPromise (.settled (.error e))
    (.number n, [], s)
  | .clone p =>
    match s.id? p with
    | none => (.nothing, [], s)
    | some id =>
      let (n, s) := s.addHandle id
      (.number n, [], s)
  | .map p summand =>
    match s.id? p with
    | none => (.nothing, [], s)
    | some id =>
      let (target, promises) := s.promises.new
      let (n, s) := { s with promises }.addHandle target
      let (actions, s) := s.register id (.doubling target summand)
      (.number n, actions, s)
  | .resolve p v =>
    match s.id? p with
    | none => (.nothing, [], s)
    | some id =>
      let (took, actions, s) := s.settle id (.ok v)
      (if took then .settled else .already, actions, s)
  | .reject p e =>
    match s.id? p with
    | none => (.nothing, [], s)
    | some id =>
      let (took, actions, s) := s.settle id (.error e)
      (if took then .settled else .refused, actions, s)
  | .read p => (.outcome (s.outcome? p), [], s)
  | .isSettled p => (.flag (s.outcome? p).isSome, [], s)
  | .same p q => (.flag (s.id? p == s.id? q), [], s)
  | .describe p =>
    (match s.id? p with
      | some id => .text (s.describe id)
      | none => .nothing, [], s)
  | .onSettled p label steps =>
    match s.id? p with
    | none => (.nothing, [], s)
    | some id =>
      let (actions, s) := s.register id (.program label steps)
      (.nothing, actions, s)
  | .token => (.number s.tokens.length, [], { s with tokens := s.tokens ++ [false] })
  | .cancel token =>
    let waiters := s.waitingFor fun
      | .waiting _ _ _ (some t) => t = token ∧ t < s.tokens.length
      | _ => false
    (.nothing, [], { s with
      tokens := s.tokens.set token true
      schedule := s.schedule.wakeAll waiters })
  | .waiter p label limit token =>
    match s.id? p with
    | none => (.nothing, [], s)
    | some id => (.nothing, [], s.spawn (.waiterFresh id label limit token))
  | .later ms steps => (.nothing, [], s.spawn (.laterFresh ms steps))

/-- Does one action. Returns what it sets off. -/
def act (s : Scene) : Action → List Action × Scene
  | .perform origin step =>
    let (reply, actions, s) := s.step step
    (actions ++ [.note origin step reply], s)
  | .resume (.program label steps) o =>
    (steps.map (.perform (.continuation label)),
      { s with entries := .ran label o s.schedule.now :: s.entries })
  | .resume (.doubling target summand) o =>
    let (_, actions, s) := s.settle target (o.map fun v => 2 * v + summand)
    (actions, s)
  | .note .script _ reply => ([], { s with reply })
  | .note (.continuation label) step reply =>
    ([], { s with entries := .did label step reply :: s.entries })
  | .note .later step reply =>
    ([], { s with entries := .later step reply s.schedule.now :: s.entries })

/-- Works through an agenda, with a bound on the number of actions. -/
def runAgenda : Nat → List Action → Scene → Scene
  | 0, _, s => s
  | _, [], s => s
  | fuel + 1, a :: rest, s =>
    let (first, s) := s.act a
    runAgenda fuel (first ++ rest) s

/-- How much the continuations may lead to that wait for promises. -/
def pendingSize (s : Scene) : Nat :=
  s.promises.cells.foldl (fun n cell =>
    match cell with
    | .pending ks => ks.foldl (fun n k => n + k.size) n
    | .settled _ => n) 0

/-- Works through an agenda to its end. -/
def run (s : Scene) (agenda : List Action) : Scene :=
  runAgenda (agenda.foldl (fun n a => n + a.size) s.pendingSize + 1) agenda s

/-- Carries out a step of the script. -/
def perform (s : Scene) (step : Step) : Scene := s.run [.perform .script step]

end Scene

end ConsensusLink.Promise
