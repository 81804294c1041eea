import ConsensusLink.Promise.Program
/-!
# Promises in time

Tasks have their turns in the order in which they become ready; the script itself waits until some
time has passed or a promise is settled. While it waits time moves from alarm to alarm, and it
stops waiting only when all that can happen at the moment has happened.
-/

namespace ConsensusLink.Promise.Scene

/-- What someone who waits for a promise finds now: the outcome if the promise is settled, else
that the token is cancelled, else that the time is up. -/
def find? (s : Scene) (p : Id) (deadline token : Option Nat) : Option (Outcome Int64) :=
  match s.promises.outcome? p with
  | some o => some o
  | none =>
    if token.any s.isCancelled then some (.error .cancelled)
    else if deadline.any (· ≤ s.schedule.now) then some (.error .timeout)
    else none

/-- Replaces a task. -/
def setTask (s : Scene) (i : TaskId) (t : Task) : Scene := { s with tasks := s.tasks.set i t }

/-- Ends a waiting task with what it found. -/
def report (s : Scene) (i : TaskId) (label : String) (o : Outcome Int64) : Scene :=
  let s := s.setTask i .finished
  { s with
    schedule := s.schedule.dropAlarms i
    found := (s.schedule.now, label, o) :: s.found }

/-- Runs a program for a task, which is thereby done. -/
def runLater (s : Scene) (i : TaskId) (steps : List Step) : Scene :=
  (s.setTask i .finished).run (steps.map (.perform .later))

/-- Gives a task its turn. -/
def turn (s : Scene) (i : TaskId) : Scene :=
  match s.tasks[i]? with
  | some (.laterFresh ms steps) =>
    if ms = 0 then s.runLater i steps
    else { s.setTask i (.laterWaiting steps) with schedule := s.schedule.setAlarm i .pause ms }
  | some (.laterWaiting steps) => s.runLater i steps
  | some (.waiterFresh p label limit token) =>
    let deadline := limit.map (s.schedule.now + ·)
    match s.find? p deadline token with
    | some o => s.report i label o
    | none =>
      let s := s.setTask i (.waiting p label deadline token)
      match limit with
      | some ms => { s with schedule := s.schedule.setAlarm i .deadline ms }
      | none => s
  | some (.waiting p label deadline token) =>
    match s.find? p deadline token with
    | some o => s.report i label o
    | none => s
  | some .finished | none => s

/-- Gives turns until nobody is ready, with a bound on their number. -/
def drainWithin : Nat → Scene → Scene
  | 0, s => s
  | fuel + 1, s =>
    match s.schedule.next? with
    | none => s
    | some (i, schedule) => drainWithin fuel ({ s with schedule }.turn i)

/-- How much tasks and continuations may still do. -/
def workLeft (s : Scene) : Nat := s.tasks.foldl (fun n t => n + t.size) s.pendingSize

/-- Lets everything happen that can happen now. -/
def drain (s : Scene) : Scene := drainWithin (s.workLeft + s.schedule.ready.length + 1) s

instance : Timed Scene where
  now s := s.schedule.now
  nextTime? s := s.schedule.nextTime?
  drain := drain
  moveTo s time := { s with schedule := s.schedule.moveTo time }

/-- Waits for a promise. Returns what was found, once all that can happen then has happened. -/
def wait (s : Scene) (p : Id) (limit token : Option Nat) : Option (Outcome Int64) × Scene :=
  let deadline := limit.map (s.schedule.now + ·)
  match s.find? p deadline token with
  | some o => (some o, s.drain)
  | none =>
    let stop (s : Scene) : Bool := (s.find? p none token).isSome
    let s := match deadline with
      | some time => Timed.passUntil s stop time
      | none => Timed.passWithin (s.workLeft + s.schedule.alarms.length + 1) stop none s
    (s.find? p deadline token, s.drain)

end ConsensusLink.Promise.Scene
