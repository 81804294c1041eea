/-!
# Whose turn it is

A `Schedule` holds the clock of a single thread of work: the tasks that are ready, in the order in
which they became ready, and the alarms that make tasks ready later. Time moves only from alarm to
alarm. Alarms for the same moment go off in the order in which they were set.
-/

namespace ConsensusLink

/-- What an alarm is for. A task has at most one of each. -/
inductive AlarmSlot where
  /-- The end of a pause or of a call. -/
  | pause
  /-- The moment at which something is given up. -/
  | deadline
deriving DecidableEq, Inhabited, Repr

/-- An alarm. -/
structure Alarm (τ : Type) where
  /-- When it goes off, in milliseconds. -/
  time : Nat
  /-- Whom it makes ready. -/
  owner : τ
  /-- What it is for. -/
  slot : AlarmSlot
deriving DecidableEq, Inhabited, Repr

/-- The clock, the tasks that are ready and the alarms. -/
structure Schedule (τ : Type) where
  /-- The time in milliseconds. -/
  now : Nat := 0
  /-- The tasks that are ready, next one first. -/
  ready : List τ := []
  /-- The alarms, next one first. -/
  alarms : List (Alarm τ) := []
deriving Inhabited, Repr

namespace Schedule

variable {τ : Type} [DecidableEq τ]

/-- Makes a task ready, unless it is. -/
def wake (s : Schedule τ) (t : τ) : Schedule τ :=
  if t ∈ s.ready then s else { s with ready := s.ready ++ [t] }

/-- Makes tasks ready, one after the other. -/
def wakeAll (s : Schedule τ) (ts : List τ) : Schedule τ := ts.foldl wake s

/-- Puts an alarm behind all that do not go off later. -/
def insertAlarm (a : Alarm τ) : List (Alarm τ) → List (Alarm τ)
  | [] => [a]
  | b :: rest => if b.time ≤ a.time then b :: insertAlarm a rest else a :: b :: rest

/-- Sets an alarm that goes off after `ms` milliseconds. -/
def setAlarm (s : Schedule τ) (owner : τ) (slot : AlarmSlot) (ms : Nat) : Schedule τ :=
  { s with alarms := insertAlarm ⟨s.now + ms, owner, slot⟩ s.alarms }

/-- Takes all alarms of a task off. -/
def dropAlarms (s : Schedule τ) (owner : τ) : Schedule τ :=
  { s with alarms := s.alarms.filter (·.owner ≠ owner) }

/-- Whether a task has set an alarm that has not gone off. -/
def hasAlarm (s : Schedule τ) (owner : τ) (slot : AlarmSlot) : Bool :=
  s.alarms.any fun a => a.owner = owner ∧ a.slot = slot

/-- When the next alarm goes off. -/
def nextTime? (s : Schedule τ) : Option Nat := s.alarms.head?.map (·.time)

/-- Takes the next task that is ready. -/
def next? (s : Schedule τ) : Option (τ × Schedule τ) :=
  match s.ready with
  | [] => none
  | t :: rest => some (t, { s with ready := rest })

/-- Moves the clock, letting all alarms up to the new time go off. -/
def moveTo (s : Schedule τ) (time : Nat) : Schedule τ :=
  let due := s.alarms.filter (·.time ≤ time)
  let s' := { s with now := time, alarms := s.alarms.filter (time < ·.time) }
  s'.wakeAll (due.map Alarm.owner)

end Schedule

/-- Work whose time passes from alarm to alarm. -/
class Timed (ω : Type) where
  /-- The time in milliseconds. -/
  now : ω → Nat
  /-- When the next alarm goes off. -/
  nextTime? : ω → Option Nat
  /-- Lets everything happen that can happen now. -/
  drain : ω → ω
  /-- Moves the clock, letting all alarms up to the new time go off. -/
  moveTo : ω → Nat → ω

namespace Timed

variable {ω : Type} [Timed ω]

/-- Lets time pass up to a moment, whose alarms go off; but whoever they make ready does not have
his turn yet. Stops earlier when `stop` holds. Without a moment time passes while there are
alarms. The first argument bounds the number of moments on the way. -/
def passWithin : Nat → (ω → Bool) → Option Nat → ω → ω
  | 0, _, _, w => w
  | fuel + 1, stop, time, w =>
    let w := drain w
    if stop w then w
    else
      match nextTime? w, time with
      | some next, some time =>
        if next < time then passWithin fuel stop (some time) (moveTo w next) else moveTo w time
      | some next, none => passWithin fuel stop none (moveTo w next)
      | none, some time => moveTo w time
      | none, none => w

/-- Lets time pass up to a moment, unless `stop` holds earlier. -/
def passUntil (w : ω) (stop : ω → Bool) (time : Nat) : ω :=
  passWithin (time - now w + 1) stop (some time) w

/-- Lets a number of milliseconds pass, and then everything happen that can happen. -/
def advance (w : ω) (ms : Nat) : ω := drain (passUntil w (fun _ => false) (now w + ms))

end Timed

end ConsensusLink
