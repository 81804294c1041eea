import ConsensusLink.Progress.Observations
import ConsensusLink.Promise.Store
/-!
# Counts, queries and the finality mark

A `Tracker` adds to the observations the query of each count that is under way, so that a count is
asked for once at a time, and the finality mark: the finalized count as last observed, absent until
it is observed in the current session. Who watches the mark is told of every change; a new session
tells them even if there was no mark.
-/

namespace ConsensusLink

open Promise

/-- The state of count queries. -/
structure Tracker where
  /-- What was observed. -/
  observations : Observations := {}
  /-- The query of each count that is under way. -/
  inFlight : PerCounter (Option Id) := .const none
  /-- The finality mark. -/
  finality : Option MessageIndex := none
  /-- How often the watchers of the mark were told. -/
  finalityVersion : Nat := 0
deriving DecidableEq, Inhabited, Repr

namespace Tracker

/-- Forgets the observations and the queries under way, which will not be recorded. -/
def forget (t : Tracker) : Tracker :=
  { t with observations := t.observations.newSession, inFlight := .const none }

/-- Takes the finality mark away and tells its watchers. -/
def clearFinality (t : Tracker) : Tracker :=
  { t with finality := none, finalityVersion := t.finalityVersion + 1 }

/-- Starts a new session. -/
def newSession (t : Tracker) : Tracker := t.forget.clearFinality

/-- The query of a count that is under way. -/
def pending? (t : Tracker) (c : Counter) : Option Id := t.inFlight.get c

/-- Notes the query of a count. -/
def setPending (t : Tracker) (c : Counter) (p : Id) : Tracker :=
  { t with inFlight := t.inFlight.set c (some p) }

/-- Forgets the query of a count, if it is still the given one. -/
def clearPending (t : Tracker) (c : Counter) (p : Id) : Tracker :=
  if t.pending? c = some p then { t with inFlight := t.inFlight.set c none } else t

/-- The ticket of a new query. -/
def issue (t : Tracker) : Ticket × Tracker :=
  let (ticket, observations) := t.observations.issue
  (ticket, { t with observations })

/-- Checks and records the answer of a query. -/
def observe (t : Tracker) (c : Counter) (value : MessageIndex) (ticket : Ticket) (now : Nat) :
    Outcome Bool × Tracker :=
  let (r, observations) := t.observations.observe c value ticket now
  (r, { t with observations })

/-- Moves the finality mark to a value that was recorded, and tells its watchers if it moved. -/
def publish (t : Tracker) (value : MessageIndex) : Tracker :=
  if t.finality = some value then t
  else { t with finality := some value, finalityVersion := t.finalityVersion + 1 }

/-- What a query does with its answer: it is checked, recorded and, if it is the finalized count
of this session, published. The answer is handed on even if it comes from an earlier session. -/
def answer (t : Tracker) (c : Counter) (value : MessageIndex) (ticket : Ticket) (now : Nat) :
    Outcome MessageIndex × Tracker :=
  match t.observe c value ticket now with
  | (.error e, t) => (.error e, t)
  | (.ok recorded, t) =>
    (.ok value, if recorded ∧ c = .finalized then t.publish value else t)

end Tracker

end ConsensusLink
