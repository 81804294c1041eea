import ConsensusLink.Failure
/-!
# What was observed of the counts

`Observations` remembers the counts that were observed in the current session, and checks new
answers against them. Issuing a query and recording its answer both advance one logical clock. The
node takes its answer somewhere between the two, so a recorded value bounds the answer of another
query only if it was recorded before that query was issued.
-/

namespace ConsensusLink

/-- Names a query by its session and by the moment at which it was issued. -/
structure Ticket where
  /-- The session of the query. -/
  session : Nat
  /-- The clock when it was issued. -/
  issued : Nat
deriving DecidableEq, Inhabited, Repr

/-- A count as it was observed. -/
structure Observation where
  /-- The count. -/
  value : MessageIndex
  /-- The time at which it was recorded, in milliseconds. -/
  time : Nat
  /-- The clock when its query was issued. -/
  issued : Nat
  /-- The clock when it was recorded. -/
  recorded : Nat
deriving DecidableEq, Inhabited, Repr

/-- Whether a value was recorded before a query was issued. -/
def Observation.precedes (o : Observation) (issued : Nat) : Bool := o.recorded < issued

/-- The counts observed in the current session. -/
structure Observations where
  /-- The latest observation of each count. -/
  latest : PerCounter (Option Observation) := .const none
  /-- The number of the current session. -/
  session : Nat := 0
  /-- How many queries were issued and answers recorded. -/
  clock : Nat := 0
deriving DecidableEq, Inhabited, Repr

namespace Observations

/-- Forgets what was observed. Queries that are under way will not be recorded. -/
def newSession (s : Observations) : Observations :=
  { s with latest := .const none, session := s.session + 1 }

/-- The ticket of a new query. -/
def issue (s : Observations) : Ticket × Observations :=
  (⟨s.session, s.clock + 1⟩, { s with clock := s.clock + 1 })

/-- The count last recorded. -/
def value? (s : Observations) (c : Counter) : Option MessageIndex := (s.latest.get c).map (·.value)

/-- The three counts, if each was observed and none is below one that it dominates. Answers of
queries that overlap may leave counts that were never true at once; these are withheld. -/
def counts? (s : Observations) : Option MessageCounts := do
  let t : MessageCounts := ⟨← s.value? .finalized, ← s.value? .safe, ← s.value? .syncTarget⟩
  if t.isOrdered then some t else none

/-- Whether an observation of one count agrees with an observation of another. -/
def agrees (c : Counter) (o : Observation) (d : Counter) (other : Observation) : Bool :=
  if d.rank < c.rank then other.value ≤ o.value else o.value ≤ other.value

/-- The count that may be served without a query: it must be younger than `ttl` and agree with
every observation of the other counts that was not recorded before its query was issued. -/
def cached? (s : Observations) (c : Counter) (now ttl : Nat) : Option MessageIndex := do
  let o ← s.latest.get c
  if ttl ≤ now - o.time then none
  else
    let consistent := (Counter.all.filter (· ≠ c)).all fun d =>
      match s.latest.get d with
      | some other => other.precedes o.issued || agrees c o d other
      | none => true
    if consistent then some o.value else none

/-- The first of the dominated counts that was recorded before the query was issued and is above
the answer. -/
def bound? (s : Observations) (c : Counter) (value : MessageIndex) (issued : Nat) :
    Option (Counter × MessageIndex) :=
  c.dominated.findSome? fun d => do
    let o ← s.latest.get d
    if o.precedes issued ∧ value < o.value then some (d, o.value) else none

/-- Checks the answer of a query and records it. The answer of a query of an earlier session is
not recorded. -/
def observe (s : Observations) (c : Counter) (value : MessageIndex) (ticket : Ticket) (now : Nat) :
    Outcome Bool × Observations :=
  if ticket.session ≠ s.session then (.ok false, s)
  else
    match s.value? c with
    | some previous =>
      if value < previous then (.error (.nonMonotonic c previous value), s) else check
    | none => check
where
  /-- The rest of the check, once the answer is not below the one before. -/
  check : Outcome Bool × Observations :=
    match s.bound? c value ticket.issued with
    | some (d, bound) => (.error (.orderViolation c value d bound), s)
    | none =>
      let o : Observation := ⟨value, now, ticket.issued, s.clock + 1⟩
      (.ok true, { s with latest := s.latest.set c (some o), clock := s.clock + 1 })

end Observations

end ConsensusLink
