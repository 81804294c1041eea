import ConsensusLink.Counter
/-!
# What can go wrong

Every operation of the client ends with a value or with one of the causes below. A cause has one
wording, `Failure.message`, and one class, `Failure.kind`, on which callers branch: a failure is
tried again only when it is transient, and a sequencer stops when authority or order is in doubt.
-/

namespace ConsensusLink

/-- Something that the consensus node may not have produced or learned yet. -/
inductive Resource where
  /-- A batch. -/
  | batch (number : BatchNumber)
  /-- The base layer block of a batch. -/
  | batchBlock (number : BatchNumber)
  /-- The batch that contains a message. -/
  | messageBatch (message : MessageIndex)
deriving DecidableEq, Inhabited, Repr

/-- The resource in words. -/
def Resource.describe : Resource → String
  | .batch n => "batch " ++ toString n
  | .batchBlock n => "l1 block of batch " ++ toString n
  | .messageBatch m => "batch containing message " ++ toString m

/-- The classes of failures that callers branch on. -/
inductive FailureKind where
  /-- Worth trying again later: nothing was decided. -/
  | transient
  /-- The data does not exist yet, but may appear. -/
  | notYetAvailable
  /-- The same request will not succeed. -/
  | permanent
  /-- The node contradicted itself, or the caller broke the rules of order. -/
  | protocolViolation
  /-- This node is not, or may no longer be, the chosen sequencer. -/
  | authorityLoss
  /-- The waiter gave up. -/
  | cancelled
deriving DecidableEq, Inhabited, Repr

/-- The causes for which an operation fails. -/
inductive Failure where
  /-- The node could not be reached, or could not reach what it depends on. -/
  | transport (reason : String)
  /-- No answer came in time. -/
  | timeout
  /-- Too many requests are waiting. -/
  | overloaded
  /-- The node does not have the resource yet. -/
  | notYetAvailable (resource : Resource)
  /-- A batch could not be read in all attempts. -/
  | batchUnavailable (batch : BatchNumber) (reason : String)
  /-- A lookup could not be made in all attempts. -/
  | lookupUnavailable (resource : Resource) (reason : String)
  /-- The log holds another message at the position. -/
  | conflictingWrite (pos : MessageIndex)
  /-- A count was reported below its earlier value. -/
  | nonMonotonic (counter : Counter) (previous observed : MessageIndex)
  /-- A count was reported below a count that it dominates. -/
  | orderViolation (counter : Counter) (observed : MessageIndex) (boundCounter : Counter)
      (bound : MessageIndex)
  /-- The position is not the one that the log accepts next, which is `expected` when known. -/
  | outOfOrder (expected : Option MessageIndex) (got : MessageIndex)
  /-- Another node holds the lease. -/
  | notChosenSequencer
  /-- Nothing is written before the lease is confirmed. -/
  | probeRequired
  /-- A write may or may not have been applied. -/
  | outcomeUnknown (pos : MessageIndex)
  /-- The waiter gave up. -/
  | cancelled
  /-- The client is shut down. -/
  | shutDown
  /-- A defect of the client or of what it was sent. -/
  | internal (reason : String)
deriving DecidableEq, Inhabited, Repr

namespace Failure

/-- The wording of a failure. -/
def message : Failure → String
  | transport reason => "transport: " ++ reason
  | timeout => "request timed out"
  | overloaded => "request queue is full"
  | notYetAvailable resource => resource.describe ++ " is not yet available"
  | batchUnavailable batch reason => "batch " ++ toString batch ++ " unavailable: " ++ reason
  | lookupUnavailable resource reason => resource.describe ++ " lookup unavailable: " ++ reason
  | conflictingWrite pos => "conflicting write at position " ++ toString pos
  | nonMonotonic counter previous observed =>
    counter.name ++ " count went backwards from " ++ toString previous ++ " to " ++
      toString observed
  | orderViolation counter observed boundCounter bound =>
    counter.name ++ " count " ++ toString observed ++ " is below the observed " ++
      boundCounter.name ++ " count " ++ toString bound
  | outOfOrder expected got =>
    "out of order write at position " ++ toString got ++
      match expected with
      | some pos => " (expected " ++ toString pos ++ ")"
      | none => ""
  | notChosenSequencer => "not the chosen sequencer"
  | probeRequired => "lease must be confirmed with expect_chosen_sequencer before writing"
  | outcomeUnknown pos => "outcome of write at position " ++ toString pos ++ " is unknown"
  | cancelled => "wait cancelled"
  | shutDown => "consensus client is shut down"
  | internal reason => "internal: " ++ reason

/-- The class of a failure. -/
def kind : Failure → FailureKind
  | transport _ | timeout | overloaded => .transient
  | notYetAvailable _ => .notYetAvailable
  | batchUnavailable .. | lookupUnavailable .. | conflictingWrite _ | shutDown | internal _ =>
    .permanent
  | nonMonotonic .. | orderViolation .. | outOfOrder .. => .protocolViolation
  | notChosenSequencer | probeRequired | outcomeUnknown _ => .authorityLoss
  | cancelled => .cancelled

/-- Whether the same request may succeed when it is simply made again. -/
def isTransient (f : Failure) : Bool := f.kind = .transient

/-- Whether the caller must stop sequencing until the lease is confirmed again. -/
def isFatalForSequencing (f : Failure) : Bool :=
  f.kind = .authorityLoss ∨ f.kind = .protocolViolation

theorem isTransient_iff (f : Failure) :
    f.isTransient = true ↔ (∃ r, f = transport r) ∨ f = timeout ∨ f = overloaded := by
  cases f <;> simp [isTransient, kind]

end Failure

/-- What an operation ends with. -/
abbrev Outcome (α : Type) := Except Failure α

end ConsensusLink
