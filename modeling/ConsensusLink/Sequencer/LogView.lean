import ConsensusLink.Cache.Lru
import ConsensusLink.Failure
import ConsensusLink.Message
/-!
# The coordinator's view of the log

What the coordinator of writes knows of the message log: the last position that was accepted, the
recent writes, and whether the lease must be confirmed before anything else is written. From this
some writes are answered without the node.
-/

namespace ConsensusLink

/-- What is known of the message log. -/
structure LogView where
  /-- The last position known to be accepted. -/
  tail : Option MessageIndex
  /-- Whether the lease must be confirmed before further writes. -/
  probeRequired : Bool
  /-- Accepted writes, by position. -/
  recent : Lru MessageIndex Message
deriving Inhabited

namespace LogView

/-- Nothing is known; room for `capacity` recent writes, one at least. -/
def empty (capacity : Nat) : LogView := ⟨none, false, .empty capacity⟩

/-- Answers a write without the node, where the view allows it: no write passes while the lease
must be confirmed, a recent write is compared with what was accepted, and a position beyond the
next one is refused. A recent write that is compared counts as used. -/
def check (v : LogView) (pos : MessageIndex) (msg : Message) : Option (Outcome Unit) × LogView :=
  if v.probeRequired then (some (.error .probeRequired), v)
  else
    match v.recent.get? pos with
    | some (accepted, recent) =>
      (some (if accepted = msg then .ok () else .error (.conflictingWrite pos)), { v with recent })
    | none =>
      match v.tail with
      | none => (none, v)
      | some tail =>
        (if tail.next < pos then some (.error (.outOfOrder (some tail.next) pos)) else none, v)

/-- Notes an accepted write. -/
def accept (v : LogView) (pos : MessageIndex) (msg : Message) : LogView :=
  { v with
    recent := v.recent.put pos msg
    tail := some (match v.tail with
      | some tail => tail.max pos
      | none => pos) }

/-- Notes the next position that the node reports to accept. -/
def resync (v : LogView) (expected : Option MessageIndex) : LogView :=
  { v with tail := expected.bind MessageIndex.prev? }

/-- Notes that another node holds the lease: nothing of the log is known any more. -/
def loseLease (v : LogView) : LogView := { v with tail := none, recent := v.recent.clear }

/-- Notes that a write may or may not have been applied. -/
def outcomeUnknown (v : LogView) : LogView := { v with tail := none, probeRequired := true }

/-- Notes that the lease is confirmed. -/
def probeConfirmed (v : LogView) : LogView := { v with probeRequired := false }

/-- Notes how a write ended. -/
def afterWrite (v : LogView) (pos : MessageIndex) (msg : Message) : Outcome Unit → LogView
  | .ok () => v.accept pos msg
  | .error .notChosenSequencer => v.loseLease
  | .error (.outOfOrder expected _) => v.resync expected
  | .error (.outcomeUnknown _) => v.outcomeUnknown
  | .error _ => v

/-- Notes how a probe of the lease ended. -/
def afterProbe (v : LogView) : Outcome Unit → LogView
  | .ok () => v.probeConfirmed
  | .error .notChosenSequencer => v.loseLease
  | .error _ => v

end LogView

end ConsensusLink
