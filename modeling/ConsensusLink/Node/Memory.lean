import ConsensusLink.Node.Call
/-!
# A consensus node in memory

A `MemoryNode` keeps batches, counts, diagnostics, a lease and a message log. Writes follow the
contract of a real node: the lease is checked first; an identical write at an accepted position
succeeds again and a different one conflicts; only the position right after the log is appended.
It can be told to fail calls, to apply writes without acknowledging them, and to take its time.
-/

namespace ConsensusLink

/-- A batch with what is known of it. -/
structure StoredBatch where
  /-- The payload. -/
  data : Batch
  /-- The base layer block. -/
  block : BlockHeight
  /-- The first message of the batch. -/
  first : MessageIndex
  /-- How many messages it contains. -/
  count : UInt64

/-- The position after the messages of a batch. -/
def StoredBatch.stop (b : StoredBatch) : MessageIndex := ⟨b.first.word + b.count⟩

/-- Whether a batch contains a message. -/
def StoredBatch.contains (b : StoredBatch) (m : MessageIndex) : Bool := b.first ≤ m ∧ m < b.stop

/-- A number for each kind of call. -/
abbrev Tally := List (CallKind × Nat)

namespace Tally

/-- The number of a kind. -/
def get (t : Tally) (k : CallKind) : Nat := (t.lookup k).getD 0

/-- Replaces the number of a kind. -/
def set (t : Tally) (k : CallKind) (n : Nat) : Tally := (k, n) :: t.filter (·.1 ≠ k)

/-- Adds to the number of a kind. -/
def add (t : Tally) (k : CallKind) (n : Nat) : Tally := t.set k (t.get k + n)

@[simp] theorem get_set_self (t : Tally) (k : CallKind) (n : Nat) : (t.set k n).get k = n := by
  simp [get, set]

end Tally

/-- A consensus node in memory. -/
structure MemoryNode where
  /-- The batches, oldest first. -/
  batches : List StoredBatch := []
  /-- The message counts. -/
  counts : MessageCounts := .const (.ofNat 0)
  /-- The diagnostics. -/
  progress : ProgressMap := []
  /-- Whether the caller holds the lease. -/
  leaseHeld : Bool := false
  /-- The message log. -/
  log : List Message := []
  /-- How many further calls of each kind fail. -/
  failures : Tally := []
  /-- How many further writes are applied without being acknowledged. -/
  lostAcks : Nat := 0
  /-- How many calls of each kind were made. -/
  calls : Tally := []
  /-- How long each call takes, in milliseconds. -/
  latency : Nat := 0
deriving Inhabited

namespace MemoryNode

/-- Appends a batch with the next messages. -/
def pushBatch (n : MemoryNode) (data : Batch) (block : BlockHeight) (count : UInt64) :
    BatchNumber × MemoryNode :=
  let first := match n.batches.getLast? with
    | some b => b.stop
    | none => .ofNat 0
  (.ofNat n.batches.length, { n with batches := n.batches ++ [⟨data, block, first, count⟩] })

/-- Lets the next calls of a kind fail. -/
def failNext (n : MemoryNode) (k : CallKind) (times : Nat) : MemoryNode :=
  { n with failures := n.failures.add k times }

/-- Applies the next writes without acknowledging them. -/
def loseAcks (n : MemoryNode) (times : Nat) : MemoryNode :=
  { n with lostAcks := n.lostAcks + times }

/-- Appends sample messages to the log, as if another sequencer had written them. -/
def seedLog (n : MemoryNode) (count : Nat) : MemoryNode :=
  { n with
    log := n.log ++ (List.range count).map fun i => .sample (UInt64.ofNat (n.log.length + i)) }

/-- Notes that a call is made. -/
def arrive (n : MemoryNode) (k : CallKind) : MemoryNode := { n with calls := n.calls.add k 1 }

/-- Applies a write to the log. -/
def applyWrite (n : MemoryNode) (pos : MessageIndex) (msg : Message) :
    Outcome Unit × MemoryNode :=
  if !n.leaseHeld then (.error .notChosenSequencer, n)
  else
    match n.log[pos.toNat]? with
    | some logged =>
      if logged = msg then acknowledge n else (.error (.conflictingWrite pos), n)
    | none =>
      if pos.toNat = n.log.length then acknowledge { n with log := n.log ++ [msg] }
      else (.error (.outOfOrder (some (.ofNat n.log.length)) pos), n)
where
  /-- Acknowledges a write, unless acknowledgements are being lost. -/
  acknowledge (n : MemoryNode) : Outcome Unit × MemoryNode :=
    if 0 < n.lostAcks then
      (.error (.transport "write response lost"), { n with lostAcks := n.lostAcks - 1 })
    else (.ok (), n)

/-- What a call finds when it does not fail. -/
def serve (n : MemoryNode) : Call → Outcome Answer × MemoryNode
  | .fetchBatch b =>
    (match n.batches[b.toNat]? with
      | some stored => .ok (.batch stored.data)
      | none => .error (.notYetAvailable (.batch b)), n)
  | .findBatch m =>
    (match n.batches.findIdx? (·.contains m) with
      | some i => .ok (.batchNumber (.ofNat i))
      | none => .error (.notYetAvailable (.messageBatch m)), n)
  | .batchBlock b =>
    (match n.batches[b.toNat]? with
      | some stored => .ok (.block stored.block)
      | none => .error (.notYetAvailable (.batchBlock b)), n)
  | .progressMap => (.ok (.progress n.progress), n)
  | .count c => (.ok (.count (n.counts.get c)), n)
  | .write pos msg =>
    let (r, n) := n.applyWrite pos msg
    (r.map fun _ => .done, n)
  | .probe => (if n.leaseHeld then .ok .done else .error .notChosenSequencer, n)

/-- Answers a call that has taken its time: it fails if calls of its kind are to fail. -/
def answer (n : MemoryNode) (c : Call) : Outcome Answer × MemoryNode :=
  match n.failures.get c.kind with
  | 0 => n.serve c
  | k + 1 =>
    (.error (.transport ("injected " ++ c.kind.label ++ " failure")),
      { n with failures := n.failures.set c.kind k })

end MemoryNode

end ConsensusLink
