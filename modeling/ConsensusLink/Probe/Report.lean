import ConsensusLink.Client.Time
import ConsensusLink.Probe.Arguments
/-!
# The reports of the probe

`Client.report` carries a command out: it makes the requests of the command one after the other,
waits for each for a limited time, and puts the answers together. The first request that fails
fails the command, but to be told that another node holds the lease is an answer.
-/

namespace ConsensusLink

namespace Probe

/-- What a command finds out. -/
inductive Report where
  /-- The counts and diagnostics of the node. -/
  | status (finalized safe target : MessageIndex) (progress : ProgressMap)
  /-- A batch, its size in bytes and its base layer block. -/
  | batch (number : BatchNumber) (size : Nat) (block : BlockHeight)
  /-- The batch that contains a message. -/
  | message (index : MessageIndex) (batch : BatchNumber)
  /-- Whether the lease is held. -/
  | lease (isHeld : Bool)

/-- The JSON form of a report. -/
def Report.toJson : Report → Json
  | status finalized safe target progress =>
    .object [("finalizedMsgCount", .word finalized.word), ("safeMsgCount", .word safe.word),
      ("syncTargetMessageCount", .word target.word), ("syncProgress", .object progress)]
  | batch number size block =>
    .object [("batch", .word number.word), ("sizeBytes", .nat size), ("l1Block", .word block.word)]
  | message index number =>
    .object [("message", .word index.word), ("batch", .word number.word)]
  | lease isHeld => .object [("chosenSequencer", .bool isHeld)]

end Probe

namespace Client

open Promise Probe

variable {σ φ : Type}

/-- The failure of a request that is answered with a value of another kind, which none is. -/
def strangeAnswer : Failure := .internal "an answer of another kind"

/-- Makes a request and waits for its answer. -/
def ask {α : Type} (c : Client σ φ) (request : Client σ φ → Id × Client σ φ)
    (read : Answer → Option α) (limit : Nat) : Outcome α × Client σ φ :=
  let (p, c) := request c
  match c.await p limit with
  | (.error e, c) => (.error e, c)
  | (.ok a, c) =>
    match read a with
    | some v => (.ok v, c)
    | none => (.error strangeAnswer, c)

/-- The count that an answer is. -/
def countOf? : Answer → Option MessageIndex
  | .count n => some n
  | _ => none

/-- Asks for a count. -/
def askCount (c : Client σ φ) (counter : Counter) (limit : Nat) :
    Outcome MessageIndex × Client σ φ :=
  c.ask (·.count counter) countOf? limit

/-- Asks for the counts, lowest first, and the diagnostics. -/
def reportStatus (c : Client σ φ) (limit : Nat) : Outcome Report × Client σ φ :=
  match c.askCount .finalized limit with
  | (.error e, c) => (.error e, c)
  | (.ok finalized, c) =>
    match c.askCount .safe limit with
    | (.error e, c) => (.error e, c)
    | (.ok safe, c) =>
      match c.askCount .syncTarget limit with
      | (.error e, c) => (.error e, c)
      | (.ok target, c) =>
        let progress? : Answer → Option ProgressMap
          | .progress m => some m
          | _ => none
        let (o, c) := c.ask (·.progressMap) progress? limit
        (o.map (.status finalized safe target), c)

/-- Asks for a batch and then for its base layer block. -/
def reportBatch (c : Client σ φ) (n : BatchNumber) (limit : Nat) : Outcome Report × Client σ φ :=
  let batch? : Answer → Option Batch
    | .batch b => some b
    | _ => none
  let block? : Answer → Option BlockHeight
    | .block h => some h
    | _ => none
  match c.ask (·.fetchBatch n) batch? limit with
  | (.error e, c) => (.error e, c)
  | (.ok b, c) =>
    let (o, c) := c.ask (·.batchBlock n) block? limit
    (o.map (.batch n b.length), c)

/-- Asks for the batch that contains a message. -/
def reportMessage (c : Client σ φ) (m : MessageIndex) (limit : Nat) :
    Outcome Report × Client σ φ :=
  let number? : Answer → Option BatchNumber
    | .batchNumber n => some n
    | _ => none
  let (o, c) := c.ask (·.findBatch m) number? limit
  (o.map (.message m), c)

/-- Asks whether the lease is held. -/
def reportLease (c : Client σ φ) (limit : Nat) : Outcome Report × Client σ φ :=
  match c.ask (·.probe) (fun _ => some ()) limit with
  | (.ok (), c) => (.ok (.lease true), c)
  | (.error .notChosenSequencer, c) => (.ok (.lease false), c)
  | (.error e, c) => (.error e, c)

/-- Carries a command out, waiting for each answer for a limited time, in milliseconds. -/
def report (c : Client σ φ) (command : Command) (limit : Nat) : Outcome Report × Client σ φ :=
  match command with
  | .status => c.reportStatus limit
  | .batch n => c.reportBatch ⟨n⟩ limit
  | .message m => c.reportMessage ⟨m⟩ limit
  | .lease => c.reportLease limit

end Client

end ConsensusLink
