import ConsensusLink.Bytes
/-!
# Sequenced messages and batches

A message as the sequencer hands it over, with the position of the delayed inbox that it was
sequenced at, and the opaque payload of a batch. Messages are compared by value: this is what
decides whether a repeated write is the same write.
-/

namespace ConsensusLink

/-- The number of words of 128 bits. -/
abbrev wideSize : Nat := 0x100000000000000000000000000000000

/-- The header of a message delivered to the execution layer. -/
structure MessageHeader where
  /-- What the message is. -/
  kind : UInt8
  /-- The address of the account that posted the message. -/
  poster : FixedBytes 20
  /-- The height of the base layer block that the message refers to. -/
  blockNumber : UInt64
  /-- The time of the message. -/
  timestamp : UInt64
  /-- The hash that names the request behind the message, if there is one. -/
  requestId : Option (FixedBytes 32)
  /-- The base fee of the base layer, if known. -/
  baseFee : Option (Fin wideSize)
deriving DecidableEq

/-- A message together with the delayed inbox position that it was sequenced at. -/
structure Message where
  /-- The header. -/
  header : MessageHeader
  /-- The payload. -/
  payload : Bytes
  /-- How many messages of the delayed inbox were read. -/
  delayedRead : UInt64
deriving DecidableEq

/-- The payload of a batch as posted to the base layer. -/
structure Batch where
  /-- The bytes of the payload. -/
  bytes : Bytes
deriving DecidableEq, Inhabited

namespace Batch

/-- The number of bytes of a batch. -/
def length (b : Batch) : Nat := b.bytes.length

/-- Whether a batch has no bytes. -/
def isEmpty (b : Batch) : Bool := b.bytes.isEmpty

/-- The batch without bytes. -/
def empty : Batch := ⟨[]⟩

end Batch

/-- A message whose content is fixed by a number, for filling a log. -/
def Message.sample (n : UInt64) : Message where
  header := {
    kind := 3
    poster := .replicate 20 0xab
    blockNumber := 1000 + n
    timestamp := 1700000000 + n
    requestId := none
    baseFee := some 1000000000 }
  payload := bigEndian n
  delayedRead := n

end ConsensusLink
