/-!
# Strings of bytes

Strings of bytes of any length and of a fixed length.
-/

namespace ConsensusLink

/-- A string of bytes. -/
abbrev Bytes := List UInt8

/-- A string of exactly `n` bytes. -/
structure FixedBytes (n : Nat) where
  /-- The bytes. -/
  bytes : Bytes
  length_eq : bytes.length = n
deriving DecidableEq

namespace FixedBytes

/-- The bytes as a string of `n` bytes, if there are as many. -/
def ofBytes? (n : Nat) (bytes : Bytes) : Option (FixedBytes n) :=
  if h : bytes.length = n then some ⟨bytes, h⟩ else none

@[simp] theorem ofBytes?_bytes {n : Nat} (b : FixedBytes n) : ofBytes? n b.bytes = some b := by
  cases b with | mk bytes h => simp [ofBytes?, h]

/-- `n` times the same byte. -/
def replicate (n : Nat) (b : UInt8) : FixedBytes n := ⟨List.replicate n b, List.length_replicate⟩

end FixedBytes

/-- The eight bytes of a word, highest first. -/
def bigEndian (w : UInt64) : Bytes :=
  [56, 48, 40, 32, 24, 16, 8, 0].map fun s : UInt64 => (w >>> s).toUInt8

end ConsensusLink
