/-!
# Delays that grow

A `Pace` says how long to wait between attempts: a first delay, and which delay follows on which. At
the pace of a `Backoff` the delay starts at a base and is multiplied after every attempt by a
fraction, rounded down, but never exceeds a maximum. All of it is arithmetic of 64-bit words: a
product that does not fit counts as the largest word.
-/

namespace ConsensusLink

/-- How long to wait before each further attempt, in milliseconds. -/
structure Pace where
  /-- The delay before the second attempt. -/
  first : UInt64
  /-- The delay that follows on a given one. -/
  next : UInt64 → UInt64

/-- The delay that is reached after `n` steps. -/
def Pace.delay (p : Pace) : Nat → UInt64
  | 0 => p.first
  | n + 1 => p.next (p.delay n)

/-- How delays grow: each is `multiplier / divisor` times the one before. -/
structure Backoff where
  /-- The first delay in milliseconds, unless it exceeds the maximum. -/
  base : UInt64
  /-- What a delay is multiplied by. -/
  multiplier : UInt64
  /-- What the product is divided by. -/
  divisor : UInt64
  /-- The longest delay in milliseconds. -/
  maximum : UInt64
  divisor_ne_zero : divisor ≠ 0
deriving DecidableEq

/-- The product of two words, or the largest word if it does not fit. -/
def saturatingMul (a b : UInt64) : UInt64 :=
  if a.toNat * b.toNat < UInt64.size then a * b else UInt64.ofNat (UInt64.size - 1)

theorem toNat_saturatingMul (a b : UInt64) :
    (saturatingMul a b).toNat = min (a.toNat * b.toNat) (UInt64.size - 1) := by
  unfold saturatingMul
  split
  · rename_i h
    rw [UInt64.toNat_mul, Nat.mod_eq_of_lt h]
    omega
  · rename_i h
    have : (UInt64.ofNat (UInt64.size - 1)).toNat = UInt64.size - 1 := by decide
    omega

namespace Backoff

/-- The longest delay when none is given, in milliseconds. -/
def defaultMaximum : UInt64 := 30000

/-- Delays that grow by `multiplier / divisor`, if the divisor is not zero. -/
def ofFraction? (base multiplier divisor : UInt64) : Option Backoff :=
  if h : divisor ≠ 0 then some ⟨base, multiplier, divisor, defaultMaximum, h⟩ else none

/-- What is said when the divisor is zero. -/
def zeroDivisorMessage : String := "backoff multiplier base must be non-zero"

/-- The same growth with another maximum. -/
def withMaximum (b : Backoff) (maximum : UInt64) : Backoff := { b with maximum }

/-- A second and a half, growing by half. -/
def standard : Backoff := ⟨1500, 15, 10, defaultMaximum, by decide⟩

/-- The first delay. -/
def first (b : Backoff) : UInt64 := min b.base b.maximum

/-- The delay after a given one. -/
def next (b : Backoff) (delay : UInt64) : UInt64 :=
  min (saturatingMul delay b.multiplier / b.divisor) b.maximum

/-- The pace of the growth. -/
def pace (b : Backoff) : Pace := ⟨b.first, b.next⟩

instance : Coe Backoff Pace := ⟨pace⟩

@[simp] theorem pace_delay_zero (b : Backoff) : b.pace.delay 0 = b.first := rfl

@[simp] theorem pace_delay_succ (b : Backoff) (n : Nat) :
    b.pace.delay (n + 1) = b.next (b.pace.delay n) := rfl

/-- The first `n + 1` delays. -/
def delays (b : Backoff) (n : Nat) : List UInt64 := (List.range (n + 1)).map b.pace.delay

end Backoff

end ConsensusLink
