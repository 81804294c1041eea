import ConsensusLink.Retry.Config
import Mathlib.Order.MinMax
/-!
# Delays near the largest word

A delay that grows is multiplied first and divided then. A product that does not fit counts as the
largest word, so that no delay after the first exceeds the quotient of the largest word, whatever
the maximum is. This is all that tells the delays from those of exact arithmetic: each is the lesser
of the exact one and this ceiling. If nothing is to be lost, either the maximum has to keep below
the ceiling, or the delays must not grow at all; and a first delay above the ceiling is followed by
a shorter one.
-/

namespace ConsensusLink.Backoff

variable {b : Backoff}

/-- The delay after a given one, in exact arithmetic. -/
def exactNext (b : Backoff) (delay : Nat) : Nat :=
  min b.maximum.toNat (delay * b.multiplier.toNat / b.divisor.toNat)

/-- What the largest word is divided to. -/
def ceiling (b : Backoff) : Nat := (UInt64.size - 1) / b.divisor.toNat

lemma divisor_pos (b : Backoff) : 0 < b.divisor.toNat :=
  Nat.pos_of_ne_zero fun h => b.divisor_ne_zero (UInt64.toNat_inj.1 h)

lemma le_ceiling_iff (n : Nat) : n ≤ b.ceiling ↔ n * b.divisor.toNat < UInt64.size := by
  rw [ceiling, Nat.le_div_iff_mul_le b.divisor_pos]
  have : 0 < UInt64.size := by decide
  omega

/-- A step is exact up to the ceiling. -/
lemma toNat_next (b : Backoff) (d : UInt64) :
    (b.next d).toNat = min (b.exactNext d.toNat) b.ceiling := by
  have hquotient : min (d.toNat * b.multiplier.toNat) (UInt64.size - 1) / b.divisor.toNat =
      min (d.toNat * b.multiplier.toNat / b.divisor.toNat) b.ceiling :=
    Monotone.map_min fun _ _ h => Nat.div_le_div_right h
  rw [next, UInt64.toNat_min, UInt64.toNat_div, toNat_saturatingMul, hquotient, exactNext]
  omega

lemma toNat_next_eq_iff (b : Backoff) (d : UInt64) :
    (b.next d).toNat = b.exactNext d.toNat ↔ b.exactNext d.toNat ≤ b.ceiling := by
  rw [toNat_next, min_eq_left_iff]

lemma exactNext_le_maximum (d : Nat) : b.exactNext d ≤ b.maximum.toNat := min_le_left ..

lemma first_le_maximum (b : Backoff) : b.first.toNat ≤ b.maximum.toNat := by
  rw [first, UInt64.toNat_min]
  exact min_le_right ..

lemma delay_le_maximum (b : Backoff) (n : Nat) : b.pace.delay n ≤ b.maximum := by
  rw [UInt64.le_iff_toNat_le]
  cases n with
  | zero => exact b.first_le_maximum
  | succ n =>
    rw [pace_delay_succ, toNat_next]
    exact (min_le_left ..).trans (exactNext_le_maximum _)

/-- No delay after the first is above the ceiling. -/
lemma delay_succ_le_ceiling (b : Backoff) (n : Nat) :
    (b.pace.delay (n + 1)).toNat ≤ b.ceiling := by
  rw [pace_delay_succ, toNat_next]
  exact min_le_right ..

/-! ## Delays that do not shrink -/

section Growing

variable (h : b.divisor ≤ b.multiplier)
include h

/-- What a delay gains in a step. -/
lemma mul_div_eq (d : Nat) : d * b.multiplier.toNat / b.divisor.toNat =
    d + d * (b.multiplier.toNat - b.divisor.toNat) / b.divisor.toNat := by
  have hsplit : d * b.multiplier.toNat =
      d * (b.multiplier.toNat - b.divisor.toNat) + d * b.divisor.toNat := by
    rw [← Nat.mul_add, Nat.sub_add_cancel (UInt64.le_iff_toNat_le.1 h)]
  rw [hsplit, Nat.add_mul_div_right _ _ b.divisor_pos, Nat.add_comm]

lemma le_exactNext {d : Nat} (hd : d ≤ b.maximum.toNat) : d ≤ b.exactNext d := by
  rw [exactNext, mul_div_eq h]
  exact le_min hd (Nat.le_add_right ..)

/-- The delays never shrink exactly if the first one is not above the ceiling already. -/
lemma delay_le_succ_iff :
    (∀ n, b.pace.delay n ≤ b.pace.delay (n + 1)) ↔ b.first.toNat ≤ b.ceiling := by
  constructor
  · intro hgrows
    exact (UInt64.le_iff_toNat_le.1 (hgrows 0)).trans (b.delay_succ_le_ceiling 0)
  · intro hfirst n
    have hceiling : (b.pace.delay n).toNat ≤ b.ceiling := by
      cases n with
      | zero => exact hfirst
      | succ n => exact b.delay_succ_le_ceiling n
    rw [UInt64.le_iff_toNat_le, pace_delay_succ, toNat_next]
    exact le_min (le_exactNext h (UInt64.le_iff_toNat_le.1 (b.delay_le_maximum n))) hceiling

/-- Delays that start without a gain stay as they are. -/
lemma delay_eq_first (hfirst : b.first.toNat ≤ b.ceiling)
    (hsteady : b.first.toNat * (b.multiplier.toNat - b.divisor.toNat) < b.divisor.toNat) (n : Nat) :
    b.pace.delay n = b.first := by
  induction n with
  | zero => rfl
  | succ n ih =>
    have := b.first_le_maximum
    rw [pace_delay_succ, ih, ← UInt64.toNat_inj, toNat_next, exactNext, mul_div_eq h,
      Nat.div_eq_of_lt hsteady]
    omega

/-- Delays that start with a gain go on to gain, as long as the maximum plays no part. -/
lemma first_add_le_delay
    (hgains : b.divisor.toNat ≤ b.first.toNat * (b.multiplier.toNat - b.divisor.toNat))
    (hexact : ∀ n, (b.pace.delay (n + 1)).toNat =
      (b.pace.delay n).toNat * b.multiplier.toNat / b.divisor.toNat) (n : Nat) :
    b.first.toNat + n ≤ (b.pace.delay n).toNat := by
  induction n with
  | zero => exact le_rfl
  | succ n ih =>
    have hgain : 1 ≤ (b.pace.delay n).toNat * (b.multiplier.toNat - b.divisor.toNat) /
        b.divisor.toNat := by
      rw [Nat.one_le_div_iff b.divisor_pos]
      exact hgains.trans (Nat.mul_le_mul_right _ (by omega))
    rw [hexact, mul_div_eq h]
    omega

/-- All steps are exact exactly if the maximum is not above the ceiling, or the first delay is not
and nothing is ever gained. -/
lemma exact_iff :
    (∀ n, (b.pace.delay (n + 1)).toNat = b.exactNext (b.pace.delay n).toNat) ↔
      b.maximum.toNat ≤ b.ceiling ∨ b.first.toNat ≤ b.ceiling ∧
        b.first.toNat * (b.multiplier.toNat - b.divisor.toNat) < b.divisor.toNat := by
  constructor
  · intro hexact
    by_contra hnot
    obtain ⟨hmaximum, hgains⟩ := not_or.1 hnot
    have hfirst : b.first.toNat ≤ b.ceiling :=
      (le_exactNext h b.first_le_maximum).trans (hexact 0 ▸ b.delay_succ_le_ceiling 0)
    -- the maximum plays no part below the ceiling, so that the delays grow past the ceiling
    have hquotient : ∀ n, (b.pace.delay (n + 1)).toNat =
        (b.pace.delay n).toNat * b.multiplier.toNat / b.divisor.toNat := fun n => by
      have hceiling := b.delay_succ_le_ceiling n
      rw [hexact, exactNext] at hceiling ⊢
      omega
    have hgrows := first_add_le_delay h (not_lt.1 fun hlt => hgains ⟨hfirst, hlt⟩) hquotient
      (b.ceiling + 1)
    have hceiling := b.delay_succ_le_ceiling b.ceiling
    omega
  · rintro (hmaximum | ⟨hfirst, hsteady⟩) n
    · exact (b.toNat_next_eq_iff _).2 ((exactNext_le_maximum _).trans hmaximum)
    · have := b.first_le_maximum
      rw [delay_eq_first h hfirst hsteady, delay_eq_first h hfirst hsteady, exactNext,
        mul_div_eq h, Nat.div_eq_of_lt hsteady]
      omega

/-- Exact steps never shrink a delay. -/
lemma delay_le_succ_of_exact
    (hexact : ∀ n, (b.pace.delay (n + 1)).toNat = b.exactNext (b.pace.delay n).toNat) (n : Nat) :
    b.pace.delay n ≤ b.pace.delay (n + 1) := by
  rw [UInt64.le_iff_toNat_le, hexact]
  exact le_exactNext h (UInt64.le_iff_toNat_le.1 (b.delay_le_maximum n))

end Growing

/-- At a multiplier that is not below the divisor no delay exceeds the maximum; the delays never
shrink exactly if the first one, multiplied by the divisor, fits into a word; and they never shrink
and are those of exact arithmetic exactly if the maximum, multiplied by the divisor, fits into a
word, or the first delay does and nothing is gained in a step. -/
theorem never_speeds_up_iff (b : Backoff) (h : b.divisor ≤ b.multiplier) :
    (∀ n, b.pace.delay n ≤ b.maximum) ∧
      ((∀ n, b.pace.delay n ≤ b.pace.delay (n + 1)) ↔
        b.first.toNat * b.divisor.toNat < UInt64.size) ∧
      ((∀ n, b.pace.delay n ≤ b.pace.delay (n + 1) ∧
          (b.pace.delay (n + 1)).toNat = b.exactNext (b.pace.delay n).toNat) ↔
        b.maximum.toNat * b.divisor.toNat < UInt64.size ∨
          b.first.toNat * b.divisor.toNat < UInt64.size ∧
            b.first.toNat * (b.multiplier.toNat - b.divisor.toNat) < b.divisor.toNat) := by
  refine ⟨b.delay_le_maximum, ?_, ?_⟩
  · rw [delay_le_succ_iff h, le_ceiling_iff]
  · rw [← le_ceiling_iff, ← le_ceiling_iff, ← exact_iff h]
    exact ⟨fun hall n => (hall n).2,
      fun hexact n => ⟨delay_le_succ_of_exact h hexact n, hexact n⟩⟩

/-- The longest maximum at which percentages are exact. -/
theorem never_speeds_up_iff_percent :
    let b := ({ multiplierPct := 150, maxDelayMs := 184467440737095516 } : RetryConfig).backoff
    b.divisor ≤ b.multiplier ∧ (∀ n, b.pace.delay n ≤ b.maximum) ∧
      ∀ n, b.pace.delay n ≤ b.pace.delay (n + 1) ∧
        (b.pace.delay (n + 1)).toNat = b.exactNext (b.pace.delay n).toNat := by
  intro b
  have h : b.divisor ≤ b.multiplier := by decide
  obtain ⟨hmaximum, -, hexact⟩ := never_speeds_up_iff b h
  exact ⟨h, hmaximum, hexact.2 (.inl (by decide))⟩

/-- A delay of `2 ^ 60` that is to be doubled shrinks. -/
theorem not_never_speeds_up :
    ¬∀ b : Backoff, b.divisor ≤ b.multiplier → ∀ n,
      b.pace.delay n ≤ b.pace.delay (n + 1) ∧ b.pace.delay n ≤ b.maximum ∧
        (b.pace.delay (n + 1)).toNat = b.exactNext (b.pace.delay n).toNat := by
  intro hclaim
  obtain ⟨hgrows, -⟩ := hclaim
    ({ baseDelayMs := 1152921504606846976
       maxDelayMs := 18446744073709551615 } : RetryConfig).backoff (by decide) 0
  exact absurd hgrows (by decide)

end ConsensusLink.Backoff
