import ConsensusLink.Retry.Backoff
/-!
# Trying again

A `Retry.Policy` says which errors are worth another attempt, how many there may be, and how long
to wait between them. `Policy.judge` is the decision after one attempt; everything that tries again
in this library takes it from there. `Policy.run` is the whole loop over the results that the
attempts would have: its attempts with the times at which they begin, its pauses, and what it
reports of the failures that are worth another attempt. The numbers in the reports are 16-bit words,
like the counter of the loop.
-/

namespace ConsensusLink.Retry

/-- When an operation is tried again. -/
structure Policy (ε : Type) where
  /-- How often an operation is tried again. -/
  maxRetries : UInt16
  /-- How long to wait before each further attempt. -/
  pace : Pace
  /-- Whether an error is worth another attempt. -/
  retryable : ε → Bool

/-- What a loop remembers between attempts. -/
structure State where
  /-- How often the operation was tried again so far. -/
  retries : UInt16
  /-- How long to wait before the next attempt, in milliseconds. -/
  delay : UInt64
deriving DecidableEq, Inhabited

/-- What follows from an attempt. -/
inductive Verdict (ε α : Type) where
  /-- The loop ends with this result. -/
  | finish (result : Except ε α)
  /-- The operation is tried again after a delay. -/
  | again (delay : UInt64) (next : State)

/-- How many attempts there were, as reported when there may be no more. -/
def State.attempts (s : State) : UInt16 := s.retries + 1

namespace Policy

variable {ε α : Type}

/-- The state before the first attempt. -/
def start (p : Policy ε) : State := ⟨0, p.pace.first⟩

/-- What follows from the result of an attempt. -/
def judge (p : Policy ε) (s : State) (result : Except ε α) : Verdict ε α :=
  match result with
  | .ok a => .finish (.ok a)
  | .error e =>
    if !p.retryable e then .finish (.error e)
    else if p.maxRetries ≤ s.retries then .finish (.error e)
    else .again s.delay ⟨s.retries + 1, p.pace.next s.delay⟩

/-- After another attempt is granted there is one fewer left. -/
theorem retries_of_judge {p : Policy ε} {s next : State} {result : Except ε α} {delay : UInt64}
    (h : p.judge s result = .again delay next) :
    s.retries.toNat < p.maxRetries.toNat ∧ next.retries.toNat = s.retries.toNat + 1 := by
  unfold judge at h
  split at h
  · cases h
  · split at h
    · cases h
    · split at h
      · cases h
      · rename_i hlt
        simp only [Verdict.again.injEq] at h
        obtain ⟨-, rfl⟩ := h
        have hlt' : s.retries.toNat < p.maxRetries.toNat := by
          simpa [UInt16.le_iff_toNat_le] using hlt
        have := p.maxRetries.toNat_lt
        refine ⟨hlt', ?_⟩
        simp only [UInt16.toNat_add, UInt16.toNat_one]
        omega

end Policy

/-- What is reported of a failure that is worth another attempt. -/
structure Report (ε : Type) where
  /-- The counter of the loop when the attempt failed. -/
  retries : UInt16
  /-- How many attempts there were: the counter of the loop after the next step, or the total when
  there may be no more. -/
  attempts : UInt16
  /-- How the attempt failed. -/
  error : ε
  /-- How long the loop pauses now, unless there may be no more attempts. -/
  delay? : Option UInt64

/-- What is reported of the result of an attempt. -/
def Policy.report? {ε α : Type} (p : Policy ε) (s : State) (result : Except ε α) :
    Option (Report ε) :=
  match result with
  | .ok _ => none
  | .error e =>
    if !p.retryable e then none
    else match p.judge s result with
      | .finish _ => some ⟨s.retries, s.attempts, e, none⟩
      | .again delay next => some ⟨s.retries, next.retries, e, some delay⟩

/-- One thing that a loop does. -/
inductive Move where
  /-- An attempt begins at this time. -/
  | attempt (time : Nat)
  /-- The loop pauses. -/
  | pause (delay : UInt64)
deriving DecidableEq

/-- The time at which an attempt begins. -/
def Move.time? : Move → Option Nat
  | .attempt time => some time
  | .pause _ => none

/-- How a loop went. -/
structure Run (ε α : Type) where
  /-- Its attempts and pauses, in order. -/
  moves : List Move
  /-- What was reported, oldest first. -/
  reports : List (Report ε)
  /-- The result of the last attempt. -/
  result : Except ε α
  /-- The time at which the loop ended. -/
  finish : Nat

/-- The times at which the attempts began. -/
def Run.attempts {ε α : Type} (r : Run ε α) : List Nat := r.moves.filterMap Move.time?

namespace Policy

variable {ε α : Type}

/-- The rest of a loop from a given state and time on, after a number of attempts. Every attempt
takes `latency` milliseconds; attempt `n` has the result `results n`. -/
def runFrom (p : Policy ε) (latency : Nat) (results : Nat → Except ε α) (made : Nat) (s : State)
    (now : Nat) : Run ε α :=
  let reports := (p.report? s (results made)).toList
  match _h : p.judge s (results made) with
  | .finish result => ⟨[.attempt now], reports, result, now + latency⟩
  | .again delay next =>
    let rest := p.runFrom latency results (made + 1) next (now + latency + delay.toNat)
    { rest with
      moves := .attempt now :: .pause delay :: rest.moves
      reports := reports ++ rest.reports }
termination_by p.maxRetries.toNat - s.retries.toNat
decreasing_by
  have := retries_of_judge _h
  omega

variable {p : Policy ε} {latency made now : Nat} {results : Nat → Except ε α} {s next : State}
  {result : Except ε α} {delay : UInt64}

theorem runFrom_of_finish (h : p.judge s (results made) = .finish result) :
    p.runFrom latency results made s now =
      ⟨[.attempt now], (p.report? s (results made)).toList, result, now + latency⟩ := by
  rw [runFrom]
  split
  · rename_i hj
    rw [h] at hj
    cases hj
    rfl
  · rename_i hj
    rw [h] at hj
    cases hj

theorem runFrom_of_again (h : p.judge s (results made) = .again delay next) :
    p.runFrom latency results made s now =
      let rest := p.runFrom latency results (made + 1) next (now + latency + delay.toNat)
      { rest with
        moves := .attempt now :: .pause delay :: rest.moves
        reports := (p.report? s (results made)).toList ++ rest.reports } := by
  rw [runFrom]
  split
  · rename_i hj
    rw [h] at hj
    cases hj
  · rename_i hj
    rw [h] at hj
    cases hj
    rfl

/-- The whole loop, begun at time zero. -/
def run (p : Policy ε) (latency : Nat) (results : Nat → Except ε α) : Run ε α :=
  p.runFrom latency results 0 p.start 0

end Policy

end ConsensusLink.Retry
