import ConsensusLink.Retry.Config
import Mathlib.Data.List.Basic
/-!
# What the attempts of a loop amount to

A loop that tries again ends with the first result that is not worth another attempt, or with the
last one when there may be no more. `Policy.verdict` says so of the results that its attempts have
had so far. `Policy.Reaches` ties the state of the loop to these results, so that each decision of
`Policy.judge` is the verdict on all of them.
-/

namespace ConsensusLink.Retry.Policy

variable {ε α : Type} {p : Policy ε} {results : List (Except ε α)} {s next : State}
  {r r' : Except ε α} {delay : UInt64}

/-- A result is worth another attempt. -/
def repeats (p : Policy ε) : Except ε α → Bool
  | .ok _ => false
  | .error e => p.retryable e

/-- A result is followed by another attempt exactly if it is worth one and there may be one. -/
lemma judge_eq (p : Policy ε) (s : State) (r : Except ε α) :
    p.judge s r = if p.repeats r = true ∧ s.retries < p.maxRetries then
      .again s.delay ⟨s.attempts, p.pace.next s.delay⟩ else .finish r := by
  cases r with
  | ok => rfl
  | error e =>
    simp only [judge, repeats, ← UInt16.not_le]
    by_cases hr : p.retryable e = true
    · by_cases hle : p.maxRetries ≤ s.retries <;> simp [hr, hle, State.attempts]
    · simp [hr]

/-- What a loop ends with, when its attempts so far had the given results, oldest first; nothing as
long as it goes on. -/
def verdict (p : Policy ε) (results : List (Except ε α)) : Option (Except ε α) :=
  match results.getLast? with
  | none => none
  | some r => if p.repeats r ∧ results.length ≤ p.maxRetries.toNat then none else some r

lemma verdict_concat (p : Policy ε) (results : List (Except ε α)) (r : Except ε α) :
    p.verdict (results ++ [r]) =
      if p.repeats r ∧ results.length + 1 ≤ p.maxRetries.toNat then none else some r := by
  simp [verdict]

/-- A loop is in a state when its attempts so far had results that were all worth another one. -/
structure Reaches (p : Policy ε) (results : List (Except ε α)) (s : State) : Prop where
  repeats : ∀ r ∈ results, p.repeats r = true
  retries : s.retries.toNat = results.length
  le : results.length ≤ p.maxRetries.toNat

lemma reaches_start (p : Policy ε) : p.Reaches ([] : List (Except ε α)) p.start :=
  ⟨nofun, rfl, Nat.zero_le _⟩

lemma Reaches.verdict_eq_none (h : p.Reaches results s) : p.verdict results = none := by
  unfold verdict
  split
  · rfl
  · rename_i hlast
    rw [if_pos ⟨h.repeats _ (List.mem_of_getLast? hlast), h.le⟩]

lemma repeats_of_judge (h : p.judge s r = .again delay next) : p.repeats r = true := by
  rw [judge_eq] at h
  split at h
  · rename_i hboth
    exact hboth.1
  · cases h

/-- When another attempt is granted, the loop goes on with the result behind it. -/
lemma Reaches.again (h : p.Reaches results s) (hj : p.judge s r = .again delay next) :
    p.Reaches (results ++ [r]) next := by
  obtain ⟨hlt, hnext⟩ := retries_of_judge hj
  rw [h.retries] at hlt hnext
  refine ⟨fun r' hr' => ?_, by rw [hnext, List.length_append, List.length_singleton], ?_⟩
  · rcases List.mem_append.1 hr' with hr' | hr'
    · exact h.repeats r' hr'
    · rw [List.mem_singleton.1 hr']
      exact repeats_of_judge hj
  · rw [List.length_append, List.length_singleton]
    omega

/-- When the loop ends, it does so with the verdict on all its results. -/
lemma Reaches.finish (h : p.Reaches results s) (hj : p.judge s r = .finish r') :
    r' = r ∧ p.verdict (results ++ [r]) = some r := by
  rw [judge_eq] at hj
  split at hj
  · cases hj
  · rename_i hnot
    cases hj
    refine ⟨rfl, ?_⟩
    -- the counter of the loop is the number of its results
    rw [verdict_concat, if_neg]
    rwa [UInt16.lt_iff_toNat_lt, h.retries] at hnot

/-- A loop makes one attempt more than it may be repeated, at most. -/
lemma Reaches.length_le (h : p.Reaches results s) (r : Except ε α) :
    (results ++ [r]).length ≤ p.maxRetries.toNat + 1 := by
  rw [List.length_append, List.length_singleton]
  exact Nat.succ_le_succ h.le

end ConsensusLink.Retry.Policy

/-- The loops of a client repeat transient failures. -/
lemma ConsensusLink.RetryConfig.transient_of_repeats {α : Type} {config : RetryConfig}
    {r : Except Failure α} (h : config.policy.repeats r = true) :
    ∃ e, r = .error e ∧ e.isTransient = true := by
  cases r with
  | ok => cases h
  | error e => exact ⟨e, rfl, h⟩
