import ConsensusLink.Proofs.Retry.Verdict
import Mathlib.Data.Nat.Find
import Mathlib.Order.Basic
/-!
# The course of a loop

Before attempt `n` the counter of a loop is `n` and its delay the one that is reached after `n`
steps, as long as all results so far were worth another attempt and the retries are not used up.
So a loop is known as a whole: it ends with the first result that is not worth another attempt, or
with the one that uses up the retries, and it pauses once between any two attempts.

The counter is a 16-bit word. Its steps never overflow, but the total that is reported at the end
does, when all the retries that a 16-bit word can count are used up.
-/

namespace ConsensusLink.Retry

/-- The sum of 16-bit words that is formed for a report: the counter of the loop, and what is taken
for its successor. -/
def Report.sum {ε : Type} (r : Report ε) : Nat × Nat := (r.retries.toNat, r.attempts.toNat)

namespace Policy

variable {ε α : Type} {p : Policy ε} {results : Nat → Except ε α} {result : Except ε α}
  {latency i n : Nat} {s : State} {r : Report ε}

/-! ## One attempt -/

/-- The state before attempt `n`. -/
def before (p : Policy ε) (n : Nat) : State := ⟨.ofNat n, p.pace.delay n⟩

lemma toNat_retries_before (h : n ≤ p.maxRetries.toNat) : (p.before n).retries.toNat = n :=
  UInt16.toNat_ofNat_of_lt' (h.trans_lt p.maxRetries.toNat_lt)

/-- A result that is worth another attempt leads to it, as long as there may be one. -/
lemma judge_before_of_lt (hr : p.repeats result = true) (h : n < p.maxRetries.toNat) :
    p.judge (p.before n) result = .again (p.pace.delay n) (p.before (n + 1)) := by
  have hleft : (p.before n).retries < p.maxRetries := by
    rwa [UInt16.lt_iff_toNat_lt, toNat_retries_before h.le]
  have hstep : (p.before n).attempts = .ofNat (n + 1) := (UInt16.ofNat_add n 1).symm
  rw [judge_eq, if_pos ⟨hr, hleft⟩, hstep]
  rfl

/-- Any other result ends the loop. -/
lemma judge_before_of_stops (hstops : p.repeats result = true → n = p.maxRetries.toNat)
    (h : n ≤ p.maxRetries.toNat) : p.judge (p.before n) result = .finish result := by
  rw [judge_eq, if_neg]
  rintro ⟨hr, hleft⟩
  rw [UInt16.lt_iff_toNat_lt, toNat_retries_before h] at hleft
  exact hleft.ne (hstops hr)

/-! ## The whole loop -/

/-- A loop ends with attempt `n`: no attempt before it has a result to end with, and it has one
itself unless it uses up the retries. -/
structure EndsAt (p : Policy ε) (results : Nat → Except ε α) (n : Nat) : Prop where
  le : n ≤ p.maxRetries.toNat
  repeats : ∀ i < n, p.repeats (results i) = true
  stops : p.repeats (results n) = true → n = p.maxRetries.toNat

lemma exists_endsAt (p : Policy ε) (results : Nat → Except ε α) : ∃ n, p.EndsAt results n := by
  have hend : ∃ n, p.repeats (results n) = true → n = p.maxRetries.toNat :=
    ⟨p.maxRetries.toNat, fun _ => rfl⟩
  refine ⟨Nat.find hend, Nat.find_min' hend fun _ => rfl, fun i hi => ?_, Nat.find_spec hend⟩
  exact (Classical.not_imp.1 (Nat.find_min hend hi)).1

/-- The time at which attempt `n` begins. -/
def begins (p : Policy ε) (latency : Nat) : Nat → Nat
  | 0 => 0
  | n + 1 => p.begins latency n + latency + (p.pace.delay n).toNat

/-- Attempt `i` and the pause behind it. -/
def round (p : Policy ε) (latency i : Nat) : List Move :=
  [.attempt (p.begins latency i), .pause (p.pace.delay i)]

/-- What is reported of attempt `i`. -/
def said? (p : Policy ε) (results : Nat → Except ε α) (i : Nat) : Option (Report ε) :=
  p.report? (p.before i) (results i)

/-- The course of a loop from attempt `i` on, when it ends `left` attempts later. -/
lemma runFrom_before (h : p.EndsAt results n) (latency left : Nat) (hi : i + left = n) :
    p.runFrom latency results i (p.before i) (p.begins latency i) =
      ⟨(List.range' i left).flatMap (p.round latency) ++ [.attempt (p.begins latency n)],
        (List.range' i (left + 1)).filterMap (p.said? results), results n,
        p.begins latency n + latency⟩ := by
  induction left generalizing i with
  | zero =>
    obtain rfl : i = n := hi
    rw [runFrom_of_finish (judge_before_of_stops h.stops h.le), ← said?]
    cases hs : p.said? results i <;> simp [hs]
  | succ left ih =>
    have hlt : i < n := by omega
    have hrest := ih (i := i + 1) (by omega)
    have hrange : ∀ k, List.range' i (k + 1) = i :: List.range' (i + 1) k := fun _ =>
      List.range'_succ
    rw [runFrom_of_again (judge_before_of_lt (h.repeats i hlt) (hlt.trans_le h.le)), ← begins,
      hrest, ← said?, hrange, hrange, List.flatMap_cons, List.filterMap_cons]
    cases p.said? results i <;> rfl

/-- All that there is to know of a loop, from the attempt that it ends with. -/
lemma run_eq (h : p.EndsAt results n) (latency : Nat) :
    p.run latency results =
      ⟨(List.range n).flatMap (p.round latency) ++ [.attempt (p.begins latency n)],
        (List.range (n + 1)).filterMap (p.said? results), results n,
        p.begins latency n + latency⟩ := by
  rw [List.range_eq_range', List.range_eq_range']
  exact runFrom_before h latency n (Nat.zero_add n)

/-- For every sequence of results the loop makes its attempts up to the first result that is not
worth another one, or up to the one that uses up the retries. It ends with the result of the last
attempt, and pauses exactly once between any two attempts, for the delay that its pace has
reached. -/
theorem attempts_and_pauses (p : Policy ε) (latency : Nat) (results : Nat → Except ε α) :
    ∃ n, p.EndsAt results n ∧
      (p.run latency results).result = results n ∧
      (p.run latency results).moves =
        ((List.range n).flatMap fun i =>
          [.attempt (p.begins latency i), .pause (p.pace.delay i)]) ++
            [.attempt (p.begins latency n)] ∧
      (p.run latency results).finish = p.begins latency n + latency := by
  obtain ⟨n, hn⟩ := p.exists_endsAt results
  rw [run_eq hn]
  exact ⟨n, hn, rfl, rfl, rfl⟩

example : ((⟨2, ⟨128, (· / 2)⟩, fun _ => true⟩ : Policy String).run 0
    (fun _ => (.error "fail" : Except String Unit))).moves =
      [.attempt 0, .pause 128, .attempt 128, .pause 64, .attempt 192] := by decide +kernel

/-! ## The sums of a loop -/

/-- A sum is formed for every failure that is worth another attempt. -/
lemma sum_report? (p : Policy ε) (s : State) (result : Except ε α) :
    (p.report? s result).map Report.sum = if p.repeats result = true then
      some (s.retries.toNat, s.attempts.toNat) else none := by
  cases result with
  | ok => rfl
  | error e =>
    rw [report?, repeats, judge_eq]
    by_cases hr : p.retryable e = true
    · by_cases hlt : s.retries < p.maxRetries <;> simp [hr, hlt, repeats, Report.sum]
    · simp [hr]

lemma sum_said? (h : n ≤ p.maxRetries.toNat) :
    (p.said? results n).map Report.sum = if p.repeats (results n) = true then
      some (n, (n + 1) % UInt16.size) else none := by
  rw [said?, sum_report?, State.attempts, UInt16.toNat_add, toNat_retries_before h]
  rfl

/-- The sums that a loop forms: its counter goes up by one for each attempt that it grants, and once
more when there may be no other. -/
lemma sums_run (h : p.EndsAt results n) (latency : Nat) :
    (p.run latency results).reports.map Report.sum = (List.range n).map (fun i => (i, i + 1)) ++
      if p.repeats (results n) = true then [(n, (n + 1) % UInt16.size)] else [] := by
  have hstep : ∀ i ∈ List.range n, (p.said? results i).map Report.sum = some (i, i + 1) := by
    intro i hi
    have hlt := (List.mem_range.1 hi).trans_le h.le
    rw [sum_said? hlt.le, if_pos (h.repeats i (List.mem_range.1 hi)), Nat.mod_eq_of_lt]
    exact Nat.lt_of_le_of_lt hlt p.maxRetries.toNat_lt
  rw [run_eq h, List.map_filterMap, List.range_succ, List.filterMap_append,
    List.filterMap_congr hstep, List.filterMap_eq_map', List.filterMap_cons, sum_said? h.le]
  cases p.repeats (results n) <;> rfl

/-- For every sequence of results the sums that the loop forms are those of its counter with one:
one for each attempt that it grants, and the total when there may be no more. They are all exact,
unless the loop may be repeated as often as a 16-bit word can count and all its attempts fail in a
way that is worth another one. Then the total overflows. -/
theorem sums_exact_iff (p : Policy ε) (latency : Nat) (results : Nat → Except ε α) :
    (∃ n, p.EndsAt results n ∧ (p.run latency results).reports.map Report.sum =
      (List.range n).map (fun i => (i, i + 1)) ++
        if p.repeats (results n) = true then [(n, (n + 1) % UInt16.size)] else []) ∧
      ((∀ x ∈ (p.run latency results).reports.map Report.sum, x.2 = x.1 + 1) ↔
        ¬(p.maxRetries.toNat + 1 = UInt16.size ∧
          ∀ i ≤ p.maxRetries.toNat, p.repeats (results i) = true)) := by
  obtain ⟨n, hn⟩ := p.exists_endsAt results
  refine ⟨⟨n, hn, sums_run hn latency⟩, ?_⟩
  have hsteps : ∀ x ∈ (List.range n).map (fun i => (i, i + 1)), x.2 = x.1 + 1 := by simp
  rw [sums_run hn, List.forall_mem_append, and_iff_right hsteps]
  constructor
  · rintro htotal ⟨htop, hrepeats⟩
    obtain rfl := hn.stops (hrepeats n hn.le)
    rw [if_pos (hrepeats _ le_rfl)] at htotal
    have hover : 0 = UInt16.size := by simpa [htop] using htotal _ List.mem_cons_self
    exact absurd hover (by decide)
  · intro hunder x hx
    split at hx
    · -- the total is formed only when the retries are used up
      rename_i hr
      have hlast := hn.stops hr
      obtain rfl := List.mem_singleton.1 hx
      have hle : n + 1 ≤ UInt16.size := hlast ▸ p.maxRetries.toNat_lt
      refine Nat.mod_eq_of_lt (hle.lt_of_ne fun htop => hunder ⟨hlast ▸ htop, fun i hi => ?_⟩)
      rcases (hi.trans_eq hlast.symm).lt_or_eq with hlt | rfl
      · exact hn.repeats i hlt
      · exact hr
    · cases hx

/-- The total overflows when a call that may be repeated as often as can be configured always runs
into its timeout. -/
theorem not_sums_exact :
    ¬∀ (config : RetryConfig) (results : Nat → Outcome Unit),
      ∀ x ∈ (config.policy.run 0 results).reports.map Report.sum, x.2 = x.1 + 1 := by
  intro hclaim
  let config : RetryConfig := { maxRetries := 65535 }
  have hends : config.policy.EndsAt (fun _ => (.error .timeout : Outcome Unit)) 65535 :=
    ⟨le_rfl, fun _ _ => rfl, fun _ => rfl⟩
  have htotal : (65535, 0) ∈
      (config.policy.run 0 fun _ => (.error .timeout : Outcome Unit)).reports.map Report.sum := by
    rw [sums_run hends]
    exact List.mem_append_right _ List.mem_cons_self
  exact absurd (hclaim config _ _ htotal) (by decide)

end Policy

end ConsensusLink.Retry
