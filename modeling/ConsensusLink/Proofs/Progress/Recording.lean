import ConsensusLink.Proofs.Progress.Observing
import Mathlib.Logic.Relation
/-!
# Recorded and served counts

Queries are issued and answers recorded in any order, so that the three counts last recorded need
not be ordered. Still a count that is served is never below a count that it dominates. This rests on
one invariant, `Coherent`: a value is recorded after its query was issued, and it is not below the
value of a dominated count that was recorded before. Of two observations one at most was recorded
before the query of the other was issued; hence either this invariant compares them, or `cached?`
does.
-/

namespace ConsensusLink

open Relation

namespace Observations

/-- What holds of observations, whatever the node answers. -/
structure Coherent (s : Observations) : Prop where
  issued : ∀ c o, s.latest.get c = some o → o.issued < o.recorded
  recorded : ∀ c o, s.latest.get c = some o → o.recorded ≤ s.clock
  /-- An observation is not below one that preceded its query. -/
  bound : ∀ c o d o', s.latest.get c = some o → d ∈ c.dominated → s.latest.get d = some o' →
    o'.recorded < o.issued → o'.value ≤ o.value

/-- How observations change: a query is issued, an answer passes the check and is recorded, or a new
session starts. -/
inductive Evolves (s : Observations) : Observations → Prop
  | stays : Evolves s s
  | issues : Evolves s s.issue.2
  | records {c value ticket now} (h : s.Passes c value ticket) (hissued : ticket.issued ≤ s.clock) :
      Evolves s (s.record c value ticket now)
  | restarts : Evolves s s.newSession

variable {s s' : Observations} {c d : Counter} {value : MessageIndex} {ticket : Ticket}
  {now ttl : Nat}

lemma evolves_observe (hissued : ticket.issued ≤ s.clock) :
    s.Evolves (s.observe c value ticket now).2 := by
  obtain ⟨hpasses, he⟩ | ⟨-, he⟩ | ⟨-, -, _, he⟩ := s.observe_cases c value ticket now
  · rw [he]
    exact .records hpasses hissued
  · rw [he]
    exact .stays
  · rw [he]
    exact .stays

lemma coherent_empty : Coherent {} where
  issued := by rintro (_ | _ | _) o ⟨⟩
  recorded := by rintro (_ | _ | _) o ⟨⟩
  bound := by rintro (_ | _ | _) o d o' ⟨⟩

/-- The observation that is recorded now, or one from before. -/
lemma latest_record {o : Observation}
    (h : (s.record c value ticket now).latest.get d = some o) :
    (d = c ∧ o = ⟨value, now, ticket.issued, s.clock + 1⟩) ∨ s.latest.get d = some o := by
  by_cases hd : d = c
  · subst hd
    exact .inl ⟨rfl, (Option.some.inj (latest_record_self.symm.trans h)).symm⟩
  · exact .inr ((latest_record_of_ne hd).symm.trans h)

lemma Coherent.records (h : s.Coherent) (hpasses : s.Passes c value ticket)
    (hissued : ticket.issued ≤ s.clock) : (s.record c value ticket now).Coherent where
  issued d o ho := by
    obtain ⟨-, rfl⟩ | ho := latest_record ho
    · exact Nat.lt_succ_of_le hissued
    · exact h.issued d o ho
  recorded d o ho := by
    obtain ⟨-, rfl⟩ | ho := latest_record ho
    · exact Nat.le_refl _
    · exact Nat.le_succ_of_le (h.recorded d o ho)
  bound d o d' o' ho hd ho' hprec := by
    obtain ⟨-, rfl⟩ | hbefore := latest_record ho'
    · -- what is recorded now precedes no query
      have hlast : o.issued ≤ s.clock := by
        obtain ⟨-, rfl⟩ | ho := latest_record ho
        · exact hissued
        · exact Nat.le_trans (Nat.le_of_lt (h.issued d o ho)) (h.recorded d o ho)
      exact absurd hprec (Nat.not_lt_of_le (Nat.le_succ_of_le hlast))
    · obtain ⟨rfl, rfl⟩ | ho := latest_record ho
      · exact hpasses.bound d' hd o' hbefore hprec
      · exact h.bound d o d' o' ho hd hbefore hprec

theorem Coherent.evolves (h : s.Coherent) (hs : s.Evolves s') : s'.Coherent := by
  cases hs with
  | stays => exact h
  | issues => exact ⟨h.issued, fun c o ho => Nat.le_succ_of_le (h.recorded c o ho), h.bound⟩
  | records hpasses hissued => exact h.records hpasses hissued
  | restarts =>
    exact ⟨by rintro (_ | _ | _) o ⟨⟩, by rintro (_ | _ | _) o ⟨⟩, by rintro (_ | _ | _) o d o' ⟨⟩⟩

lemma Evolves.clock_le (h : s.Evolves s') : s.clock ≤ s'.clock := by
  cases h with
  | stays => exact Nat.le_refl _
  | issues => exact Nat.le_succ _
  | records => exact Nat.le_succ _
  | restarts => exact Nat.le_refl _

lemma Evolves.session_le (h : s.Evolves s') : s.session ≤ s'.session := by
  cases h with
  | restarts => exact Nat.le_succ _
  | _ => exact Nat.le_refl _

lemma value?_eq_some : s.value? c = some value ↔ ∃ o, s.latest.get c = some o ∧ o.value = value :=
  Option.map_eq_some_iff

lemma value?_record_self : (s.record c value ticket now).value? c = some value :=
  value?_eq_some.2 ⟨_, latest_record_self, rfl⟩

lemma value?_record_of_ne (h : d ≠ c) : (s.record c value ticket now).value? d = s.value? d := by
  rw [value?, latest_record_of_ne h, value?]

/-- While a session lasts no recorded count decreases. -/
lemma Evolves.value_le (h : s.Evolves s') (hsession : s'.session = s.session)
    (hv : s.value? c = some value) : ∃ value', s'.value? c = some value' ∧ value ≤ value' := by
  cases h with
  | stays => exact ⟨value, hv, Nat.le_refl _⟩
  | issues => exact ⟨value, hv, Nat.le_refl _⟩
  | @records d value' ticket now hpasses _ =>
    by_cases hc : c = d
    · subst hc
      obtain ⟨o, ho, rfl⟩ := value?_eq_some.1 hv
      exact ⟨value', value?_record_self, hpasses.own o ho⟩
    · exact ⟨value, (value?_record_of_ne hc).trans hv, Nat.le_refl _⟩
  | restarts => exact absurd hsession (Nat.succ_ne_self _)

/-- What it takes for a count to be served. -/
lemma cached?_eq_some (h : s.cached? c now ttl = some value) :
    ∃ o, s.latest.get c = some o ∧ o.value = value ∧ ∀ d ≠ c, ∀ o', s.latest.get d = some o' →
      o'.recorded < o.issued ∨ agrees c o d o' = true := by
  unfold cached? at h
  cases ho : s.latest.get c with
  | none =>
    rw [ho] at h
    cases h
  | some o =>
    rw [ho, Option.bind_eq_bind, Option.bind_some] at h
    split at h
    · cases h
    · dsimp only at h
      split at h
      · rename_i hall
        refine ⟨o, rfl, Option.some.inj h, fun d hd o' ho' => ?_⟩
        have hmem : d ∈ Counter.all.filter (· ≠ c) := by simp [Counter.mem_all, hd]
        have hd := List.all_eq_true.1 hall d hmem
        rw [ho'] at hd
        simpa [Observation.precedes] using hd
      · cases h

/-- A count that is served is not below what was last recorded of a count that it dominates. -/
theorem Coherent.le_of_cached (h : s.Coherent) (hc : s.cached? c now ttl = some value)
    (hd : d ∈ c.dominated) {bound : MessageIndex} (hv : s.value? d = some bound) :
    bound ≤ value := by
  obtain ⟨o, ho, rfl⟩ := value?_eq_some.1 hv
  obtain ⟨o', ho', rfl, hall⟩ := cached?_eq_some hc
  have hrank := Counter.mem_dominated.1 hd
  have hne : d ≠ c := by
    rintro rfl
    exact Nat.lt_irrefl _ hrank
  obtain hprec | hagrees := hall d hne o ho
  · exact h.bound c o' d o ho' hd ho hprec
  · rw [agrees, if_pos hrank] at hagrees
    exact of_decide_eq_true hagrees

lemma value?_of_cached (h : s.cached? c now ttl = some value) : s.value? c = some value := by
  obtain ⟨o, ho, hv, -⟩ := cached?_eq_some h
  exact value?_eq_some.2 ⟨o, ho, hv⟩

end Observations

/-- Observations, together with all tickets that were issued. -/
structure Ledger where
  /-- The observations. -/
  observations : Observations := {}
  /-- The tickets, latest first. -/
  issued : List Ticket := []

namespace Ledger

variable {l l' : Ledger}

/-- What can be done: a query is issued, an answer is checked with any ticket that was issued,
however often it was used before, or a new session starts. -/
inductive Step (l : Ledger) : Ledger → Prop
  | issues : Step l ⟨l.observations.issue.2, l.observations.issue.1 :: l.issued⟩
  | observes {ticket} (h : ticket ∈ l.issued) (c : Counter) (value : MessageIndex) (now : Nat) :
      Step l ⟨(l.observations.observe c value ticket now).2, l.issued⟩
  | restarts : Step l ⟨l.observations.newSession, l.issued⟩

/-- Any number of such steps. -/
def Runs : Ledger → Ledger → Prop := ReflTransGen Step

/-- The clock has passed all tickets. -/
def Dated (l : Ledger) : Prop := ∀ ticket ∈ l.issued, ticket.issued ≤ l.observations.clock

lemma Step.evolves (h : l.Step l') (hd : l.Dated) : l.observations.Evolves l'.observations := by
  cases h with
  | issues => exact .issues
  | observes h => exact Observations.evolves_observe (hd _ h)
  | restarts => exact .restarts

lemma Step.dated (h : l.Step l') (hd : l.Dated) : l'.Dated := by
  have hclock := (h.evolves hd).clock_le
  intro ticket hmem
  cases h with
  | issues =>
    rcases List.mem_cons.1 hmem with rfl | hmem
    · exact Nat.le_refl _
    · exact Nat.le_trans (hd ticket hmem) hclock
  | observes => exact Nat.le_trans (hd ticket hmem) hclock
  | restarts => exact Nat.le_trans (hd ticket hmem) hclock

lemma coherent_of_runs (h : Runs {} l) : l.observations.Coherent ∧ l.Dated := by
  induction h with
  | refl => exact ⟨Observations.coherent_empty, fun _ hmem => nomatch hmem⟩
  | tail _ hstep ih => exact ⟨ih.1.evolves (hstep.evolves ih.2), hstep.dated ih.2⟩

lemma Runs.dated (h : Runs l l') (hd : l.Dated) : l'.Dated := by
  induction h with
  | refl => exact hd
  | tail _ hstep ih => exact hstep.dated ih

lemma Runs.session_le (h : Runs l l') (hd : l.Dated) :
    l.observations.session ≤ l'.observations.session := by
  induction h with
  | refl => exact Nat.le_refl _
  | tail hruns hstep ih => exact Nat.le_trans ih (hstep.evolves (Runs.dated hruns hd)).session_le

/-- While a session lasts no recorded count decreases. -/
lemma Runs.value_le (h : Runs l l') (hd : l.Dated)
    (hsession : l'.observations.session = l.observations.session) {c : Counter}
    {value : MessageIndex} (hv : l.observations.value? c = some value) :
    ∃ value', l'.observations.value? c = some value' ∧ value ≤ value' := by
  induction h with
  | refl => exact ⟨value, hv, Nat.le_refl _⟩
  | @tail mid last hruns hstep ih =>
    have hevolves := hstep.evolves (Runs.dated hruns hd)
    -- the session lasts from the first to the last, hence also in between
    have hmid : mid.observations.session = l.observations.session :=
      Nat.le_antisymm (hsession ▸ hevolves.session_le) (Runs.session_le hruns hd)
    obtain ⟨v₁, hv₁, hle⟩ := ih hmid
    obtain ⟨v₂, hv₂, hle'⟩ := hevolves.value_le (hsession.trans hmid.symm) hv₁
    exact ⟨v₂, hv₂, Nat.le_trans hle hle'⟩

/-- **Recorded counts do not decrease, and served counts are ordered.** In every state that issuing,
observing and restarting lead to: what is recorded of a count does not decrease while the session
lasts; an answer that is not recorded changes nothing; a count that is served is the one last
recorded, and not below what was last recorded of a count that it dominates; hence the counts that
are served are ordered, even if those recorded are not. -/
theorem served_counts_ordered (h : Runs {} l) :
    (∀ l', Runs l l' → l'.observations.session = l.observations.session → ∀ c v,
      l.observations.value? c = some v → ∃ v', l'.observations.value? c = some v' ∧ v ≤ v') ∧
    (∀ c value ticket now, ticket ∈ l.issued →
      (l.observations.observe c value ticket now).1 ≠ .ok true →
        (l.observations.observe c value ticket now).2 = l.observations) ∧
    (∀ c now ttl v, l.observations.cached? c now ttl = some v →
      l.observations.value? c = some v ∧
        ∀ d ∈ c.dominated, ∀ u, l.observations.value? d = some u → u ≤ v) ∧
    ∀ c, ∀ d ∈ c.dominated, ∀ now ttl now' ttl' v u,
      l.observations.cached? c now ttl = some v → l.observations.cached? d now' ttl' = some u →
        u ≤ v := by
  obtain ⟨hcoherent, hdated⟩ := coherent_of_runs h
  refine ⟨?_, ?_, ?_, ?_⟩
  · intro l' hruns hsession c v hv
    exact Runs.value_le hruns hdated hsession hv
  · intro c value ticket now _ hne
    obtain ⟨-, he⟩ | ⟨-, he⟩ | ⟨-, -, _, he⟩ :=
      l.observations.observe_cases c value ticket now
    · rw [he] at hne
      exact absurd rfl hne
    · rw [he]
    · rw [he]
  · intro c now ttl v hc
    exact ⟨Observations.value?_of_cached hc, fun d hd u hu => hcoherent.le_of_cached hc hd hu⟩
  · intro c d hd now ttl now' ttl' v u hc hu
    -- the dominated count that is served is the one last recorded
    exact hcoherent.le_of_cached hc hd (Observations.value?_of_cached hu)

/-! ## Counts that are not ordered -/

/-- Issues a query. -/
def issue (l : Ledger) : Ledger := ⟨l.observations.issue.2, l.observations.issue.1 :: l.issued⟩

/-- Checks an answer to the query that was issued at a clock. -/
def observe (l : Ledger) (c : Counter) (value issued : Nat) : Ledger :=
  ⟨(l.observations.observe c (.ofNat value) ⟨0, issued⟩ 0).2, l.issued⟩

/-- The safe count is asked for first and answered last; then the finalized count is asked for
again. -/
def crossed : Ledger :=
  let late := (Ledger.issue (Ledger.issue {})).observe .finalized 50 2
  let target := (late.observe .safe 45 1).issue.observe .syncTarget 60 5
  target.issue.observe .finalized 52 7

lemma runs_crossed : Runs {} crossed := by
  refine ReflTransGen.refl.tail .issues |>.tail .issues |>.tail (.observes ?_ ..)
    |>.tail (.observes ?_ ..) |>.tail .issues |>.tail (.observes ?_ ..) |>.tail .issues
    |>.tail (.observes ?_ ..)
  all_goals decide

/-- The counts recorded are not ordered, and those served are. -/
theorem served_counts_ordered_crossed :
    crossed.observations.value? .safe = some (.ofNat 45) ∧
      crossed.observations.cached? .safe 0 1 = none ∧
      crossed.observations.cached? .finalized 0 1 = some (.ofNat 52) ∧
      crossed.observations.cached? .syncTarget 0 1 = some (.ofNat 60) ∧
      MessageIndex.ofNat 52 ≤ .ofNat 60 := by
  have hfinalized : crossed.observations.cached? .finalized 0 1 = some (.ofNat 52) := by decide
  have htarget : crossed.observations.cached? .syncTarget 0 1 = some (.ofNat 60) := by decide
  obtain ⟨-, -, -, hordered⟩ := served_counts_ordered runs_crossed
  exact ⟨by decide, by decide, hfinalized, htarget,
    hordered .syncTarget .finalized (by decide) 0 1 0 1 _ _ htarget hfinalized⟩

end Ledger

end ConsensusLink
