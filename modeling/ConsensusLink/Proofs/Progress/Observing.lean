import ConsensusLink.Progress.Tracker
import Mathlib.Tactic.Common
/-!
# Answers that agree with what was observed

An answer of a query is a *sample* of the counts of the node, taken at some moment since the query
was issued. If each observation that was recorded before this is at most the sample, and the sample
itself is ordered, then the check of the answer finds nothing to object to.
-/

namespace ConsensusLink

/-- The counts of an ordered triple grow with dominance. -/
lemma MessageCounts.get_le_get {t : MessageCounts} (h : t.isOrdered = true) {c d : Counter}
    (hd : d.rank ≤ c.rank) : t.get d ≤ t.get c := by
  obtain ⟨hlow, hhigh⟩ := (MessageCounts.isOrdered_iff t).1 h
  have hall : t.finalized ≤ t.target := Nat.le_trans hlow hhigh
  cases c <;> cases d
  case finalized.finalized | safe.safe | syncTarget.syncTarget => exact Nat.le_refl _
  case safe.finalized => exact hlow
  case syncTarget.safe => exact hhigh
  case syncTarget.finalized => exact hall
  all_goals exact absurd hd (by decide)

namespace Observations

variable {s : Observations} {c : Counter} {value : MessageIndex} {ticket : Ticket} {now : Nat}

/-- The observation of an answer that is recorded now. -/
def record (s : Observations) (c : Counter) (value : MessageIndex) (ticket : Ticket) (now : Nat) :
    Observations :=
  { s with
    latest := s.latest.set c (some ⟨value, now, ticket.issued, s.clock + 1⟩)
    clock := s.clock + 1 }

/-- An answer is a sample of ordered counts, none of which is below what was recorded before its
query was issued; and nothing was recorded of this count since. -/
structure Admits (s : Observations) (c : Counter) (value : MessageIndex) (ticket : Ticket)
    (sample : MessageCounts) : Prop where
  ordered : sample.isOrdered = true
  value : value = sample.get c
  own : ∀ o, s.latest.get c = some o → o.recorded < ticket.issued
  bound : ∀ d o, s.latest.get d = some o → o.recorded < ticket.issued → o.value ≤ sample.get d

/-- An answer passes the check: its query is of this session, it is not below what was recorded of
its count, and not below what was recorded, before its query was issued, of a dominated count. -/
structure Passes (s : Observations) (c : Counter) (value : MessageIndex) (ticket : Ticket) :
    Prop where
  session : ticket.session = s.session
  own : ∀ o, s.latest.get c = some o → o.value ≤ value
  bound : ∀ d ∈ c.dominated, ∀ o, s.latest.get d = some o → o.recorded < ticket.issued →
    o.value ≤ value

/-- The answer of a query of an earlier session is not looked at. -/
lemma observe_of_session_ne (h : ticket.session ≠ s.session) :
    s.observe c value ticket now = (.ok false, s) := by
  rw [observe, if_pos h]

lemma bound?_eq_none_iff {issued : Nat} :
    s.bound? c value issued = none ↔
      ∀ d ∈ c.dominated, ∀ o, s.latest.get d = some o → o.recorded < issued → o.value ≤ value := by
  rw [bound?, List.findSome?_eq_none_iff]
  refine forall_congr' fun d => imp_congr_right fun _ => ?_
  cases s.latest.get d with
  | none => simp
  | some o => simp [Observation.precedes, MessageIndex.lt_def, MessageIndex.le_def]

lemma own_iff :
    (∀ o, s.latest.get c = some o → o.value ≤ value) ↔
      ∀ previous, s.value? c = some previous → ¬value < previous := by
  have hnot : ∀ i j : MessageIndex, ¬i < j ↔ j ≤ i := fun _ _ => Nat.not_lt
  cases h : s.latest.get c <;> simp [value?, h, hnot]

/-- The check of an answer of a query of this session, once it is not below the one before. -/
lemma observe_eq_check (hsession : ticket.session = s.session)
    (hown : ∀ o, s.latest.get c = some o → o.value ≤ value) :
    s.observe c value ticket now = observe.check s c value ticket now := by
  rw [observe, if_neg (not_not_intro hsession)]
  split
  · rename_i previous hv
    exact if_neg (own_iff.1 hown previous hv)
  · rfl

/-- An answer that passes is recorded. -/
lemma Passes.observe_eq (h : s.Passes c value ticket) :
    s.observe c value ticket now = (.ok true, s.record c value ticket now) := by
  rw [observe_eq_check h.session h.own, observe.check, bound?_eq_none_iff.2 h.bound]
  rfl

/-- An answer passes and is recorded, or is of an earlier session, or is rejected. -/
lemma observe_cases (s : Observations) (c : Counter) (value : MessageIndex) (ticket : Ticket)
    (now : Nat) :
    (s.Passes c value ticket ∧
      s.observe c value ticket now = (.ok true, s.record c value ticket now)) ∨
    (ticket.session ≠ s.session ∧ s.observe c value ticket now = (.ok false, s)) ∨
    (ticket.session = s.session ∧ ¬s.Passes c value ticket ∧
      ∃ e, s.observe c value ticket now = (.error e, s)) := by
  by_cases hsession : ticket.session = s.session
  · by_cases hpasses : s.Passes c value ticket
    · exact .inl ⟨hpasses, hpasses.observe_eq⟩
    · refine .inr (.inr ⟨hsession, hpasses, ?_⟩)
      by_cases hown : ∀ o, s.latest.get c = some o → o.value ≤ value
      · -- it is below a count that it dominates
        rcases hb : s.bound? c value ticket.issued with _ | ⟨d, bound⟩
        · exact absurd ⟨hsession, hown, bound?_eq_none_iff.1 hb⟩ hpasses
        · rw [observe_eq_check hsession hown, observe.check, hb]
          exact ⟨_, rfl⟩
      · -- it is below the one before
        rw [own_iff] at hown
        push Not at hown
        obtain ⟨previous, hv, hlt⟩ := hown
        rw [observe, if_neg (not_not_intro hsession), hv]
        simp only [hlt, if_true]
        exact ⟨_, rfl⟩
  · exact .inr (.inl ⟨hsession, observe_of_session_ne hsession⟩)

/-- Samples of ordered counts pass. -/
lemma Admits.passes {sample : MessageCounts} (h : s.Admits c value ticket sample)
    (hsession : ticket.session = s.session) : s.Passes c value ticket where
  session := hsession
  own o ho := by
    rw [h.value]
    exact h.bound c o ho (h.own o ho)
  bound d hd o ho hprec := by
    have hrank := Nat.le_of_lt (Counter.mem_dominated.1 hd)
    rw [h.value]
    exact Nat.le_trans (h.bound d o ho hprec) (MessageCounts.get_le_get h.ordered hrank)

lemma latest_record_self :
    (s.record c value ticket now).latest.get c =
      some ⟨value, now, ticket.issued, s.clock + 1⟩ :=
  PerCounter.get_set_self _ _ _

lemma latest_record_of_ne {d : Counter} (h : d ≠ c) :
    (s.record c value ticket now).latest.get d = s.latest.get d :=
  PerCounter.get_set_of_ne h _ _

end Observations

namespace Tracker

variable {t : Tracker} {c : Counter} {value : MessageIndex} {ticket : Ticket} {now : Nat}

/-- Which queries are under way does not depend on their answers. -/
lemma inFlight_answer : (t.answer c value ticket now).2.inFlight = t.inFlight := by
  have hobserve : (t.observe c value ticket now).2.inFlight = t.inFlight := rfl
  unfold answer
  split
  · rename_i he
    rw [he] at hobserve
    exact hobserve
  · rename_i he
    rw [he] at hobserve
    dsimp only
    split
    · unfold publish
      split <;> exact hobserve
    · exact hobserve

lemma publish_eq (t : Tracker) (value : MessageIndex) :
    ∃ finalityVersion, t.publish value = { t with finality := some value, finalityVersion } := by
  unfold publish
  split
  · rename_i h
    exact ⟨t.finalityVersion, by rw [← h]⟩
  · exact ⟨_, rfl⟩

/-- An answer passes, is handed on and recorded, and moves the finality mark if it is the finalized
count; or it is of an earlier session and handed on alone; or it is rejected. -/
lemma answer_cases (t : Tracker) (c : Counter) (value : MessageIndex) (ticket : Ticket)
    (now : Nat) :
    (t.observations.Passes c value ticket ∧ (t.answer c value ticket now).1 = .ok value ∧
      (t.answer c value ticket now).2.observations = t.observations.record c value ticket now ∧
      (t.answer c value ticket now).2.finality =
        if c = .finalized then some value else t.finality) ∨
    (ticket.session ≠ t.observations.session ∧ t.answer c value ticket now = (.ok value, t)) ∨
    (ticket.session = t.observations.session ∧ ¬t.observations.Passes c value ticket ∧
      ∃ e, t.answer c value ticket now = (.error e, t)) := by
  obtain ⟨hpasses, he⟩ | ⟨hsession, he⟩ | ⟨hsession, hpasses, e, he⟩ :=
    t.observations.observe_cases c value ticket now
  · refine .inl ⟨hpasses, ?_⟩
    rw [answer, observe, he]
    by_cases hc : c = .finalized
    · obtain ⟨version, hp⟩ :=
        publish_eq { t with observations := t.observations.record c value ticket now } value
      simp [hc ▸ hp, hc]
    · simp [hc]
  · refine .inr (.inl ⟨hsession, ?_⟩)
    rw [answer, observe, he]
    simp
  · refine .inr (.inr ⟨hsession, hpasses, e, ?_⟩)
    rw [answer, observe, he]

end Tracker

end ConsensusLink
