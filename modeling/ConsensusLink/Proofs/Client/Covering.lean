import ConsensusLink.Proofs.Client.Fulfilment
/-!
# Every pending promise is owed

A promise that is not settled is owed by a job or by the coordinator: it was handed out together
with a job or a request, and neither is over before the promise is settled. So nothing is pending
when no job is left and the coordinator has nothing to do.
-/

namespace ConsensusLink.Situation

open Promise Relation Client

variable {σ φ : Type} {s s' : Situation σ φ} {moves : σ → σ → Prop} {e : Event σ} {p : Id}

/-- Every pending promise is owed, by a job or by the coordinator. -/
def Covered (s : Situation σ φ) : Prop :=
  ∀ p, s.client.promises.Pending p →
    (∃ i job, s.client.Owes i job p) ∨ ∃ r, (r, p) ∈ s.duties

/-- Promises are handed out only if something is asked for. -/
lemma Owned.known_before (h : s.Owned) (he : ∀ a, e ≠ .ask a)
    (hp : (s.after e).client.promises.Known p) : s.client.promises.Known p := by
  cases e with
  | ask a => exact absurd rfl (he a)
  | order o =>
    obtain ⟨_, _, _, _, _, _, _, _, hc, -⟩ := obey_eq s.client o
    rw [Situation.after, hc] at hp
    exact hp
  | job i =>
    have heff := turn_effect i h.no_direct
    rw [Situation.after] at hp
    generalize s.client.turn (.task i) = c at heff hp
    cases heff with
    | stays => exact hp
    | @job job q stage _ hi heff =>
      have howes : s.client.Owes i job q := ⟨stage, hi⟩
      obtain ⟨_, _, _, _, _, _, _, _, _, _, rfl, -, -, hcase⟩ :=
        heff.outline (h.jobs_pending i job q howes) (h.jobs_read i job q howes)
      obtain ⟨rfl, -⟩ | ⟨-, _, _, -, hset⟩ := hcase
      · exact hp
      · exact (hset.known p).1 hp
    | service => exact hp
  | advance =>
    obtain ⟨-, -, -, _, _, hset, -⟩ := h.advances_outline h.advances
    exact (hset.known p).1 hp
  | clock schedule => exact hp
  | node n => exact hp

/-- Who owes a promise, owes it until it is settled. -/
lemma Owned.covered_of_known (h : s.Owned) (hc : s.Covered) (hknown : s.client.promises.Known p)
    (hp : (s.after e).client.promises.Pending p) :
    (∃ i job, (s.after e).client.Owes i job p) ∨ ∃ r, (r, p) ∈ (s.after e).duties := by
  have hpersists := h.persists_after e
  have hbefore : s.client.promises.Pending p := by
    refine Store.pending_of_known hknown (Option.eq_none_iff_forall_ne_some.2 fun o ho => ?_)
    cases hp.outcome?_eq.symm.trans (hpersists.outcome p o ho)
  obtain ⟨i, job, stage, hi⟩ | ⟨r, hr⟩ := hc p hbefore
  · by_cases he : e = .job i
    · subst he
      obtain ho | ⟨-, o, -, ho, -⟩ := h.ends_after hi
      · exact .inl ⟨i, job, ho⟩
      · cases hp.outcome?_eq.symm.trans ho
    · exact .inl ⟨i, job, h.owes_after ⟨stage, hi⟩ he⟩
  · by_cases he : e = .advance
    · subst he
      have hfate := h.advances.fate hr
      cases hfate with
      | stays hr' => exact .inr ⟨r, hr'⟩
      | rejected _ ho => cases hp.outcome?_eq.symm.trans ho
      | concluded _ ho => cases hp.outcome?_eq.symm.trans ho
      | answered _ _ ho => cases hp.outcome?_eq.symm.trans ho
    · have haside := h.aside_of_ne he
      exact .inr ⟨r, haside.duties_prefix.subset hr⟩

/-- What is handed out pending is owed from the start. -/
lemma covered_of_new {a : Ask} (hknown : ¬s.client.promises.Known p)
    (hp : (s.after (.ask a)).client.promises.Pending p) :
    (∃ i job, (s.after (.ask a)).client.Owes i job p) ∨
      ∃ r, (r, p) ∈ (s.after (.ask a)).duties := by
  have heff := take_effect s.client a
  rw [Situation.after] at hp ⊢
  generalize s.client.take a = qc at heff hp
  obtain ⟨q, c⟩ := qc
  dsimp only at heff hp ⊢
  cases heff with
  | reuses => exact absurd hp.known hknown
  | answers hout ho =>
    obtain rfl := ((hout.known p).1 hp.known).resolve_left hknown
    cases hp.outcome?_eq.symm.trans ho
  | submits _ hout =>
    obtain rfl := ((hout.known p).1 hp.known).resolve_left hknown
    exact .inl ⟨_, _, .waiting, List.getElem?_concat_length⟩
  | @queues r _ _ hout =>
    obtain rfl := ((hout.known p).1 hp.known).resolve_left hknown
    have hqueue : (r, p) ∈ s.client.coordinator.queue ++ [(r, p)] := by simp
    exact .inr ⟨r, List.mem_append_right _ hqueue⟩

lemma Owned.covered_after (h : s.Owned) (hc : s.Covered) (e : Event σ) : (s.after e).Covered := by
  intro p hp
  by_cases hknown : s.client.promises.Known p
  · exact h.covered_of_known hc hknown hp
  · by_cases he : ∃ a, e = .ask a
    · obtain ⟨a, rfl⟩ := he
      exact covered_of_new hknown hp
    · exact absurd (h.known_before (fun a ha => he ⟨a, ha⟩) hp.known) hknown

/-- **Nothing is forgotten.** Along every run each pending promise is owed. -/
theorem covered_of_runs {config : ClientConfig} {remote : Remote σ φ} {node : σ}
    (hr : Runs moves (fresh config remote node) s) : s.Covered := by
  induction hr with
  | refl =>
    rintro p ⟨ks, hk⟩
    cases hk
  | tail hr hstep ih =>
    obtain ⟨e, -, rfl⟩ := hstep
    exact (owned_of_runs hr).covered_after ih e

end ConsensusLink.Situation
