import ConsensusLink.Proofs.Progress.Queries
import ConsensusLink.Proofs.Progress.Recording
/-!
# The queries of a session

`Orderly` collects what holds of the queries of a client whatever the node answers: a query of the
current session is the only one of its count and is noted to be under way until it ends, and nothing
was recorded of its count since it was issued. Along a run the observations change as in a ledger,
so that they are coherent, and while a session lasts no recorded count decreases.
-/

namespace ConsensusLink.Situation

open Promise Relation Client

variable {σ φ : Type} {s s' : Situation σ φ}

/-- What holds of queries and observations, whatever the node answers. A query is of this session if
its ticket is. -/
structure Orderly (s : Situation σ φ) : Prop where
  watched : Watched s.client.promises s.client.tracker
  coherent : s.observations.Coherent
  /-- A query of this session is noted to be under way. -/
  underWay : ∀ i k t p, s.client.Owes i (.query k t) p → t.session = s.observations.session →
    s.client.tracker.pending? k = some p
  /-- What is noted to be under way is a query of this session. -/
  pending : ∀ k p, s.client.tracker.pending? k = some p →
    ∃ i t, s.client.Owes i (.query k t) p ∧ t.session = s.observations.session
  session : ∀ i k t p, s.client.Owes i (.query k t) p → t.session ≤ s.observations.session
  issued : ∀ i k t p, s.client.Owes i (.query k t) p → t.issued ≤ s.observations.clock
  /-- Nothing was recorded of a count since its query was issued. -/
  own : ∀ i k t p o, s.client.Owes i (.query k t) p → t.session = s.observations.session →
    s.observations.latest.get k = some o → o.recorded < t.issued

lemma Quiet.evolves {turn : Option Nat} (h : s.Quiet s' turn) :
    s.observations.Evolves s'.observations := by
  obtain h | h := h.observations
  · rw [h]
    exact .stays
  · rw [h]
    exact .issues

lemma Issues.evolves {k : Counter} {p : Id} (h : s.Issues s' k p) :
    s.observations.Evolves s'.observations := by
  rw [h.observations]
  exact .issues

namespace Orderly

lemma fresh (config : ClientConfig) (remote : Remote σ φ) (node : σ) :
    Orderly (fresh config remote node) where
  watched := ⟨fun _ _ _ h => (nomatch h), by rintro (_ | _ | _) p ⟨⟩⟩
  coherent := Observations.coherent_empty
  underWay := by rintro i k t p ⟨stage, h⟩; cases h
  pending := by rintro (_ | _ | _) p ⟨⟩
  session := by rintro i k t p ⟨stage, h⟩; cases h
  issued := by rintro i k t p ⟨stage, h⟩; cases h
  own := by rintro i k t p o ⟨stage, h⟩; cases h

lemma evolves_records (h : s.Orderly) {i : Nat} {k : Counter} {t : Ticket} {p : Id}
    {v : MessageIndex} (hr : s.Records s' i k t v) (howes : s.client.Owes i (.query k t) p) :
    s.observations.Evolves s'.observations := by
  rw [hr.observations]
  exact .records hr.passes (h.issued i k t p howes)

/-- Queries that are noted to be under way, and were so before, go on. -/
lemma pending_of_tidy (h : s.Orderly) {turn : Option Nat} (ht : s.Tidy s' turn)
    (hs : s'.observations.session = s.observations.session) {k : Counter} {p : Id}
    (hp : s.client.tracker.pending? k = some p) (hp' : s'.client.tracker.pending? k = some p) :
    ∃ i t, s'.client.Owes i (.query k t) p ∧ t.session = s'.observations.session := by
  obtain ⟨i, t, ho, hsession⟩ := h.pending k p hp
  exact ⟨i, t, ht.still_owes hp' ho, hsession.trans hs.symm⟩

lemma quiet (h : s.Orderly) {turn : Option Nat} (hq : s.Quiet s' turn) : s'.Orderly where
  watched := hq.watched
  coherent := h.coherent.evolves hq.evolves
  underWay i k t p ho hs :=
    hq.underWay i k t p ho (hq.queries i k t p ho)
      (h.underWay i k t p (hq.queries i k t p ho) (hs.trans hq.session))
  pending k p hp := h.pending_of_tidy hq.toTidy hq.session (hq.earlier k p hp) hp
  session i k t p ho := hq.session ▸ h.session i k t p (hq.queries i k t p ho)
  issued i k t p ho := Nat.le_trans (h.issued i k t p (hq.queries i k t p ho)) hq.clock
  own i k t p o ho hs hl :=
    h.own i k t p o (hq.queries i k t p ho) (hs.trans hq.session) (hq.latest ▸ hl)

/-- A query is issued: it is the only one of its count, and it is issued after all that was
recorded. -/
lemma issues (h : s.Orderly) {k : Counter} {p : Id} (hi : s.Issues s' k p) : s'.Orderly := by
  have hlatest : s'.observations.latest = s.observations.latest := by rw [hi.observations]; rfl
  have hsession : s'.observations.session = s.observations.session := by rw [hi.observations]; rfl
  have hclock : s'.observations.clock = s.observations.clock + 1 := by rw [hi.observations]; rfl
  refine
    { watched := hi.watched
      coherent := h.coherent.evolves hi.evolves
      underWay := fun i k' t q ho hs => ?_
      pending := fun k' q hq => ?_
      session := fun i k' t q ho => ?_
      issued := fun i k' t q ho => ?_
      own := fun i k' t q o ho hs hl => ?_ }
  · obtain ho' | ⟨rfl, -, rfl⟩ := hi.queries i k' t q ho
    · exact hi.underWay i k' t q ho ho' (h.underWay i k' t q ho' (hs.trans hsession))
    · exact hi.self
  · by_cases hk : k' = k
    · -- what is noted is the query that is issued now
      subst hk
      cases hi.self.symm.trans hq
      obtain ⟨i, ho⟩ := hi.owed
      exact ⟨i, _, ho, hsession.symm⟩
    · exact h.pending_of_tidy hi.toTidy hsession ((hi.others k' hk).symm.trans hq) hq
  · rw [hsession]
    obtain ho' | ⟨-, rfl, -⟩ := hi.queries i k' t q ho
    · exact h.session i k' t q ho'
    · exact Nat.le_refl _
  · rw [hclock]
    obtain ho' | ⟨-, rfl, -⟩ := hi.queries i k' t q ho
    · exact Nat.le_succ_of_le (h.issued i k' t q ho')
    · exact Nat.le_refl _
  · rw [hlatest] at hl
    obtain ho' | ⟨-, rfl, -⟩ := hi.queries i k' t q ho
    · exact h.own i k' t q o ho' (hs.trans hsession) hl
    · -- the clock has passed all that was recorded before
      exact Nat.lt_succ_of_le (h.coherent.recorded k' o hl)

/-- An answer is recorded: no other query of this count and session is there. -/
lemma records (h : s.Orderly) (howned : s.Owned) {i : Nat} {k : Counter} {t : Ticket} {p : Id}
    {v : MessageIndex} (hr : s.Records s' i k t v) (howes : s.client.Owes i (.query k t) p) :
    s'.Orderly := by
  have hsame : s'.observations.session = s.observations.session := by rw [hr.observations]; rfl
  have hclock : s'.observations.clock = s.observations.clock + 1 := by rw [hr.observations]; rfl
  refine
    { watched := hr.watched
      coherent := h.coherent.evolves (h.evolves_records hr howes)
      underWay := fun j k' t' q ho hs => ?_
      pending := fun k' q hq => h.pending_of_tidy hr.toTidy hsame (hr.earlier k' q hq) hq
      session := fun j k' t' q ho => hsame ▸ h.session j k' t' q (hr.queries j k' t' q ho).1
      issued := fun j k' t' q ho => ?_
      own := fun j k' t' q o ho hs hl => ?_ }
  · obtain ⟨ho', -⟩ := hr.queries j k' t' q ho
    exact hr.underWay j k' t' q ho ho' (h.underWay j k' t' q ho' (hs.trans hsame))
  · rw [hclock]
    exact Nat.le_succ_of_le (h.issued j k' t' q (hr.queries j k' t' q ho).1)
  · obtain ⟨ho', hne⟩ := hr.queries j k' t' q ho
    rw [hr.observations] at hl
    by_cases hk : k' = k
    · -- both queries would be the one that is under way
      subst hk
      have hq := h.underWay j k' t' q ho' (hs.trans hsame)
      cases hq.symm.trans (h.underWay i k' t p howes hr.passes.session)
      exact absurd (howned.jobs_once j i _ _ _ ho' howes) hne
    · rw [Observations.latest_record_of_ne hk] at hl
      exact h.own j k' t' q o ho' (hs.trans hsame) hl

lemma polls (h : s.Orderly) (howned : s.Owned) {e : Event σ} (hp : s.Polls e) :
    (s.after e).Orderly := by
  cases hp with
  | quiet hq => exact h.quiet hq
  | issues hi => exact h.issues hi
  | records hr howes => exact h.records howned hr howes

/-- Queries that were issued before a new session are not of this session. -/
lemma newSession (h : s.Orderly) : Orderly (s.after (.order .newSession)) where
  watched := ⟨h.watched.own, by rintro (_ | _ | _) p ⟨⟩⟩
  coherent := h.coherent.evolves .restarts
  underWay i k t p ho hs := by
    have hle := h.session i k t p ho
    rw [show t.session = s.observations.session + 1 from hs] at hle
    exact absurd hle (Nat.not_succ_le_self _)
  pending := by rintro (_ | _ | _) p ⟨⟩
  session i k t p ho := Nat.le_succ_of_le (h.session i k t p ho)
  issued := h.issued
  own := by rintro i (_ | _ | _) t p o - - ⟨⟩

lemma after (h : s.Orderly) (howned : s.Owned) (e : Event σ) : (s.after e).Orderly := by
  by_cases he : e = .order .newSession
  · subst he
    exact h.newSession
  · exact h.polls howned (howned.polls h.watched he)

/-- The observations of a client change as in a ledger. -/
lemma evolves_after (h : s.Orderly) (howned : s.Owned) (e : Event σ) :
    s.observations.Evolves (s.after e).observations := by
  by_cases he : e = .order .newSession
  · subst he
    exact .restarts
  · cases howned.polls h.watched he with
    | quiet hq => exact hq.evolves
    | issues hi => exact hi.evolves
    | records hr howes => exact h.evolves_records hr howes

end Orderly

/-- Along every run. -/
theorem orderly_of_runs {config : ClientConfig} {remote : Remote σ φ} {node : σ}
    {moves : σ → σ → Prop} (h : Runs moves (fresh config remote node) s) : s.Orderly := by
  induction h with
  | refl => exact .fresh config remote node
  | tail hruns hstep ih =>
    obtain ⟨e, -, rfl⟩ := hstep
    exact ih.after (owned_of_runs hruns) e

end ConsensusLink.Situation
