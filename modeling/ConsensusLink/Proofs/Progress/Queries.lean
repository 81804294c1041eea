import ConsensusLink.Proofs.Client.Debts
import ConsensusLink.Proofs.Progress.Observing
/-!
# Queries of counts

A query of a count is a job. Whoever asks for a count is handed the promise of a query, or one that
is settled already. `Tidy` says what every event leaves as it should be, whatever the node answers:
queries that remain are still noted to be under way, outcomes stay, and a query that ends accuses
the node only of what the node has done. `Owned.polls` sorts the events by what else they do to the
counts: nothing, issue a query, or record an answer.
-/

namespace ConsensusLink

open Promise Relation Client

variable {σ φ : Type}

/-- Whether a failure accuses the node of having contradicted itself about its counts. -/
def Failure.Accuses : Failure → Prop
  | .nonMonotonic .. | .orderViolation .. => True
  | _ => False

/-- The task that has its turn in an event. -/
def Event.turn? : Event σ → Option Nat
  | .job i => some i
  | _ => none

/-! ## What is watched -/

/-- How the ends of queries are awaited. -/
structure Watched (promises : Store Answer Failure Follow) (t : Tracker) : Prop where
  /-- The end of a query is awaited at its own promise only. -/
  own : ∀ p k q, Follow.counted k q ∈ promises.continuations p → q = p
  /-- The end of a query that is noted to be under way is awaited. -/
  underWay : ∀ k q, t.pending? k = some q → Follow.counted k q ∈ promises.continuations q

namespace Watched

variable {promises promises' : Store Answer Failure Follow} {t t' : Tracker} {p : Id}

/-- What is noted to be under way is not settled. -/
lemma outcome?_eq (h : Watched promises t) {k : Counter} (hp : t.pending? k = some p) :
    promises.outcome? p = none := by
  by_contra hne
  obtain ⟨o, ho⟩ := Option.ne_none_iff_exists'.1 hne
  have hmem := h.underWay k p hp
  rw [Store.continuations_of_outcome ho] at hmem
  cases hmem

lemma congr (h : Watched promises t) (ht : t'.inFlight = t.inFlight) : Watched promises t' where
  own := h.own
  underWay k q hq := by
    rw [Tracker.pending?, ht] at hq
    exact h.underWay k q hq

lemma handsOut (h : Watched promises t) (hout : promises.HandsOut promises' p)
    (hp : ∀ k q, Follow.counted k q ∈ promises'.continuations p → q = p)
    (ht : ∀ k q, t'.pending? k = some q →
      t.pending? k = some q ∨ Follow.counted k q ∈ promises'.continuations q) :
    Watched promises' t' where
  own r k q hmem := by
    by_cases hr : r = p
    · subst hr
      exact hp k q hmem
    · have hknown := ((hout.known r).1 (Store.known_of_mem_continuations hmem)).resolve_right hr
      rw [Store.continuations, hout.cells r hknown] at hmem
      exact h.own r k q hmem
  underWay k q hq := by
    obtain hq | hmem := ht k q hq
    · have hmem := h.underWay k q hq
      rwa [Store.continuations, hout.cells q (Store.known_of_mem_continuations hmem)]
    · exact hmem

lemma settling {b b' : Books} (h : Watched b.promises b.tracker) {ps : List Id}
    {o : Outcome Answer} (hset : Settling b b' ps o) : Watched b'.promises b'.tracker where
  own r k q hmem := by
    by_cases hr : r ∈ ps
    · rw [Store.continuations_of_outcome (hset.outcome r hr)] at hmem
      cases hmem
    · rw [Store.continuations, hset.others r hr] at hmem
      exact h.own r k q hmem
  underWay k q hq := by
    obtain ⟨hq, hended⟩ := (hset.frees.pending k q).1 hq
    have hmem := h.underWay k q hq
    rwa [Store.continuations, hset.others q fun hps => hended ⟨q, hps, hmem⟩]

end Watched

namespace Situation

variable {s s' : Situation σ φ} {p : Id}

/-- What was observed of the counts. -/
def observations (s : Situation σ φ) : Observations := s.client.tracker.observations

/-- A promise is owed by a query, or has an outcome that accuses nobody. -/
def Fair (s : Situation σ φ) (p : Id) : Prop :=
  (∃ i k t, s.client.Owes i (.query k t) p) ∨
    ∃ o, s.client.promises.outcome? p = some o ∧ ∀ e, o = .error e → ¬e.Accuses

/-- In its turn a task is given an answer of the node to its query. -/
def Hears (s : Situation σ φ) (i : Nat) (k : Counter) (t : Ticket) (result : Outcome Answer) :
    Prop :=
  ∃ p stage retry node, s.client.tasks[i]? = some (.job (.query k t) p stage) ∧
    s.client.JobTries (.query k t) stage retry (.ends result) node

/-- What can be said of the outcome with which a query ends. -/
structure Ended (s s' : Situation σ φ) (i : Nat) (k : Counter) (t : Ticket) (o : Outcome Answer) :
    Prop where
  /-- It accuses the node only if the node accuses itself, or if its answer does not pass. -/
  accuses : ∀ e, o = .error e → e.Accuses → s.Hears i k t (.error e) ∨
    ∃ v, s.Hears i k t (.ok (.count v)) ∧ t.session = s.observations.session ∧
      ¬s.observations.Passes k v t
  /-- A count that is given to a query of this session has passed and is recorded. -/
  records : ∀ v, o = .ok (.count v) → t.session = s.observations.session →
    s.observations.Passes k v t ∧ s'.observations = s.observations.record k v t s.client.now

/-- What every event leaves as it should be, for the task that has its turn in it. -/
structure Tidy (s s' : Situation σ φ) (turn : Option Nat) : Prop where
  /-- What is watched. -/
  watched : Watched s'.client.promises s'.client.tracker
  /-- The queries that were there before are still noted to be under way. -/
  underWay : ∀ i k t p, s'.client.Owes i (.query k t) p → s.client.Owes i (.query k t) p →
    s.client.tracker.pending? k = some p → s'.client.tracker.pending? k = some p
  /-- Outcomes stay. -/
  outcomes : ∀ p o, s.client.promises.outcome? p = some o → s'.client.promises.outcome? p = some o
  /-- Queries go on until they end in their turn. -/
  ends : ∀ i k t p, s.client.Owes i (.query k t) p → s'.client.Owes i (.query k t) p ∨
    turn = some i ∧ ∃ o, s'.client.promises.outcome? p = some o ∧ s.Ended s' i k t o
  /-- Whoever asks for a count now is handed a promise that accuses nobody, or that of the query
  under way. -/
  asked : ∀ p k, (p, Ask.count k) ∈ s'.asked →
    (p, Ask.count k) ∈ s.asked ∨ s'.Fair p ∨ s.client.tracker.pending? k = some p

/-- An event of which the counts learn nothing: at most a query is issued in vain. -/
structure Quiet (s s' : Situation σ φ) (turn : Option Nat) : Prop extends Tidy s s' turn where
  observations : s'.observations = s.observations ∨ s'.observations = s.observations.issue.2
  /-- There are no new queries. -/
  queries : ∀ i k t p, s'.client.Owes i (.query k t) p → s.client.Owes i (.query k t) p
  /-- None is noted to be under way that was not before. -/
  earlier : ∀ k p, s'.client.tracker.pending? k = some p → s.client.tracker.pending? k = some p

/-- A query is issued. -/
structure Issues (s s' : Situation σ φ) (k : Counter) (p : Id) : Prop extends
    Tidy s s' none where
  observations : s'.observations = s.observations.issue.2
  /-- No query of this count was under way. -/
  free : s.client.tracker.pending? k = none
  self : s'.client.tracker.pending? k = some p
  others : ∀ k', k' ≠ k → s'.client.tracker.pending? k' = s.client.tracker.pending? k'
  queries : ∀ i k' t q, s'.client.Owes i (.query k' t) q →
    s.client.Owes i (.query k' t) q ∨ k' = k ∧ t = s.observations.issue.1 ∧ q = p
  owed : ∃ i, s'.client.Owes i (.query k s.observations.issue.1) p

/-- A query of this session ends with the answer `v`. -/
structure Records (s s' : Situation σ φ) (i : Nat) (k : Counter) (t : Ticket) (v : MessageIndex) :
    Prop extends Tidy s s' (some i) where
  observations : s'.observations = s.observations.record k v t s.client.now
  passes : s.observations.Passes k v t
  /-- The query is done. -/
  queries : ∀ j k' t' q, s'.client.Owes j (.query k' t') q →
    s.client.Owes j (.query k' t') q ∧ j ≠ i
  earlier : ∀ k p, s'.client.tracker.pending? k = some p → s.client.tracker.pending? k = some p

variable {turn : Option Nat}

lemma Fair.of_outcome {o : Outcome Answer} (h : s.client.promises.outcome? p = some o)
    (ho : ∀ e, o = .error e → ¬e.Accuses) : s.Fair p := .inr ⟨o, h, ho⟩

lemma Ended.of_harmless {i : Nat} {k : Counter} {t : Ticket} {o : Outcome Answer}
    (he : ∀ e, o = .error e → ¬e.Accuses) (ho : ∀ v, o ≠ .ok (.count v)) : s.Ended s' i k t o where
  accuses e h h' := absurd h' (he e h)
  records v h := absurd h (ho v)

/-- A query that is noted to be under way has not ended. -/
lemma Tidy.still_owes (h : s.Tidy s' turn) {i : Nat} {k k' : Counter} {t : Ticket}
    (hp : s'.client.tracker.pending? k' = some p) (ho : s.client.Owes i (.query k t) p) :
    s'.client.Owes i (.query k t) p := by
  obtain ho' | ⟨-, o, ho', -⟩ := h.ends i k t p ho
  · exact ho'
  · cases (h.watched.outcome?_eq hp).symm.trans ho'

namespace Quiet

lemma latest (h : s.Quiet s' turn) : s'.observations.latest = s.observations.latest := by
  obtain h | h := h.observations <;> rw [h]
  rfl

lemma session (h : s.Quiet s' turn) : s'.observations.session = s.observations.session := by
  obtain h | h := h.observations <;> rw [h]
  rfl

lemma clock (h : s.Quiet s' turn) : s.observations.clock ≤ s'.observations.clock := by
  obtain h | h := h.observations
  · exact Nat.le_of_eq (congrArg Observations.clock h.symm)
  · rw [h]
    exact Nat.le_succ _

end Quiet

/-! ## Quiet events -/

/-- Neither promises nor counts change. -/
lemma Quiet.of_same (hwatched : Watched s.client.promises s.client.tracker)
    (hpromises : s'.client.promises = s.client.promises)
    (htracker : s'.client.tracker = s.client.tracker)
    (howes : ∀ i k t p, s'.client.Owes i (.query k t) p ↔ s.client.Owes i (.query k t) p)
    (hasked : ∀ p k, (p, Ask.count k) ∈ s'.asked →
      (p, Ask.count k) ∈ s.asked ∨ s.client.tracker.pending? k = some p) : s.Quiet s' turn where
  watched := by rwa [hpromises, htracker]
  underWay _ _ _ _ _ _ hp := htracker ▸ hp
  outcomes _ _ ho := hpromises ▸ ho
  ends i k t p ho := .inl ((howes i k t p).2 ho)
  asked p k hp := (hasked p k hp).imp_right .inr
  observations := .inl (congrArg Tracker.observations htracker)
  queries i k t p := (howes i k t p).1
  earlier _ _ hp := htracker ▸ hp

/-- Promises are settled that no job owes. -/
lemma Quiet.of_settling (hwatched : Watched s.client.promises s.client.tracker) {ps : List Id}
    {o : Outcome Answer}
    (hset : Settling s.client.books s'.client.books ps o)
    (hps : ∀ p ∈ ps, s.client.promises.Pending p ∧ ∀ i job, ¬s.client.Owes i job p)
    (htasks : s'.client.tasks = s.client.tasks) (hasked : s'.asked = s.asked) :
    s.Quiet s' turn := by
  have howes : ∀ i job p, s'.client.Owes i job p ↔ s.client.Owes i job p := by
    intro i job p
    rw [Owes, htasks, Owes]
  refine
    { watched := hwatched.settling hset
      underWay := fun i k t p _ ho hp => (hset.frees.pending k p).2 ⟨hp, ?_⟩
      outcomes := fun p o' ho => ?_
      ends := fun i k t p ho => .inl ((howes i _ p).2 ho)
      asked := fun p k hp => .inl (hasked ▸ hp)
      observations := .inl hset.frees.observations
      queries := fun i k t p => (howes i _ p).1
      earlier := fun k p hp => ((hset.frees.pending k p).1 hp).1 }
  · rintro ⟨q, hq, hmem⟩
    obtain rfl := hwatched.own q k p hmem
    exact (hps p hq).2 i _ ho
  · refine (hset.outcome?_of_notMem fun hmem => ?_).trans ho
    cases (hps p hmem).1.outcome?_eq.symm.trans ho

/-- A step of the coordinator. -/
lemma Owned.quiet_advances (h : s.Owned)
    (hwatched : Watched s.client.promises s.client.tracker) (hadv : Advances s s') :
    s.Quiet s' turn := by
  obtain ⟨htasks, hasked, -, ps, o, hset, hps⟩ := h.advances_outline hadv
  exact .of_settling hwatched hset hps htasks hasked

/-- An order, unless it is to start a new session. -/
lemma quiet_order (hwatched : Watched s.client.promises s.client.tracker) {o : Order}
    (ho : o ≠ .newSession) : s.Quiet (s.after (.order o)) turn := by
  obtain ⟨_, _, _, _, _, services, _, _, hc, -, hservices, -, ht, -⟩ := obey_eq s.client o
  rw [after, hc, ht ho]
  have hjobs : ∀ job p stage, Task.job (φ := φ) job p stage ∉ services := by
    intro job p stage
    obtain rfl | rfl := hservices <;> simp
  refine .of_same hwatched rfl rfl (fun i k t p => ?_) fun _ _ => .inl
  exact ⟨fun hp => owes_append rfl hjobs hp, fun hp => hp.append rfl⟩

/-! ## Asking -/

/-- A promise is handed out that no query owes; a query may have been issued in vain. -/
lemma Quiet.of_handsOut (hwatched : Watched s.client.promises s.client.tracker)
    (hout : s.client.promises.HandsOut s'.client.promises p)
    (hp : ∀ k q, Follow.counted k q ∈ s'.client.promises.continuations p → q = p)
    (hobs : s'.observations = s.observations ∨ s'.observations = s.observations.issue.2)
    (hunderWay : ∀ k, s'.client.tracker.pending? k = s.client.tracker.pending? k)
    (howes : ∀ i k t q, s'.client.Owes i (.query k t) q ↔ s.client.Owes i (.query k t) q)
    (hasked : ∀ q k, (q, Ask.count k) ∈ s'.asked → (q, Ask.count k) ∈ s.asked ∨ s'.Fair q) :
    s.Quiet s' turn where
  watched := hwatched.handsOut hout hp fun k _ hq => .inl ((hunderWay k).symm.trans hq)
  underWay _ k _ _ _ _ hq := (hunderWay k).trans hq
  outcomes _ _ ho := (hout.outcome?_eq (Store.known_of_outcome ho)).trans ho
  ends i k t q ho := .inl ((howes i k t q).2 ho)
  asked q k hq := (hasked q k hq).imp_right .inl
  observations := hobs
  queries i k t q := (howes i k t q).1
  earlier k _ hq := (hunderWay k).symm.trans hq

/-- A promise is handed out together with a query that is to settle it. -/
lemma Issues.of_handsOut (hwatched : Watched s.client.promises s.client.tracker) {k : Counter}
    (h : s.client.promises.HandsOut s'.client.promises p)
    (hwatch : s'.client.promises.continuations p = [.counted k p])
    (hfree : s.client.tracker.pending? k = none)
    (hobs : s'.observations = s.observations.issue.2)
    (hself : s'.client.tracker.pending? k = some p)
    (hothers : ∀ k', k' ≠ k →
      s'.client.tracker.pending? k' = s.client.tracker.pending? k')
    (htasks : s'.client.tasks =
      s.client.tasks ++ [.job (.query k s.observations.issue.1) p .waiting])
    (hasked : s'.asked = (p, .count k) :: s.asked) : s.Issues s' k p := by
  have howed : s'.client.Owes s.client.tasks.length (.query k s.observations.issue.1) p :=
    ⟨.waiting, by rw [htasks, List.getElem?_concat_length]⟩
  have hold : ∀ k' q, s'.client.tracker.pending? k' = some q →
      s.client.tracker.pending? k' = some q ∨
        Follow.counted k' q ∈ s'.client.promises.continuations q := by
    intro k' q hq
    by_cases hk : k' = k
    · subst hk
      cases hself.symm.trans hq
      exact .inr (hwatch ▸ List.mem_singleton_self _)
    · exact .inl ((hothers k' hk).symm.trans hq)
  refine
    { watched := hwatched.handsOut h (by simp [hwatch]) hold
      underWay := fun i k' t q _ ho hq => ?_
      outcomes := fun q o ho => (h.outcome?_eq (Store.known_of_outcome ho)).trans ho
      ends := fun i k' t q ho => .inl (ho.append htasks)
      asked := fun q k' hq => ?_
      observations := hobs
      free := hfree
      self := hself
      others := hothers
      queries := fun i k' t q ho => ?_
      owed := ⟨_, howed⟩ }
  · -- no query of this count was under way
    by_cases hk : k' = k
    · subst hk
      cases hfree.symm.trans hq
    · exact (hothers k' hk).trans hq
  · rw [hasked] at hq
    rcases List.mem_cons.1 hq with he | hq
    · cases he
      exact .inr (.inl (.inl ⟨_, _, _, howed⟩))
    · exact .inl hq
  · obtain ho | ⟨he, rfl, -⟩ := owes_append_job htasks ho
    · exact .inl ho
    · cases he
      exact .inr ⟨rfl, rfl, rfl⟩

/-- Asking for a count. -/
lemma polls_count (hwatched : Watched s.client.promises s.client.tracker) (k : Counter) :
    s.Quiet (s.after (.ask (.count k))) none ∨
      ∃ p, s.Issues (s.after (.ask (.count k))) k p := by
  have heff := count_effect s.client k
  rw [after, Client.take]
  generalize s.client.count k = pc at heff
  obtain ⟨p, c⟩ := pc
  dsimp only at heff ⊢
  have hnew : ∀ {q k'}, (q, Ask.count k') ∈ (p, Ask.count k) :: s.asked →
      (q, Ask.count k') ∈ s.asked ∨ q = p ∧ k' = k := by
    intro q k' hq
    rcases List.mem_cons.1 hq with he | hq
    · cases he
      exact .inr ⟨rfl, rfl⟩
    · exact .inl hq
  cases heff with
  | serves h ho =>
    refine .inl (.of_handsOut hwatched h ?_ (.inl rfl) (fun _ => rfl) (fun _ _ _ _ => Iff.rfl) ?_)
    · rw [Store.continuations_of_outcome ho]
      rintro _ _ ⟨⟩
    · intro q k' hq
      refine (hnew hq).imp_right ?_
      rintro ⟨rfl, -⟩
      refine .of_outcome ho ?_
      rintro e ⟨⟩
  | joins h =>
    refine .inl (.of_same hwatched rfl rfl (fun _ _ _ _ => Iff.rfl) fun q k' hq => ?_)
    refine (hnew hq).imp_right ?_
    rintro ⟨rfl, rfl⟩
    exact h
  | refuses h ho he hobs _ hunderWay =>
    refine .inl (.of_handsOut hwatched h ?_ (.inr hobs) hunderWay (fun _ _ _ _ => Iff.rfl) ?_)
    · rw [Store.continuations_of_outcome ho]
      rintro _ _ ⟨⟩
    · intro q k' hq
      refine (hnew hq).imp_right ?_
      rintro ⟨rfl, -⟩
      refine .of_outcome ho ?_
      rintro e ⟨⟩
      obtain rfl | rfl := he <;> exact id
  | queries h hp hwatch hfree hobs _ hself hothers hdown =>
    exact .inr ⟨p, .of_handsOut hwatched h hwatch hfree hobs hself hothers rfl rfl⟩

/-- Asking for anything else. -/
lemma quiet_ask (hwatched : Watched s.client.promises s.client.tracker) {a : Ask}
    (ha : ∀ k, a ≠ .count k) : s.Quiet (s.after (.ask a)) turn := by
  have heff := take_effect s.client a
  rw [after]
  generalize s.client.take a = pc at heff
  obtain ⟨p, c⟩ := pc
  dsimp only at heff ⊢
  have hold : ∀ {q k}, (q, Ask.count k) ∈ (p, a) :: s.asked → (q, Ask.count k) ∈ s.asked := by
    intro q k hq
    refine (List.mem_cons.1 hq).resolve_left fun he => ?_
    exact ha k (congrArg Prod.snd he).symm
  cases heff with
  | reuses => exact .of_same hwatched rfl rfl (fun _ _ _ _ => Iff.rfl) fun _ _ hq => .inl (hold hq)
  | answers h ho hseq ht =>
    obtain rfl := ht ha
    refine .of_handsOut hwatched h ?_ (.inl rfl) (fun _ => rfl) (fun _ _ _ _ => Iff.rfl)
      fun _ _ hq => .inl (hold hq)
    rw [Store.continuations_of_outcome ho]
    rintro _ _ ⟨⟩
  | submits hseq h hp hjob hdown ht =>
    obtain ⟨rfl, hquery, hwatch⟩ := ht ha
    refine .of_handsOut hwatched h (fun k q hmem => absurd hmem (hwatch k q)) (.inl rfl)
      (fun _ => rfl) (fun i k t q => ?_) fun _ _ hq => .inl (hold hq)
    refine ⟨fun ho => ?_, fun ho => ho.append rfl⟩
    obtain ho | ⟨he, -⟩ := owes_append_job rfl ho
    · exact ho
    · exact absurd he.symm (hquery k t)
  | queues h hp hwatch =>
    exact .of_handsOut hwatched h (by simp [hwatch]) (.inl rfl) (fun _ => rfl)
      (fun _ _ _ _ => Iff.rfl) fun _ _ hq => .inl (hold hq)

/-! ## Turns of jobs -/

/-- A job concludes with an answer to its query, which is checked, or it hands on what it was given
and leaves the counts alone. -/
lemma concludeJob_cases (c : Client σ φ) (job : Job) (result : Outcome Answer) :
    (∃ k t v, job = .query k t ∧ result = .ok (.count v) ∧
      (c.concludeJob job result).1 = (c.tracker.answer k v t c.now).1.map .count ∧
      (c.concludeJob job result).2.tracker = (c.tracker.answer k v t c.now).2) ∨
    (c.concludeJob job result).2.tracker = c.tracker ∧ ∀ k t, job = .query k t →
      (∀ e, (c.concludeJob job result).1 = .error e → result = .error e) ∧
        ∀ v, (c.concludeJob job result).1 ≠ .ok (.count v) := by
  unfold concludeJob
  split
  · rename_i k t v
    exact .inl ⟨k, t, v, rfl, rfl, rfl, rfl⟩
  · rename_i a hother
    refine .inr ⟨rfl, fun k t hjob => ⟨nofun, fun v hv => ?_⟩⟩
    exact hother k t v hjob (Except.ok.inj hv)
  · rename_i e
    refine .inr ⟨rfl, ?_⟩
    rintro k t rfl
    have hreport : (Job.query k t).report e = e := by
      rw [Job.report]
      split <;> rfl
    refine ⟨fun e' he => ?_, nofun⟩
    rw [← he, hreport]

/-- A job settles its promise and is done. Its answer may have been recorded before. -/
lemma Owned.tidy_ending (h : s.Owned) (hwatched : Watched s.client.promises s.client.tracker)
    {i : Nat} {job : Job} {t : Tracker} {o : Outcome Answer} (ho : s.client.Owes i job p)
    (hset : Settling (books { s.client with tracker := t }) s'.client.books [p] o)
    (ht : t.inFlight = s.client.tracker.inFlight)
    (htasks : s'.client.tasks = s.client.tasks.set i .finished) (hasked : s'.asked = s.asked)
    (hended : ∀ k ticket, job = .query k ticket → s.Ended s' i k ticket o) :
    s.Tidy s' (some i) := by
  refine
    { watched := (hwatched.congr ht).settling hset
      underWay := fun j k ticket q ho' _ hq => ?_
      outcomes := fun q o' ho' => ?_
      ends := fun j k ticket q ho' => ?_
      asked := fun q k hq => .inl (hasked ▸ hq) }
  · rw [Tracker.pending?, ← ht] at hq
    refine (hset.frees.pending k q).2 ⟨hq, ?_⟩
    -- what has ended is this job, but the query is still there
    rintro ⟨r, hr, hmem⟩
    obtain rfl := List.mem_singleton.1 hr
    obtain rfl := hwatched.own r k q hmem
    obtain ⟨ho', hne⟩ := owes_set_finished htasks ho'
    exact hne (h.jobs_once j i _ job q ho' ho)
  · refine (hset.outcome?_of_notMem fun hmem => ?_).trans ho'
    obtain rfl := List.mem_singleton.1 hmem
    cases (h.jobs_pending i job q ho).outcome?_eq.symm.trans ho'
  · by_cases hqp : q = p
    · subst hqp
      obtain rfl := h.jobs_once j i _ job q ho' ho
      obtain ⟨_, hi⟩ := ho
      obtain ⟨_, hj⟩ := ho'
      cases hi.symm.trans hj
      exact .inr ⟨rfl, o, hset.outcome q (List.mem_singleton_self _), hended k ticket rfl⟩
    · refine .inl (ho'.set_finished ?_ htasks)
      rintro rfl
      obtain ⟨_, hi⟩ := ho
      obtain ⟨_, hj⟩ := ho'
      cases hi.symm.trans hj
      exact hqp rfl

/-- The same without an answer that was recorded. -/
lemma Owned.quiet_ending (h : s.Owned) (hwatched : Watched s.client.promises s.client.tracker)
    {i : Nat} {job : Job} {o : Outcome Answer} (ho : s.client.Owes i job p)
    (hset : Settling s.client.books s'.client.books [p] o)
    (htasks : s'.client.tasks = s.client.tasks.set i .finished) (hasked : s'.asked = s.asked)
    (hended : ∀ k ticket, job = .query k ticket → s.Ended s' i k ticket o) :
    s.Quiet s' (some i) where
  toTidy := h.tidy_ending hwatched ho hset rfl htasks hasked hended
  observations := .inl hset.frees.observations
  queries _ _ _ _ ho' := (owes_set_finished htasks ho').1
  earlier k q hq := ((hset.frees.pending k q).1 hq).1

/-- What an event can do to the counts. -/
inductive Polls (s : Situation σ φ) : Event σ → Prop
  /-- Nothing. -/
  | quiet {e} (h : s.Quiet (s.after e) e.turn?) : Polls s e
  /-- A query is issued. -/
  | issues {k p} (h : s.Issues (s.after (.ask (.count k))) k p) : Polls s (.ask (.count k))
  /-- The answer of a query of this session is recorded. -/
  | records {i k t p v} (h : s.Records (s.after (.job i)) i k t v)
      (howes : s.client.Owes i (.query k t) p) (hears : s.Hears i k t (.ok (.count v))) :
      Polls s (.job i)

/-- A job concludes with the result of its call: an answer to a query of this session is recorded
if it passes, and the counts learn nothing of any other result. -/
lemma Owned.polls_conclusion (h : s.Owned) (hwatched : Watched s.client.promises s.client.tracker)
    {i : Nat} {job : Job} {stage : JobStage φ} {result : Outcome Answer}
    (hi : s.client.tasks[i]? = some (.job job p stage))
    (hset : Settling
      (books { s.client with tracker := (s.client.concludeJob job result).2.tracker })
      s'.client.books [p] (s.client.concludeJob job result).1)
    (htasks : s'.client.tasks = s.client.tasks.set i .finished) (hasked : s'.asked = s.asked)
    (hhears : ∀ {k t}, job = .query k t → s.Hears i k t result) :
    s.Quiet s' (some i) ∨ ∃ k t p v, s.Records s' i k t v ∧ s.client.Owes i (.query k t) p ∧
      s.Hears i k t (.ok (.count v)) := by
  have ho : s.client.Owes i job p := ⟨stage, hi⟩
  obtain ⟨k, t, v, rfl, rfl, ho₁, ht₁⟩ | ⟨ht₁, hsame⟩ := concludeJob_cases s.client job result
  · have hhear := hhears rfl
    rw [ho₁, ht₁] at hset
    obtain ⟨hpasses, hok, hobs, -⟩ | ⟨hsession, he⟩ | ⟨hsession, hpasses, e, he⟩ :=
      s.client.tracker.answer_cases k v t s.client.now
    · have hobs' := hset.frees.observations.trans hobs
      refine .inr ⟨k, t, p, v,
        { toTidy := h.tidy_ending hwatched ho hset Tracker.inFlight_answer htasks hasked ?_
          observations := hobs'
          passes := hpasses
          queries := fun _ _ _ _ => owes_set_finished htasks
          earlier := fun k' q hq => ?_ }, ho, hhear⟩
      · rintro k t ⟨⟩
        rw [hok]
        constructor
        · rintro e ⟨⟩
        · rintro v ⟨⟩ -
          exact ⟨hpasses, hobs'⟩
      · have hq : (s.client.tracker.answer k v t s.client.now).2.pending? k' = some q :=
          ((hset.frees.pending k' q).1 hq).1
        rwa [Tracker.pending?, Tracker.inFlight_answer] at hq
    · -- an answer from a former session is handed on, and not recorded
      rw [he] at hset
      refine .inl (h.quiet_ending hwatched ho hset htasks hasked ?_)
      rintro k t ⟨⟩
      constructor
      · rintro e ⟨⟩
      · intro _ _ hs
        exact absurd hs hsession
    · rw [he] at hset
      refine .inl (h.quiet_ending hwatched ho hset htasks hasked ?_)
      rintro k t ⟨⟩
      constructor
      · intro _ _ _
        exact .inr ⟨v, hhear, hsession, hpasses⟩
      · rintro v ⟨⟩
  · rw [ht₁] at hset
    refine .inl (h.quiet_ending hwatched ho hset htasks hasked fun k t hjob => ?_)
    obtain ⟨herror, hcount⟩ := hsame k t hjob
    exact ⟨fun e he _ => .inl (herror e he ▸ hhears hjob), fun v hv => absurd hv (hcount v)⟩

/-- A turn of a job. -/
lemma Owned.polls_turn (h : s.Owned) (hwatched : Watched s.client.promises s.client.tracker)
    {i : Nat} {job : Job} {stage : JobStage φ} {c : Client σ φ}
    (hi : s.client.tasks[i]? = some (.job job p stage))
    (heff : JobEffect s.client i job p stage c) :
    s.Quiet { s with client := c } (some i) ∨ ∃ k t p v,
      s.Records { s with client := c } i k t v ∧ s.client.Owes i (.query k t) p ∧
        s.Hears i k t (.ok (.count v)) := by
  have ho : s.client.Owes i job p := ⟨stage, hi⟩
  obtain ⟨_, _, _, _, _, _, _, tasks, _, _, rfl, -, -, hcase⟩ :=
    heff.outline (h.jobs_pending i job p ho) (h.jobs_read i job p ho)
  obtain ⟨rfl, rfl, rfl, htasks⟩ | ⟨rfl, t, o, hends, hset⟩ := hcase
  · -- the job goes on
    refine .inl (.of_same hwatched rfl rfl (fun j k t q => ?_) fun _ _ => .inl)
    obtain rfl | ⟨stage', rfl⟩ := htasks
    · exact Iff.rfl
    · exact ⟨fun hq => owes_set_job rfl ho hq, fun hq => hq.set_job ho rfl⟩
  · cases hends with
    | drops hdrop =>
      refine .inl (h.quiet_ending hwatched ho hset rfl rfl ?_)
      rintro k t rfl
      obtain rfl | rfl | hcall := hdrop
      · exact .of_harmless (by rintro e ⟨⟩; exact id) nofun
      · exact .of_harmless (by rintro e ⟨⟩; exact id) nofun
      · cases hcall
    | answers htries =>
      refine h.polls_conclusion hwatched hi hset rfl rfl ?_
      rintro k t rfl
      exact ⟨p, stage, _, _, hi, htries⟩

/-- A turn of a task. -/
lemma Owned.polls_job (h : s.Owned) (hwatched : Watched s.client.promises s.client.tracker)
    (i : Nat) :
    s.Quiet (s.after (.job i)) (some i) ∨ ∃ k t p v, s.Records (s.after (.job i)) i k t v ∧
      s.client.Owes i (.query k t) p ∧ s.Hears i k t (.ok (.count v)) := by
  have heff := turn_effect i h.no_direct
  rw [Situation.after]
  generalize s.client.turn (.task i) = c at heff
  cases heff with
  | stays => exact .inl (.of_same hwatched rfl rfl (fun _ _ _ _ => Iff.rfl) fun _ _ => .inl)
  | job hi heff => exact h.polls_turn hwatched hi heff
  | service hi =>
    refine .inl (.of_same hwatched rfl rfl (fun j k t q => ?_) fun _ _ => .inl)
    exact owes_set_service rfl hi

/-- Every event but a new session, whatever the node answers. -/
theorem Owned.polls (h : s.Owned) (hwatched : Watched s.client.promises s.client.tracker)
    {e : Event σ} (he : e ≠ .order .newSession) : s.Polls e := by
  have hsame : ∀ {s' : Situation σ φ}, s'.client.promises = s.client.promises →
      s'.client.tracker = s.client.tracker → s'.client.tasks = s.client.tasks →
      s'.asked = s.asked → s.Quiet s' none := by
    intro s' hpromises htracker htasks hasked
    refine .of_same hwatched hpromises htracker (fun i k t p => ?_) fun _ _ hp => ?_
    · rw [Owes, htasks, Owes]
    · exact .inl (hasked ▸ hp)
  cases e with
  | ask a =>
    by_cases ha : ∃ k, a = .count k
    · obtain ⟨k, rfl⟩ := ha
      obtain hquiet | ⟨p, hissues⟩ := polls_count hwatched k
      · exact .quiet hquiet
      · exact .issues hissues
    · exact .quiet (quiet_ask hwatched fun k hk => ha ⟨k, hk⟩)
  | order o => exact .quiet (quiet_order hwatched fun ho => he (congrArg _ ho))
  | job i =>
    obtain hquiet | ⟨k, t, p, v, hr, howes, hears⟩ := h.polls_job hwatched i
    · exact .quiet hquiet
    · exact .records hr howes hears
  | advance => exact .quiet (h.quiet_advances hwatched h.advances)
  | clock schedule => exact .quiet (hsame rfl rfl rfl rfl)
  | node n => exact .quiet (hsame rfl rfl rfl rfl)

lemma Polls.tidy {e : Event σ} (h : s.Polls e) : s.Tidy (s.after e) e.turn? := by
  cases h with
  | quiet h => exact h.toTidy
  | issues h => exact h.toTidy
  | records h => exact h.toTidy

/-! ## Consistent answers -/

/-- The node is *consistent* in an event: it does not accuse itself, and what it answers to a query
of this session is admitted by what was observed. -/
structure Consistent (s : Situation σ φ) (i : Nat) : Prop where
  fine : ∀ k t e, s.Hears i k t (.error e) → ¬e.Accuses
  admits : ∀ k t p v, s.client.Owes i (.query k t) p → t.session = s.observations.session →
    s.Hears i k t (.ok (.count v)) → ∃ sample, s.observations.Admits k v t sample

/-- A node that is consistent is not accused. -/
lemma Tidy.fair (h : s.Tidy s' turn) (hconsistent : ∀ i, turn = some i → s.Consistent i)
    (hp : s.Fair p) : s'.Fair p := by
  obtain ⟨i, k, t, ho⟩ | ⟨o, ho, he⟩ := hp
  · obtain ho' | ⟨hturn, o, ho', hended⟩ := h.ends i k t p ho
    · exact .inl ⟨i, k, t, ho'⟩
    · refine .inr ⟨o, ho', fun e he haccuses => ?_⟩
      obtain hears | ⟨v, hears, hsession, hpasses⟩ := hended.accuses e he haccuses
      · exact (hconsistent i hturn).fine k t e hears haccuses
      · obtain ⟨sample, hadmits⟩ := (hconsistent i hturn).admits k t p v ho hsession hears
        exact hpasses (hadmits.passes hsession)
  · exact .inr ⟨o, h.outcomes p o ho, he⟩

end Situation

end ConsensusLink
