import ConsensusLink.Proofs.Client.Fulfilment
import ConsensusLink.Proofs.Progress.Callers
import Mathlib.Computability.Primrec.List
/-!
# Sessions kept apart

Queries of earlier sessions may still be under way when a new session starts, and they end in any
order. In each session a count has one query at most, which everybody joins who asks meanwhile and
is not served what was observed. The end of a query of an earlier session does nothing to the counts
of the current one: its ticket keeps its answer from being recorded, and since the slot of its count
was cleared or names another promise, it clears nothing. Its callers are handed what it returned,
unchecked.
-/

namespace ConsensusLink

open Promise Relation Client

variable {σ φ : Type}

/-- The answer to a query of an earlier session is handed on, and nothing is learnt from it. -/
lemma Tracker.answer_of_session_ne {t : Tracker} {k : Counter} {v : MessageIndex} {ticket : Ticket}
    {now : Nat} (h : ticket.session ≠ t.observations.session) :
    t.answer k v ticket now = (.ok v, t) := by
  rw [answer, observe, Observations.observe_of_session_ne h]
  simp

namespace Client

variable {c : Client σ φ} {k : Counter} {t : Ticket} {p : Id}

/-- A query of an earlier session hands on what it is given. -/
lemma concludeJob_of_session_ne (h : t.session ≠ c.tracker.observations.session)
    (result : Outcome Answer) : c.concludeJob (.query k t) result = (result, c) := by
  cases result with
  | error e =>
    have hreport : (Job.query k t).report e = e := by
      rw [Job.report]
      split <;> rfl
    rw [concludeJob, hreport]
  | ok a =>
    cases a with
    | count v =>
      rw [concludeJob, Tracker.answer_of_session_ne h]
      rfl
    | _ => rfl

/-- A promise at which no query is awaited that is under way, is settled without notice to the
counts. -/
lemma tracker_settle
    (h : ∀ k q, .counted k q ∈ c.promises.continuations p → c.tracker.pending? k ≠ some q)
    (o : Outcome Answer) : (c.settle p o).tracker = c.tracker := by
  unfold settle
  split
  · rfl
  · rename_i follows promises hs
    have hfollows : c.promises.continuations p = follows := by
      rw [Store.continuations, Store.cell?_of_settle? hs]
    rw [hfollows] at h
    refine List.foldlRecOn follows _ (motive := fun c' => c'.tracker = c.tracker)
      (b := { c with promises, settlements := (p, c.now) :: c.settlements }) rfl ?_
    rintro c' hc' (⟨_ | _ | _, _⟩ | ⟨k, q⟩) hf
    case counted =>
      rw [follow, Tracker.clearPending, hc', if_neg (h k q hf)]
    all_goals exact hc'

end Client

namespace Situation

variable {s s' : Situation σ φ} {moves : σ → σ → Prop} {i j : Nat} {k : Counter} {t : Ticket}
  {p : Id}

/-! ## One query of a count in each session -/

/-- No two queries of a count are of the same session, whichever it is. -/
def Solitary (s : Situation σ φ) : Prop :=
  ∀ i j k t t' p q, s.client.Owes i (.query k t) p → s.client.Owes j (.query k t') q →
    t.session = t'.session → i = j

/-- A query is issued only if none of its count is there of the same session. -/
lemma Issues.session_ne (h : s.Issues s' k p) (horderly : s.Orderly) {i : Nat} {t : Ticket}
    {q : Id} (ho : s.client.Owes i (.query k t) q) :
    t.session ≠ s.observations.issue.1.session := by
  intro hsession
  cases h.free.symm.trans (horderly.underWay i k t q ho hsession)

lemma Solitary.after (h : s.Solitary) (howned : s.Owned) (horderly : s.Orderly) (e : Event σ) :
    (s.after e).Solitary := by
  by_cases he : e = .order .newSession
  · subst he
    exact h
  · cases howned.polls horderly.watched he with
    | quiet hq =>
      exact fun i j k t t' p q hi hj =>
        h i j k t t' p q (hq.queries i k t p hi) (hq.queries j k t' q hj)
    | records hr =>
      exact fun i j k t t' p q hi hj =>
        h i j k t t' p q (hr.queries i k t p hi).1 (hr.queries j k t' q hj).1
    | @issues k p hissue =>
      have howned' := howned.after (.ask (.count k))
      intro i j k' t t' p q hi hj hsession
      obtain hi' | ⟨rfl, rfl, rfl⟩ := hissue.queries i k' t p hi <;>
        obtain hj' | ⟨hk, rfl, rfl⟩ := hissue.queries j k' t' q hj
      · exact h i j k' t t' p q hi' hj' hsession
      · subst hk
        exact absurd hsession (hissue.session_ne horderly hi')
      · exact absurd hsession.symm (hissue.session_ne horderly hj')
      · exact howned'.jobs_once i j _ _ _ hi hj

lemma solitary_of_runs {config : ClientConfig} {remote : Remote σ φ} {node : σ}
    (hr : Runs moves (fresh config remote node) s) : s.Solitary := by
  induction hr with
  | refl =>
    rintro i j k t t' p q ⟨stage, hi⟩
    cases hi
  | tail hr hstep ih =>
    obtain ⟨e, -, rfl⟩ := hstep
    exact ih.after (owned_of_runs hr) (orderly_of_runs hr) e

/-- Whoever asks for a count while its query is under way is served what was observed, or joins. -/
lemma Orderly.count_of_awaits (h : s.Orderly) (hp : s.Awaits k p) :
    s.client.count k =
      match s.observations.cached? k s.client.now s.client.config.sync.countTtlMs.toNat with
      | some v => s.client.newSettled (.ok (.count v))
      | none => (p, s.client) := by
  obtain ⟨i, t, ho, hsession⟩ := hp
  have hpending := h.underWay i k t p ho hsession
  rw [Client.count, hpending]
  rfl

/-! ## Queries of earlier sessions -/

/-- What a query returns in a turn: what the node has answered, or that it broke down, or that the
pool is down. -/
inductive Returns (s : Situation σ φ) (k : Counter) (t : Ticket) (stage : JobStage φ) :
    Outcome Answer → Prop
  | answers {retry result node} (h : s.client.JobTries (.query k t) stage retry (.ends result) node)
      (hj : (s.client.jobPolicy (.query k t)).judge retry result = .finish result) :
      Returns s k t stage result
  | panics {retry node} (h : s.client.JobTries (.query k t) stage retry .breaks node) :
      Returns s k t stage (.error (.internal (k.name ++ " panicked")))
  | cutShort (hd : s.client.pool.isDown = true) : Returns s k t stage (.error .shutDown)

/-- What a query of an earlier session comes to is what it returns. -/
lemma returns_of_comesTo {stage : JobStage φ} {o : Outcome Answer}
    (hsession : t.session ≠ s.observations.session)
    (h : s.client.ComesTo (.query k t) stage o) : s.Returns k t stage o := by
  cases h with
  | returns h => cases h
  | answers h hj =>
    rw [concludeJob_of_session_ne hsession]
    exact .answers h hj
  | panics h =>
    obtain ⟨_, _, h⟩ | ⟨retry, node, h⟩ := h
    · cases h
    · exact .panics h
  | cutShort hd => exact .cutShort hd

/-- A turn of a query of an earlier session does nothing to the counts. -/
lemma tracker_after_of_session_ne (howned : s.Owned) (horderly : s.Orderly)
    (ho : s.client.Owes i (.query k t) p) (hsession : t.session ≠ s.observations.session) :
    (s.after (.job i)).client.tracker = s.client.tracker := by
  obtain ⟨stage, hi⟩ := ho
  -- what is noted to be under way is owed by another query
  have hnone : ∀ k' q, Follow.counted k' q ∈ s.client.promises.continuations p →
      s.client.tracker.pending? k' ≠ some q := by
    intro k' q hmem hpending
    obtain rfl := horderly.watched.own p k' q hmem
    obtain ⟨j, t', hj, hsession'⟩ := horderly.pending k' q hpending
    obtain rfl := howned.jobs_once i j _ _ q ⟨stage, hi⟩ hj
    obtain ⟨stage', hj⟩ := hj
    cases hi.symm.trans hj
    exact hsession hsession'
  have hturn : s.client.turn (.task i) = s.client.jobTurn i (.query k t) p stage := by
    rw [turn, hi]
  rw [Situation.after, hturn]
  have heff := jobTurn_effect s.client i (.query k t) p stage
  generalize s.client.jobTurn i (.query k t) p stage = c at heff
  cases heff with
  | @drops o pool schedule =>
    exact tracker_settle
      (c := { s.client with pool, schedule, tasks := s.client.tasks.set i .finished }) hnone o
  | @breaks retry node pool schedule =>
    exact tracker_settle
      (c := { s.client with node, pool, schedule, tasks := s.client.tasks.set i .finished }) hnone _
  | @answers retry result node pool schedule =>
    rw [concludeJob_of_session_ne hsession]
    exact tracker_settle
      (c := { s.client with node, pool, schedule, tasks := s.client.tasks.set i .finished }) hnone _
  | _ => rfl

/-- What is of an earlier session remains so. -/
lemma Regular.session_ne_of_runs (h : s.Regular) (ho : s.client.Owes i (.query k t) p)
    (hsession : t.session ≠ s.observations.session) (hr : Runs moves s s') :
    s'.Regular ∧ t.session ≠ s'.observations.session := by
  have hlt : t.session < s.observations.session :=
    Nat.lt_of_le_of_ne (h.orderly.session i k t p ho) hsession
  suffices hle : s'.Regular ∧ s.observations.session ≤ s'.observations.session from
    ⟨hle.1, Nat.ne_of_lt (Nat.lt_of_lt_of_le hlt hle.2)⟩
  induction hr with
  | refl => exact ⟨h, Nat.le_refl _⟩
  | tail _ hstep ih =>
    obtain ⟨e, -, rfl⟩ := hstep
    exact ⟨ih.1.after e, Nat.le_trans ih.2 (ih.1.session_le e)⟩

/-- What can have become of a query of an earlier session at a later time: it is under way, or it
has ended, without notice to the counts, and its callers were handed what it returned. -/
inductive Outlived (moves : σ → σ → Prop) (s s' : Situation σ φ) (i : Nat) (k : Counter)
    (t : Ticket) (p : Id) : Prop
  | underWay (ho : s'.client.Owes i (.query k t) p)
  | ended {u : Situation σ φ} {stage : JobStage φ} {o : Outcome Answer} (hr : Runs moves s u)
      (hi : u.client.tasks[i]? = some (.job (.query k t) p stage))
      (hreturns : u.Returns k t stage o)
      (htracker : (u.after (.job i)).client.tracker = u.client.tracker)
      (hr' : Runs moves (u.after (.job i)) s')
      (ho : s'.client.promises.outcome? p = some o)

lemma Regular.outlived (h : s.Regular) (ho : s.client.Owes i (.query k t) p)
    (hsession : t.session ≠ s.observations.session) (hr : Runs moves s s') :
    Outlived moves s s' i k t p := by
  cases h.owned.became_of_runs ho hr with
  | owed ho' => exact .underWay ho'
  | ended hr₀ hi hcomes hr' ho' =>
    obtain ⟨hregular, hsession'⟩ := h.session_ne_of_runs ho hsession hr₀
    exact .ended hr₀ hi (returns_of_comesTo hsession' hcomes)
      (tracker_after_of_session_ne hregular.owned hregular.orderly ⟨_, hi⟩ hsession') hr' ho'

/-- What keeps the sessions apart. -/
structure Apart (moves : σ → σ → Prop) (s : Situation σ φ) : Prop where
  /-- In each session a count has one query at most. -/
  once : s.Solitary
  /-- The slot of a count names the promise of its query in the current session. -/
  noted : ∀ k p, s.client.tracker.pending? k = some p ↔ s.Awaits k p
  /-- Whoever asks meanwhile is served what was observed, or joins. -/
  joins : ∀ k p, s.Awaits k p → s.client.count k =
    match s.observations.cached? k s.client.now s.client.config.sync.countTtlMs.toNat with
    | some v => s.client.newSettled (.ok (.count v))
    | none => (p, s.client)
  /-- A query of an earlier session does nothing to the counts, whether it goes on or ends. -/
  unnoticed : ∀ i k t p, s.client.Owes i (.query k t) p → t.session ≠ s.observations.session →
    (s.after (.job i)).client.tracker = s.client.tracker
  /-- It ends with what it returns, in this session or a later one. -/
  outlived : ∀ i k t p, s.client.Owes i (.query k t) p → t.session ≠ s.observations.session →
    ∀ s', Runs moves s s' → Outlived moves s s' i k t p

/-- **Sessions are kept apart.** In each session a count has one query at most, which is joined by
everybody who asks for the count meanwhile and is not served what was observed. Queries of earlier
sessions leave the observations, the queries under way and the finality mark as they are, however
they end, and their callers are handed what they returned. -/
theorem sessions_apart {config : ClientConfig} {remote : Remote σ φ} {node : σ}
    (hr : Runs moves (fresh config remote node) s) : s.Apart moves where
  once := solitary_of_runs hr
  noted k p := by
    refine ⟨(orderly_of_runs hr).pending k p, ?_⟩
    rintro ⟨i, t, ho, hsession⟩
    exact (orderly_of_runs hr).underWay i k t p ho hsession
  joins _ _ hp := (orderly_of_runs hr).count_of_awaits hp
  unnoticed _ _ _ _ ho hsession :=
    tracker_after_of_session_ne (owned_of_runs hr) (orderly_of_runs hr) ho hsession
  outlived _ _ _ _ ho hsession _ hr' :=
    Regular.outlived ⟨owned_of_runs hr, orderly_of_runs hr⟩ ho hsession hr'

/-! ## Answers that cross -/

/-- A node that takes its time for the safe count, and answers less the second time. -/
def receding : ScriptedNode where
  scripts := [(.count .safe,
    [⟨10, .answer (.ok (.count (.ofNat 50)))⟩, ⟨10, .answer (.ok (.count (.ofNat 10)))⟩])]

/-- The safe count is asked for before and, twice, after a new session starts. -/
def renewed : Situation ScriptedNode ScriptedNode.Phase :=
  (fresh {} ScriptedNode.remote receding).afterAll
    [.ask (.count .safe), .job 0, .order .newSession, .ask (.count .safe), .job 1,
      .ask (.count .safe), .clock { now := 10 }]

/-- The answers come in the opposite order. -/
def crossed : Situation ScriptedNode ScriptedNode.Phase := renewed.afterAll [.job 1, .job 0]

lemma session_renewed : renewed.observations.session = 1 := by
  -- it looks up with the equations of `List.lookup` in `Mathlib.Computability.Primrec.List`
  cbv

lemma owes_renewed : renewed.client.Owes 0 (.query .safe ⟨0, 1⟩) ⟨0⟩ := by
  refine ⟨.calling (Retry.Policy.start (renewed.client.jobPolicy (.query .safe ⟨0, 1⟩)))
    (.scripted (.answer (.ok (.count (.ofNat 50))))), ?_⟩
  cbv

/-- The second one is recorded and handed to both who asked for it, the first one is handed to the
one who asked for it alone. -/
theorem sessions_apart_crossed :
    crossed.asked.map Prod.fst = [⟨1⟩, ⟨1⟩, ⟨0⟩] ∧
      crossed.client.promises.outcome? ⟨0⟩ = some (.ok (.count (.ofNat 50))) ∧
      crossed.client.promises.outcome? ⟨1⟩ = some (.ok (.count (.ofNat 10))) ∧
      crossed.observations.value? .safe = some (.ofNat 10) ∧
      (renewed.after (.job 0)).client.tracker = renewed.client.tracker ∧
      crossed.Apart fun _ _ => False := by
  have hrenewed : Runs (fun _ _ => False) (fresh {} ScriptedNode.remote receding) renewed :=
    runs_afterAll rfl _
  have hcrossed : Runs (fun _ _ => False) renewed crossed :=
    runs_afterAll rfl _
  have hsession : (⟨0, 1⟩ : Ticket).session ≠ renewed.observations.session := by
    rw [session_renewed]
    decide
  have hunnoticed := (sessions_apart hrenewed).unnoticed 0 .safe _ _ owes_renewed hsession
  refine ⟨?_, ?_, ?_, ?_, hunnoticed, sessions_apart (hrenewed.trans hcrossed)⟩ <;> cbv

end Situation

end ConsensusLink
