import ConsensusLink.Proofs.Client.Watching
import ConsensusLink.Proofs.Client.Winding
import ConsensusLink.Proofs.Sequencing.Order
import Mathlib.Computability.Primrec.List
import Mathlib.Data.List.Permutation
/-!
# A client that is shut down

Work is done for nobody any more once a client was shut down: no call of the node begins, what is
under way is rejected at the next turn of whoever is at it, and whoever asks for something that
would take work is told that the client is shut down. But what is at hand is served: a value in a
cache, and a count that was observed a short time ago.
-/

namespace ConsensusLink

open Promise Relation Client Monitored

variable {σ φ : Type}

namespace Client

variable {c : Client σ φ}

/-- What is at hand for who asks. -/
def served? (c : Client σ φ) : Ask → Option Answer
  | .fetchBatch n => c.batches.ready.peek? n
  | .findBatch m => c.messageBatches.ready.peek? m
  | .batchBlock n => c.blocks.ready.peek? n
  | .count k =>
    (c.tracker.observations.cached? k c.now c.config.sync.countTtlMs.toNat).map Answer.count
  | _ => none

/-- What is at hand is given, and what is not is refused. -/
def lastWord (c : Client σ φ) (a : Ask) : Outcome Answer :=
  match c.served? a with
  | some v => .ok v
  | none => .error .shutDown

lemma lastWord_eq_shutDown_iff {a : Ask} :
    c.lastWord a = .error .shutDown ↔ c.served? a = none := by
  unfold lastWord
  cases c.served? a <;> simp

/-- Nothing is expected of a client, and nothing can be. -/
structure Spent (c : Client σ φ) : Prop where
  isDown : c.pool.isDown = true
  closed : c.coordinator.isClosed = true
  idle : ∀ f, ¬c.Expects f

lemma outcome?_onSettled (c : Client σ φ) (p q : Id) (f : Follow) :
    (c.onSettled p f).promises.outcome? q = c.promises.outcome? q := by
  obtain ⟨_, _, _, _, hf, -⟩ := onSettled_eq c p f
  rw [hf]
  exact Store.outcome?_register ..

lemma outcome?_newSettled (c : Client σ φ) (o : Outcome Answer) :
    (c.newSettled o).2.promises.outcome? (c.newSettled o).1 = some o :=
  Store.outcome?_newSettled o

/-- A job that is submitted and watched is refused. -/
lemma outcome?_submit_watched {c' : Client σ φ} (hd : c.pool.isDown = true) (job : Job) (f : Follow)
    (hp : c'.promises = (c.submit job).2.promises) :
    (c'.onSettled (c.submit job).1 f).promises.outcome? (c.submit job).1 =
      some (.error .shutDown) := by
  rw [outcome?_onSettled, hp, submit_of_isDown hd]
  exact outcome?_newSettled c _

/-- Whoever asks of a client that is spent has his answer at once. -/
theorem Spent.outcome?_take (h : c.Spent) (a : Ask) :
    (c.take a).2.promises.outcome? (c.take a).1 = some (c.lastWord a) := by
  cases a with
  | fetchBatch n =>
    have hidle : ∀ p, c.batches.pending? n ≠ some p := fun p => h.idle (.cached (.batch n) p)
    rw [take, fetchBatch, CacheTable.lookup_of_idle hidle, lastWord, served?]
    cases c.batches.ready.peek? n with
    | some a => exact outcome?_newSettled _ _
    | none => exact outcome?_submit_watched h.isDown _ _ rfl
  | findBatch m =>
    have hidle : ∀ p, c.messageBatches.pending? m ≠ some p :=
      fun p => h.idle (.cached (.messageBatch m) p)
    rw [take, findBatch, CacheTable.lookup_of_idle hidle, lastWord, served?]
    cases c.messageBatches.ready.peek? m with
    | some a => exact outcome?_newSettled _ _
    | none => exact outcome?_submit_watched h.isDown _ _ rfl
  | batchBlock n =>
    have hidle : ∀ p, c.blocks.pending? n ≠ some p := fun p => h.idle (.cached (.block n) p)
    rw [take, batchBlock, CacheTable.lookup_of_idle hidle, lastWord, served?]
    cases c.blocks.ready.peek? n with
    | some a => exact outcome?_newSettled _ _
    | none => exact outcome?_submit_watched h.isDown _ _ rfl
  | count k =>
    rw [take, Client.count, lastWord, served?]
    cases hv : c.tracker.observations.cached? k c.now c.config.sync.countTtlMs.toNat with
    | some v => exact outcome?_newSettled _ _
    | none =>
      cases hp : c.tracker.pending? k with
      | some p => exact absurd hp (h.idle (.counted k p))
      | none =>
        exact outcome?_submit_watched (c := { c with tracker := c.tracker.issue.2 }) h.isDown _ _
          rfl
  | sequence r =>
    have hclosed : c.coordinator.enqueue r c.promises.new.1 = .error .shutDown := by
      rw [Coordinator.enqueue, if_pos h.closed]
    simp only [take, enqueue, hclosed]
    exact outcome?_newSettled _ _
  | progressMap =>
    rw [take, progressMap, submit_of_isDown h.isDown]
    exact outcome?_newSettled _ _
  | errand name delay result =>
    rw [take, submit_of_isDown h.isDown]
    exact outcome?_newSettled _ _

end Client

namespace Situation

variable {remote : Remote σ φ} {config : ClientConfig} {node : σ}
  {s s' : Situation (Monitored σ) φ}

/-- A coordinator that has stopped has nothing left and takes nothing any more. -/
lemma stopped_of_runs (hr : Runs Uncalled (fresh config remote.monitored ⟨node, []⟩) s)
    (hs : s.client.coordinatorStage = .stopped) :
    s.client.coordinator.queue = [] ∧ s.client.coordinator.isClosed = true := by
  obtain ⟨d, hd, rfl⟩ := (Docket.situation_runs_iff (d := .fresh config _ _)).1 hr
  obtain ⟨ended, hserved⟩ := Docket.served_of_runs hd
  exact (hserved.stopped hs).2

lemma started_of_runs {moves : Monitored σ → Monitored σ → Prop} (h : s.Owned)
    (hc : s.client.coordinatorStage ≠ .held) (hr : Runs moves s s') :
    s'.client.coordinatorStage ≠ .held := by
  induction hr with
  | refl => exact hc
  | tail hr hstep ih =>
    obtain ⟨e, -, rfl⟩ := hstep
    exact (h.of_runs hr).started_after ih e

/-- No call begins when the pool is down. -/
lemma Owned.calls_of_runs (h : s.Owned) (hd : s.client.pool.isDown = true)
    (hr : Runs Uncalled s s') : s'.client.node.calls = s.client.node.calls := by
  induction hr with
  | refl => rfl
  | tail hr hstep ih =>
    obtain ⟨e, hallowed, rfl⟩ := hstep
    refine Eq.trans ?_ ih
    by_cases he : ∃ n, e = .node n
    · obtain ⟨n, rfl⟩ := he
      exact hallowed
    · rw [(h.of_runs hr).node_after_of_isDown (h.isDown_of_runs hr hd) fun n hn => he ⟨n, hn⟩]

/-- A client in which nothing is under way is spent. -/
lemma Quit.spent (hq : s.Quit)
    (hr : Runs Uncalled (fresh config remote.monitored ⟨node, []⟩) s) : s.client.Spent := by
  obtain ⟨hqueue, hclosed⟩ := stopped_of_runs hr (stopped_of_lag hq.stopped).2
  exact ⟨hq.isDown, hclosed, fun f hf =>
    hq.not_pending (covered_of_runs hr) hqueue _ (pending_of_expects hr hf)⟩

/-- What is left of a client whose pool is down. -/
structure Closed (s : Situation (Monitored σ) φ) : Prop where
  /-- No call of the node begins any more. -/
  silent : ∀ s', Runs Uncalled s s' → s'.client.node.calls = s.client.node.calls
  /-- What is pending remains so or is rejected, unless its attempt has ended just now. -/
  rejects : ∀ p, s.client.promises.Pending p → (∀ r a o, s.stance ≠ .judging r p a o) →
    ∀ s', Runs Uncalled s s' →
      s'.client.promises.Pending p ∨ s'.client.promises.outcome? p = some (.error .shutDown)
  /-- When each task has had a turn, and the coordinator three steps, nothing is under way. -/
  quits : ∀ es : List (Event (Monitored σ)), (∀ i < s.client.tasks.length, .job i ∈ es) →
    3 ≤ es.countP Event.isAdvance → (s.afterAll es).Quit
  /-- Then nothing is pending. -/
  settles : ∀ s', Runs Uncalled s s' → s'.Quit → ∀ p, ¬s'.client.promises.Pending p
  /-- That lasts. -/
  lasts : ∀ s', Runs Uncalled s s' → s'.Quit → ∀ s'', Runs Uncalled s' s'' → s''.Quit
  /-- Whoever asks is given what is at hand, and is refused otherwise. -/
  answers : ∀ s', Runs Uncalled s s' → s'.Quit → ∀ a,
    (s'.client.take a).2.promises.outcome? (s'.client.take a).1 = some (s'.client.lastWord a)

/-- **Nothing but what is at hand.** Whatever was done with a client before it was shut down, no
call of the node begins any more and all that is pending is rejected, when each task has had a turn,
at the latest. Whoever asks afterwards is told that the client is shut down, unless the value is at
hand: in one of the caches, or among the counts that were observed a short time ago. -/
theorem refused_unless_served {remote : Remote σ φ} {config : ClientConfig} {node : σ}
    {s : Situation (Monitored σ) φ}
    (hr : Runs Uncalled ((fresh config remote.monitored ⟨node, []⟩).after (.order .start)) s)
    (hd : s.client.pool.isDown = true) : s.Closed := by
  have hbuilt : Runs Uncalled (fresh config remote.monitored ⟨node, []⟩) s :=
    (runs_after (e := .order .start) trivial).trans hr
  have howned := owned_of_runs hbuilt
  have hstarted : s.client.coordinatorStage ≠ .held :=
    started_of_runs ((owned_fresh config remote.monitored ⟨node, []⟩).after _) (by nofun) hr
  refine ⟨fun s' hr' => howned.calls_of_runs hd hr', fun p hp hfree s' hr' =>
    howned.rejected_of_runs (covered_of_runs hbuilt) hd hp hfree hr', fun es hturns hsteps =>
    howned.quits hd hstarted hturns hsteps, fun s' hr' hq p => ?_, fun s' hr' hq s'' hr'' =>
    hq.of_runs (howned.of_runs hr') hr'', fun s' hr' hq => ?_⟩
  · have hbuilt' := hbuilt.trans hr'
    obtain ⟨hqueue, -⟩ := stopped_of_runs hbuilt' (stopped_of_lag hq.stopped).2
    exact hq.not_pending (covered_of_runs hbuilt') hqueue p
  · exact (hq.spent (hbuilt.trans hr')).outcome?_take

/-! ## A client that has read a batch -/

/-- A node with one batch that takes its time for the safe count. -/
def stocked : ScriptedNode where
  node := (MemoryNode.pushBatch {} .empty ⟨1⟩ 5).2
  scripts := [(.count .safe, [⟨50, .proceed⟩])]

/-- A batch is read; a count and the lease are asked for; and the client is shut down. -/
def closing : Situation (Monitored ScriptedNode) ScriptedNode.Phase :=
  ((fresh {} ScriptedNode.remote.monitored ⟨stocked, []⟩).after (.order .start)).afterAll
    [.ask (.fetchBatch (.ofNat 0)), .job 0, .ask (.count .safe), .job 1, .ask (.sequence .probe),
      .order .shutDown]

/-- Everybody has had a turn. -/
def departed : Situation (Monitored ScriptedNode) ScriptedNode.Phase :=
  closing.afterAll [.advance, .job 1, .advance, .job 0, .advance]

lemma runs_closing :
    Runs Uncalled ((fresh {} ScriptedNode.remote.monitored ⟨stocked, []⟩).after (.order .start))
      closing :=
  runs_afterAll rfl _

lemma runs_departed : Runs Uncalled closing departed :=
  runs_afterAll rfl _

lemma isDown_closing : closing.client.pool.isDown = true := by
  -- it looks up with the equations of `List.lookup` in `Mathlib.Computability.Primrec.List`
  cbv

lemma quit_departed : departed.Quit := by
  have hlength : closing.client.tasks.length = 2 := by cbv
  have howned : closing.Owned := ((owned_fresh _ _ _).after _).of_runs runs_closing
  refine howned.quits isDown_closing ?_ (fun i hi => ?_) (by decide)
  · have hstage : closing.client.coordinatorStage = .idle := by cbv
    rw [hstage]
    rintro ⟨⟩
  · rw [hlength] at hi
    obtain rfl | rfl : i = 0 ∨ i = 1 := by omega
    · simp
    · simp

/-- The count and the lease are refused, and so is a batch that was not read. The one that was read
is given. -/
theorem refused_unless_served_departed :
    closing.client.promises.outcome? ⟨1⟩ = none ∧ closing.client.promises.outcome? ⟨2⟩ = none ∧
      departed.client.promises.outcome? ⟨1⟩ = some (.error .shutDown) ∧
      departed.client.promises.outcome? ⟨2⟩ = some (.error .shutDown) ∧
      departed.client.node.calls = closing.client.node.calls ∧
      (departed.client.take (.fetchBatch (.ofNat 1))).2.promises.outcome?
        (departed.client.take (.fetchBatch (.ofNat 1))).1 = some (.error .shutDown) ∧
      (departed.client.take (.fetchBatch (.ofNat 0))).2.promises.outcome?
        (departed.client.take (.fetchBatch (.ofNat 0))).1 = some (.ok (.batch .empty)) := by
  have hclosed := refused_unless_served runs_closing isDown_closing
  have hanswers := hclosed.answers departed runs_departed quit_departed
  have hrefused : departed.client.lastWord (.fetchBatch (.ofNat 1)) = .error .shutDown :=
    lastWord_eq_shutDown_iff.2 (by cbv)
  have hserved : departed.client.lastWord (.fetchBatch (.ofNat 0)) = .ok (.batch .empty) := by cbv
  refine ⟨?_, ?_, ?_, ?_, hclosed.silent departed runs_departed, ?_, ?_⟩
  · cbv
  · cbv
  · cbv
  · cbv
  · rw [hanswers, hrefused]
  · rw [hanswers, hserved]

/-- Not everything is refused after a client was shut down. -/
theorem not_refused_after_shutDown :
    ¬∀ (config : ClientConfig) (node : ScriptedNode)
      (s s' : Situation (Monitored ScriptedNode) ScriptedNode.Phase),
      Runs Uncalled
          ((fresh config ScriptedNode.remote.monitored ⟨node, []⟩).after (.order .start)) s →
        s.client.pool.isDown = true → Runs Uncalled s s' → s'.Quit →
        ∀ a, (s'.client.take a).2.promises.outcome? (s'.client.take a).1 =
          some (.error .shutDown) := by
  intro h
  have hrefused := h {} stocked closing departed runs_closing isDown_closing runs_departed
    quit_departed (.fetchBatch (.ofNat 0))
  have hserved : departed.client.lastWord (.fetchBatch (.ofNat 0)) = .ok (.batch .empty) := by cbv
  have hspent := quit_departed.spent
    ((runs_after (e := .order .start) trivial).trans (runs_closing.trans runs_departed))
  rw [hspent.outcome?_take, hserved] at hrefused
  cases hrefused

end Situation

end ConsensusLink
