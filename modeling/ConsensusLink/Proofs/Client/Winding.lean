import ConsensusLink.Proofs.Client.Closing
import ConsensusLink.Proofs.Client.Covering
/-!
# Winding up

Once the pool is down the work that is under way is wound up. Each job ends in its next turn, and no
job is added; each step brings the coordinator nearer to its end, whatever happens between its
steps; and the node is left alone. All that is owed is rejected. After each task has had a turn and
the coordinator three steps, nothing is under way, and nothing will be.
-/

namespace ConsensusLink

open Promise Relation Client

variable {σ φ : Type}

namespace Client

variable {c : Client σ φ}

/-- A pool that is down turns every job away. -/
lemma submit_of_isDown (hd : c.pool.isDown = true) (job : Job) :
    c.submit job = c.newSettled (.error .shutDown) := by
  rw [submit, Pool.enter, if_pos hd]

lemma tasks_onSettled (c : Client σ φ) (p : Id) (f : Follow) :
    (c.onSettled p f).tasks = c.tasks := by
  obtain ⟨_, _, _, _, hf, -⟩ := onSettled_eq c p f
  rw [hf]

/-- No job is added when the pool is down. -/
lemma tasks_take_of_isDown (hd : c.pool.isDown = true) (a : Ask) :
    (c.take a).2.tasks = c.tasks := by
  have hsubmit : ∀ {c' : Client σ φ} (job : Job), c'.pool.isDown = true →
      (c'.submit job).2.tasks = c'.tasks := by
    intro c' job hd'
    rw [submit_of_isDown hd']
    rfl
  cases a with
  | fetchBatch n =>
    rw [take, fetchBatch]
    split
    · rfl
    · rfl
    · exact (tasks_onSettled ..).trans (hsubmit _ hd)
  | findBatch m =>
    rw [take, findBatch]
    split
    · rfl
    · rfl
    · exact (tasks_onSettled ..).trans (hsubmit _ hd)
  | batchBlock n =>
    rw [take, batchBlock]
    split
    · rfl
    · rfl
    · exact (tasks_onSettled ..).trans (hsubmit _ hd)
  | progressMap => exact hsubmit _ hd
  | count k =>
    rw [take, count]
    split
    · rfl
    · split
      · rfl
      · exact (tasks_onSettled ..).trans (hsubmit _ hd)
  | sequence r =>
    rw [take, enqueue]
    dsimp only
    split
    · rfl
    · rename_i coordinator _
      obtain ⟨_, hs⟩ := alertCoordinator_eq { c with promises := c.promises.new.2, coordinator }
      rw [hs]
  | errand name delay result => exact hsubmit _ hd

end Client

namespace Situation

variable {s s' : Situation σ φ} {moves : σ → σ → Prop} {i : Nat} {job : Job} {p : Id}
  {e : Event σ} {es : List (Event σ)}

/-! ## Jobs -/

/-- When the pool is down, who owes a promise after an event has owed it before and did not have its
turn. -/
lemma Owned.owes_before (h : s.Owned) (hd : s.client.pool.isDown = true)
    (ho : (s.after e).client.Owes i job p) : s.client.Owes i job p ∧ e ≠ .job i := by
  cases e with
  | ask a =>
    obtain ⟨stage, hi⟩ := ho
    refine ⟨⟨stage, ?_⟩, by rintro ⟨⟩⟩
    rw [← tasks_take_of_isDown hd a]
    exact hi
  | order o =>
    obtain ⟨_, _, _, _, _, services, _, _, hc, -, hservices, -⟩ := obey_eq s.client o
    rw [Situation.after, hc] at ho
    refine ⟨owes_append rfl (fun job p stage => ?_) ho, by rintro ⟨⟩⟩
    obtain rfl | rfl := hservices <;> simp
  | job j =>
    rcases hj : s.client.tasks[j]? with _ | ⟨job', q, stage⟩ | ⟨call, q, phase⟩ | _ | _
    case some.direct => exact absurd (List.mem_of_getElem? hj) (h.no_direct call q phase)
    case some.job =>
      obtain ⟨pool, schedule, -, hc⟩ := jobTurn_of_isDown hd j job' q stage
      obtain ⟨_, _, _, _, _, _, hframe⟩ := settle_frame
        { s.client with pool, schedule, tasks := s.client.tasks.set j .finished } q
        (.error .shutDown)
      rw [Situation.after, turn, hj] at ho
      simp only [hc, hframe] at ho
      obtain ⟨ho, hne⟩ := owes_set_finished rfl ho
      exact ⟨ho, fun he => hne (Event.job.inj he).symm⟩
    case some.service =>
      rw [Situation.after, turn, hj] at ho
      simp only [hd, if_true] at ho
      obtain ⟨ho, hne⟩ := owes_set_finished rfl ho
      exact ⟨ho, fun he => hne (Event.job.inj he).symm⟩
    all_goals
      -- there is nothing to do, and hence nobody who owes anything
      rw [Situation.after, turn, hj] at ho
      refine ⟨ho, ?_⟩
      rintro ⟨⟩
      obtain ⟨_, hi⟩ := ho
      cases hj.symm.trans hi
  | advance =>
    obtain ⟨htasks, -⟩ := h.advances_outline h.advances
    obtain ⟨stage, hi⟩ := ho
    exact ⟨⟨stage, htasks ▸ hi⟩, by rintro ⟨⟩⟩
  | clock schedule => exact ⟨ho, by rintro ⟨⟩⟩
  | node n => exact ⟨ho, by rintro ⟨⟩⟩

/-- Who still owes a promise after some events has not had a turn. -/
lemma Owned.owes_before_all (h : s.Owned) (hd : s.client.pool.isDown = true)
    (ho : (s.afterAll es).client.Owes i job p) : s.client.Owes i job p ∧ .job i ∉ es := by
  induction es generalizing s with
  | nil => exact ⟨ho, nofun⟩
  | cons e es ih =>
    obtain ⟨ho', hes⟩ := ih (h.after e) (h.isDown_after hd e) ho
    obtain ⟨ho'', he⟩ := h.owes_before hd ho'
    refine ⟨ho'', fun hmem => ?_⟩
    rcases List.mem_cons.1 hmem with he' | hmem
    · exact he he'.symm
    · exact hes hmem

/-! ## The coordinator -/

/-- How many steps are left after an attempt, when the pool is down: unless it was refused it may be
repeated, in vain. -/
def stepsAfter : Outcome Unit → Nat
  | .error .shutDown => 2
  | _ => 3

/-- How many steps a coordinator that was started is away from its end, when the pool is down. -/
def lag (s : Situation σ φ) : Nat :=
  match s.stance with
  | .taking => 1
  | .judging _ _ _ o => stepsAfter o
  | .resting =>
    match s.client.coordinatorStage with
    | .stopped => 0
    | .busy .. => 1
    | .idle => 2
    | .held => 3

lemma stepsAfter_mem (o : Outcome Unit) : 2 ≤ stepsAfter o ∧ stepsAfter o ≤ 3 := by
  unfold stepsAfter
  split <;> decide

lemma lag_le (s : Situation σ φ) : s.lag ≤ 3 := by
  unfold lag
  split
  · decide
  · exact (stepsAfter_mem _).2
  · split <;> decide

lemma stopped_of_lag (h : s.lag = 0) :
    s.stance = .resting ∧ s.client.coordinatorStage = .stopped := by
  unfold lag at h
  split at h
  · cases h
  · rename_i o _
    have hsteps := stepsAfter_mem o
    omega
  · rename_i hs
    split at h
    · exact ⟨hs, ‹_›⟩
    all_goals cases h

/-- Two situations in which the coordinator is at the same point. -/
lemma lag_congr (hs : s'.stance = s.stance)
    (hc : s'.client.coordinatorStage = s.client.coordinatorStage) : s'.lag = s.lag := by
  rw [lag, lag, hs, hc]

/-- Aside of its own steps the coordinator is at most started. -/
lemma Aside.lag_le (h : s.Aside s') : s'.lag ≤ s.lag := by
  obtain hc | ⟨hheld, hidle⟩ := h.stage
  · exact Nat.le_of_eq (lag_congr h.stance hc)
  · cases hs : s.stance with
    | resting =>
      simp only [lag, h.stance, hs, hheld, hidle]
      decide
    | _ => simp only [lag, h.stance, hs, Nat.le_refl]

/-- A coordinator that was started remains so. -/
lemma Owned.started_after (h : s.Owned) (hc : s.client.coordinatorStage ≠ .held) (e : Event σ) :
    (s.after e).client.coordinatorStage ≠ .held := by
  by_cases he : e = .advance
  · subst he
    have hadv := h.advances
    rw [Situation.after]
    generalize s.advance = s' at hadv
    cases hadv with
    | idles _ hstage =>
      obtain rfl | rfl := hstage
      · exact hc
      · rintro ⟨⟩
    | attempts _ heff =>
      cases heff with
      | stays => rintro ⟨⟩
      | waits => rintro ⟨⟩
      | fails => exact hc
      | returns => exact hc
    | concludes => exact hc
    | answers => exact hc
    | stops => rintro ⟨⟩
    | pauses => rintro ⟨⟩
  · obtain hsame | ⟨hheld, -⟩ := (h.aside_of_ne he).stage
    · rw [hsame]
      exact hc
    · exact absurd hheld hc

/-- What is left after an attempt that is made again: it was not refused. -/
lemma stepsAfter_of_again {c : Client σ φ} {retry next : Retry.State} {o : Outcome Unit}
    {delay : UInt64} (hj : c.writePolicy.judge retry o = .again delay next) :
    stepsAfter o = 3 := by
  unfold stepsAfter
  split
  · cases hj
  · rfl

/-- Each step brings the coordinator nearer to its end. -/
lemma lag_advance (hd : s.client.pool.isDown = true)
    (hc : s.client.coordinatorStage ≠ .held) : s.advance.lag ≤ s.lag - 1 := by
  have hstep := s.proceeds
  generalize s.advance = s' at hstep
  cases hstep with
  | rests hs hstage =>
    simp only [lag, hs, hstage.resolve_left hc, Nat.le_refl]
  | wakes hs hstage => simp only [lag, hs, hstage, Nat.le_refl]
  | resumes _ _ hup => cases hd.symm.trans hup
  | aborts =>
    simp only [lag, coordinatorStage_stopCoordinator, Nat.zero_le]
  | @concludes _ _ _ o _ hs =>
    have hsteps := stepsAfter_mem o
    simp only [lag, hs, conclude]
    omega
  | repeats hs hj =>
    have hrefused := beginAttempt_of_isDown hd
    simp only [lag, hs, stepsAfter_of_again hj]
    rw [hrefused]
    exact Nat.le_refl _
  | pauses hs hj =>
    simp only [lag, hs, stepsAfter_of_again hj]
    exact Nat.le_succ 1
  | stops =>
    simp only [lag, coordinatorStage_stopCoordinator, Nat.zero_le]
  | idles _ hup => cases hd.symm.trans hup
  | begins _ hup => cases hd.symm.trans hup
  | answers _ hup => cases hd.symm.trans hup

end Situation

/-- Whether an event is a step of the coordinator. -/
def Event.isAdvance : Event σ → Bool
  | .advance => true
  | _ => false

namespace Situation

variable {s s' : Situation σ φ} {moves : σ → σ → Prop} {i : Nat} {job : Job} {p : Id}
  {e : Event σ} {es : List (Event σ)}

/-- With every step that it makes among other events the coordinator comes nearer to its end. -/
lemma Owned.lag_afterAll (h : s.Owned) (hd : s.client.pool.isDown = true)
    (hc : s.client.coordinatorStage ≠ .held) (es : List (Event σ)) :
    (s.afterAll es).lag ≤ s.lag - es.countP Event.isAdvance := by
  induction es generalizing s with
  | nil => exact Nat.le_refl _
  | cons e es ih =>
    have hrest := ih (h.after e) (h.isDown_after hd e) (h.started_after hc e)
    by_cases he : e = .advance
    · subst he
      have hfirst : (s.after .advance).lag ≤ s.lag - 1 := lag_advance hd hc
      rw [List.countP_cons_of_pos (by rfl)]
      exact Nat.le_trans hrest (by omega)
    · have hfirst := (h.aside_of_ne he).lag_le
      have hno : ¬e.isAdvance = true := by cases e <;> simp_all [Event.isAdvance]
      rw [List.countP_cons_of_neg hno]
      exact Nat.le_trans hrest (by omega)

/-! ## The end -/

/-- Nothing is under way any more. -/
structure Quit (s : Situation σ φ) : Prop where
  isDown : s.client.pool.isDown = true
  jobs : ∀ i job p, ¬s.client.Owes i job p
  stopped : s.lag = 0

/-- **The end is reached.** Each task learns that the pool is down in its next turn, and the
coordinator in three steps, whatever else happens meanwhile. -/
theorem Owned.quits (h : s.Owned) (hd : s.client.pool.isDown = true)
    (hc : s.client.coordinatorStage ≠ .held)
    (hturns : ∀ i < s.client.tasks.length, .job i ∈ es)
    (hsteps : 3 ≤ es.countP Event.isAdvance) : (s.afterAll es).Quit where
  isDown := by
    clear hturns hsteps
    induction es generalizing s with
    | nil => exact hd
    | cons e es ih => exact ih (h.after e) (h.isDown_after hd e) (h.started_after hc e)
  jobs i job p ho := by
    obtain ⟨⟨stage, hi⟩, hmem⟩ := h.owes_before_all hd ho
    exact hmem (hturns i (List.getElem?_eq_some_iff.1 hi).1)
  stopped := by
    have hlag := h.lag_afterAll hd hc es
    have hle := s.lag_le
    omega

/-- It is the end. -/
lemma Quit.after (hq : s.Quit) (h : s.Owned) (e : Event σ) : (s.after e).Quit where
  isDown := h.isDown_after hq.isDown e
  jobs i job p ho := hq.jobs i job p (h.owes_before hq.isDown ho).1
  stopped := by
    have hstarted : s.client.coordinatorStage ≠ .held := by
      rw [(stopped_of_lag hq.stopped).2]
      nofun
    have hlag := h.lag_afterAll hq.isDown hstarted [e]
    rw [hq.stopped, Nat.zero_sub] at hlag
    exact Nat.eq_zero_of_le_zero hlag

lemma Quit.of_runs (hq : s.Quit) (h : s.Owned) (hr : Runs moves s s') : s'.Quit := by
  induction hr with
  | refl => exact hq
  | tail hr hstep ih =>
    obtain ⟨e, -, rfl⟩ := hstep
    exact ih.after (h.of_runs hr) e

/-! ## What becomes of what is owed, and of the node -/

/-- What was pending when the pool was down is so still or was rejected, unless its attempt was
being judged. -/
theorem Owned.rejected_of_runs (h : s.Owned) (hcovered : s.Covered)
    (hd : s.client.pool.isDown = true) (hp : s.client.promises.Pending p)
    (hfree : ∀ r a o, s.stance ≠ .judging r p a o) (hr : Runs moves s s') :
    s'.client.promises.Pending p ∨ s'.client.promises.outcome? p = some (.error .shutDown) := by
  obtain ⟨i, job, ho⟩ | ⟨r, hmem⟩ := hcovered p hp
  · cases h.became_of_runs ho hr with
    | owed ho' => exact .inl ((h.of_runs hr).jobs_pending i job p ho')
    | @ended u stage o hr₀ hi _ hr' _ =>
      have hu := h.of_runs hr₀
      have hpending : u.client.promises.Pending p := hu.jobs_pending i job p ⟨stage, hi⟩
      obtain ⟨pool, schedule, -, hc⟩ := jobTurn_of_isDown (h.isDown_of_runs hr₀ hd) i job p stage
      have houtcome : (u.after (.job i)).client.promises.outcome? p =
          some (.error .shutDown) := by
        rw [Situation.after, turn, hi]
        simp only [hc]
        exact outcome?_settle (c := { u.client with pool, schedule, tasks := _ }) hpending _
      exact .inr (((hu.after (.job i)).persists_of_runs hr').outcome _ _ houtcome)
  · cases h.dismissed_of_runs hd hr hmem with
    | waits hmem' => exact .inl ((h.of_runs hr).duties_pending _ hmem')
    | rejected ho => exact .inr ho
    | concluded hs => exact absurd hs (hfree _ _ _)

/-- In the end nothing is pending. -/
lemma Quit.not_pending (hq : s.Quit) (hcovered : s.Covered)
    (hqueue : s.client.coordinator.queue = []) (p : Id) : ¬s.client.promises.Pending p := by
  intro hp
  obtain ⟨i, job, ho⟩ | ⟨r, hmem⟩ := hcovered p hp
  · exact hq.jobs i job p ho
  · obtain ⟨hrest, hstopped⟩ := stopped_of_lag hq.stopped
    have hnone : s.atHand = none := by simp only [atHand, hrest, hstopped]
    rw [duties_of_none hnone, hqueue] at hmem
    cases hmem

/-- When the pool is down the node is left alone. -/
lemma Owned.node_after_of_isDown (h : s.Owned) (hd : s.client.pool.isDown = true)
    (he : ∀ n, e ≠ .node n) : (s.after e).client.node = s.client.node := by
  cases e with
  | ask a => exact (h.aside_ask a).2
  | order o =>
    obtain ⟨_, _, _, _, _, _, _, _, hc, -⟩ := obey_eq s.client o
    rw [Situation.after, hc]
  | job j =>
    rcases hj : s.client.tasks[j]? with _ | ⟨job', q, stage⟩ | ⟨call, q, phase⟩ | _ | _
    case some.direct => exact absurd (List.mem_of_getElem? hj) (h.no_direct call q phase)
    case some.job =>
      obtain ⟨pool, schedule, -, hc⟩ := jobTurn_of_isDown hd j job' q stage
      obtain ⟨_, _, _, _, _, _, hframe⟩ := settle_frame
        { s.client with pool, schedule, tasks := s.client.tasks.set j .finished } q
        (.error .shutDown)
      rw [Situation.after, turn, hj]
      simp only [hc, hframe]
    case some.service =>
      rw [Situation.after, turn, hj]
      simp only [hd, if_true]
      rfl
    all_goals rw [Situation.after, turn, hj]
  | advance => exact h.node_advance_of_isDown hd
  | clock schedule => rfl
  | node n => exact absurd rfl (he n)

end Situation

end ConsensusLink
