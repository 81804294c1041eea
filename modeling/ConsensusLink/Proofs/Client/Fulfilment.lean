import ConsensusLink.Proofs.Client.Keeping
/-!
# How a job ends

A job that was admitted owes its promise until a turn of its own in which it ends: with what its
work has come to, with an internal failure if its work broke down, or, if the pool is down, with the
news of that. While the pool is down its next turn is its last. Nothing else that happens to the
client takes a job off its promise, and what an earlier job has settled is settled once and for all.
-/

namespace ConsensusLink

open Promise Relation Client

variable {σ φ : Type}

namespace Client

variable {c c' : Client σ φ} {i : Nat} {job : Job} {p : Id} {stage : JobStage φ}
  {o : Outcome Answer}

/-- What a job that ends in its turn can settle its promise with. -/
inductive ComesTo (c : Client σ φ) (job : Job) (stage : JobStage φ) : Outcome Answer → Prop
  /-- Work without calls returns its result. -/
  | returns {name delay o} (h : job = .errand name delay (some o)) : ComesTo c job stage o
  /-- The last call has returned, and the job makes of the answer what it makes of it. -/
  | answers {retry result node} (h : c.JobTries job stage retry (.ends result) node)
      (hj : (c.jobPolicy job).judge retry result = .finish result) :
      ComesTo c job stage (c.concludeJob job result).1
  /-- The work broke down, without calls or in a call. -/
  | panics (h : (∃ name delay, job = .errand name delay none) ∨
      ∃ retry node, c.JobTries job stage retry .breaks node) :
      ComesTo c job stage (.error (.internal (job.name ++ " panicked")))
  /-- The pool is down. -/
  | cutShort (hd : c.pool.isDown = true) : ComesTo c job stage (.error .shutDown)

/-! ## Work without calls -/

lemma comesTo_errand (c : Client σ φ) (name : String) (delay : Nat)
    (result : Option (Outcome Answer)) (stage : JobStage φ) :
    c.ComesTo (.errand name delay result) stage
      (result.getD (.error (Job.errand name delay result).broken)) := by
  cases result with
  | none => exact .panics (.inl ⟨name, delay, rfl⟩)
  | some o => exact .returns rfl

lemma promises_endJob (c : Client σ φ) (i : Nat) (p : Id) (o : Outcome Answer) :
    ∃ c₀ : Client σ φ, c₀.promises = c.promises ∧ c.endJob i p o = c₀.settle p o := by
  obtain ⟨pool, schedule, h, -⟩ := endJob_eq c i p o
  exact ⟨{ c with pool, schedule, tasks := c.tasks.set i .finished }, rfl, h⟩

/-- In a turn of work without calls nothing is settled, or its promise is, with its result. -/
lemma errand_turn (c : Client σ φ) (i : Nat) (name : String) (delay : Nat)
    (result : Option (Outcome Answer)) (p : Id) (stage : JobStage φ) :
    (c.jobTurn i (.errand name delay result) p stage).promises = c.promises ∨
      ∃ (c₀ : Client σ φ) (o : Outcome Answer), c₀.promises = c.promises ∧
        c.jobTurn i (.errand name delay result) p stage = c₀.settle p o ∧
        c.ComesTo (.errand name delay result) stage o := by
  have hend : ∀ (c' : Client σ φ) o, c'.promises = c.promises →
      c.ComesTo (.errand name delay result) stage o →
      ∃ (c₀ : Client σ φ) (o' : Outcome Answer), c₀.promises = c.promises ∧
        c'.endJob i p o = c₀.settle p o' ∧ c.ComesTo (.errand name delay result) stage o' := by
    intro c' o hsame ho
    obtain ⟨c₀, hc₀, he⟩ := promises_endJob c' i p o
    exact ⟨c₀, o, hc₀.trans hsame, he, ho⟩
  have hresume : (c.resumeJob i (.errand name delay result) p stage).promises = c.promises ∨
      ∃ (c₀ : Client σ φ) (o : Outcome Answer), c₀.promises = c.promises ∧
        c.resumeJob i (.errand name delay result) p stage = c₀.settle p o ∧
        c.ComesTo (.errand name delay result) stage o := by
    unfold resumeJob
    split
    · rename_i hd
      exact .inr (hend c _ rfl (.cutShort hd))
    · split
      · exact .inl rfl
      · exact .inr (hend c _ rfl (comesTo_errand c name delay result stage))
  unfold jobTurn
  split
  · obtain ⟨schedule, hw, -⟩ :=
      wakeNext_eq { c with pool := (c.pool.ask (.task i)).2.2 } (c.pool.ask (.task i)).2.1
    simp only [hw]
    split
    · rw [beginJob]
      split
      · exact .inr (hend _ _ rfl (comesTo_errand c name delay result _))
      · exact .inl rfl
    · exact .inl rfl
    · rename_i hr
      exact .inr ⟨setTask { c with pool := (c.pool.ask (.task i)).2.2, schedule } i .finished, _,
        rfl, rfl, .cutShort (ask_refused hr)⟩
  · exact hresume

/-- **How a job ends.** What a job settles its promise with is what it has come to. -/
theorem comesTo_of_settled (hp : c.promises.Pending p)
    (ho : (c.jobTurn i job p stage).promises.outcome? p = some o) : c.ComesTo job stage o := by
  by_cases hcall : job.call? = none
  · obtain ⟨name, delay, result, rfl⟩ :
        ∃ name delay result, job = .errand name delay result := by
      cases job with
      | errand name delay result => exact ⟨_, _, _, rfl⟩
      | read => cases hcall
      | query => cases hcall
    obtain hsame | ⟨c₀, o', hpromises, hturn, hcomes⟩ :=
      errand_turn c i name delay result p stage
    · rw [hsame, hp.outcome?_eq] at ho
      cases ho
    · rw [hturn, outcome?_settle (hpromises ▸ hp)] at ho
      exact Option.some.inj ho ▸ hcomes
  · have heff := jobTurn_effect c i job p stage
    generalize c.jobTurn i job p stage = c' at heff ho
    cases heff with
    | stays => cases hp.outcome?_eq.symm.trans ho
    | works => cases hp.outcome?_eq.symm.trans ho
    | waits => cases hp.outcome?_eq.symm.trans ho
    | pauses => cases hp.outcome?_eq.symm.trans ho
    | drops hk hdrop =>
      rename_i pool schedule
      rw [outcome?_settle (c := { c with pool, schedule, tasks := c.tasks.set i .finished }) hp]
        at ho
      obtain ⟨rfl, hd⟩ := hdrop.resolve_right hcall
      exact Option.some.inj ho ▸ .cutShort hd
    | breaks hk h =>
      rename_i retry node pool schedule
      rw [outcome?_settle
        (c := { c with node, pool, schedule, tasks := c.tasks.set i .finished }) hp] at ho
      exact Option.some.inj ho ▸ .panics (.inr ⟨_, _, h⟩)
    | answers hk h hj =>
      rename_i retry result node pool schedule
      rw [outcome?_settle
        (c := { c with
          node, pool, schedule
          tracker := (c.concludeJob job result).2.tracker
          tasks := c.tasks.set i .finished }) hp] at ho
      exact Option.some.inj ho ▸ .answers h hj

/-! ## When the pool is down -/

lemma ask_of_isDown {τ : Type} [DecidableEq τ] {pool : Pool τ} (hd : pool.isDown = true) (t : τ) :
    (pool.ask t).1 = .refused := by
  rw [Pool.ask, if_pos hd]

/-- A job that has its turn while the pool is down is told so and ends, wherever it is. -/
lemma jobTurn_of_isDown (hd : c.pool.isDown = true) (i : Nat) (job : Job) (p : Id)
    (stage : JobStage φ) :
    ∃ pool schedule, pool.isDown = true ∧
      c.jobTurn i job p stage =
        Client.settle { c with pool, schedule, tasks := c.tasks.set i .finished } p
          (.error .shutDown) := by
  have hresume : ∃ pool schedule, pool.isDown = true ∧
      c.resumeJob i job p stage =
        Client.settle { c with pool, schedule, tasks := c.tasks.set i .finished } p
          (.error .shutDown) := by
    obtain ⟨pool, schedule, h, hk⟩ := endJob_eq c i p (.error .shutDown)
    exact ⟨pool, schedule, hk.isDown.trans hd, by unfold resumeJob; rw [if_pos hd, h]⟩
  cases stage with
  | waiting =>
    obtain ⟨schedule, hw, -⟩ :=
      wakeNext_eq { c with pool := (c.pool.ask (.task i)).2.2 } (c.pool.ask (.task i)).2.1
    refine ⟨(c.pool.ask (.task i)).2.2, schedule, (isDown_ask _ _).trans hd, ?_⟩
    rw [jobTurn]
    simp only [hw, ask_of_isDown hd]
    rfl
  | _ => exact hresume

/-! ## When the work is done -/

/-- What the work of a job has come to by the time of its next turn: work without calls is over
after its time, and a call that waits has broken down or has returned an answer that ends the
attempts. -/
inductive Done (c : Client σ φ) (job : Job) : JobStage φ → Outcome Answer → Prop
  | worked {name delay result} (h : job = .errand name delay result) :
      Done c job .working (result.getD (.error job.broken))
  | broke {retry phase call node} (hcall : job.call? = some call)
      (h : c.remote.resume call phase c.now c.node = (.breaks, node)) :
      Done c job (.calling retry phase) (.error job.broken)
  | returned {retry phase call result node} (hcall : job.call? = some call)
      (h : c.remote.resume call phase c.now c.node = (.ends result, node))
      (hj : (c.jobPolicy job).judge retry result = .finish result) :
      Done c job (.calling retry phase) (c.concludeJob job result).1

lemma outcome?_endJob (hp : c.promises.Pending p) (i : Nat) (o : Outcome Answer) :
    (c.endJob i p o).promises.outcome? p = some o := by
  obtain ⟨c₀, hsame, h⟩ := promises_endJob c i p o
  rw [h, outcome?_settle (hsame ▸ hp)]

lemma proceedJob_breaks (c : Client σ φ) (i : Nat) (job : Job) (p : Id)
    (policy : Retry.Policy Failure) (retry : Retry.State) (call : Call) :
    c.proceedJob i job p policy retry call .breaks = c.endJob i p (.error job.broken) := by
  rw [proceedJob.eq_def]

lemma proceedJob_finish {policy : Retry.Policy Failure} {retry : Retry.State}
    {result r : Outcome Answer} (c : Client σ φ) (i : Nat) (job : Job) (p : Id) (call : Call)
    (hj : policy.judge retry result = .finish r) :
    c.proceedJob i job p policy retry call (.ends result) =
      (c.concludeJob job r).2.endJob i p (c.concludeJob job r).1 := by
  rw [proceedJob.eq_def]
  dsimp only
  split <;> rename_i hj' <;> cases hj.symm.trans hj'
  rfl

/-- The turn of a job whose call goes on. -/
lemma jobTurn_calling {retry : Retry.State} {phase : φ} {call : Call} (p : Id)
    (hcall : job.call? = some call) (hup : c.pool.isDown = false)
    (hwake : c.isPausing (.task i) = false) :
    c.jobTurn i job p (.calling retry phase) =
      (c.resumeCall call phase).2.proceedJob i job p (c.jobPolicy job) retry call
        (c.resumeCall call phase).1 := by
  cases job with
  | errand => cases hcall
  | _ =>
    cases hcall
    simp only [jobTurn, resumeJob, hup, hwake, Bool.false_eq_true, if_false, Job.call?]
    rfl

/-- The calls of a job that gets a slot, or has one and is not to wait, go on in its turn. -/
lemma jobTurn_goes {call : Call} (p : Id) (hcall : job.call? = some call)
    (hstage : stage ≠ .working) (hslot : stage = .waiting → (c.pool.ask (.task i)).1 = .taken)
    (hup : c.pool.isDown = false) (hwake : c.isPausing (.task i) = false) :
    JobGoes c i job p stage (c.jobTurn i job p stage) := by
  cases stage with
  | waiting =>
    obtain ⟨schedule, hw, hn⟩ :=
      wakeNext_eq { c with pool := (c.pool.ask (.task i)).2.2 } (c.pool.ask (.task i)).2.1
    have hk : c.Keeps (c.pool.ask (.task i)).2.2 schedule := ⟨isDown_ask _ _, hn⟩
    rw [jobTurn]
    simp only [hw, hslot rfl]
    cases job with
    | errand => cases hcall
    | _ => exact attemptJob_goes .waiting rfl hk rfl
  | calling retry phase =>
    rw [jobTurn_calling p hcall hup hwake]
    exact proceedJob_goes hcall (.refl c) (.first (.resumed rfl))
  | pausing retry =>
    cases job with
    | errand => cases hcall
    | _ =>
      simp only [jobTurn, resumeJob, hup, hwake, Bool.false_eq_true, if_false, Job.call?]
      exact attemptJob_goes (.pausing retry) rfl (.refl c) rfl
  | working => exact absurd rfl hstage

/-- Whose work is done and whose time has come, settles its promise in its turn. -/
lemma Done.outcome? (h : c.Done job stage o) (hp : c.promises.Pending p)
    (hup : c.pool.isDown = false) (hwake : c.isPausing (.task i) = false) :
    (c.jobTurn i job p stage).promises.outcome? p = some o := by
  cases h with
  | worked hjob =>
    subst hjob
    simp only [jobTurn, resumeJob, hup, hwake, Bool.false_eq_true, if_false]
    exact outcome?_endJob hp i _
  | @broke retry phase call node hcall h =>
    rw [jobTurn_calling p hcall hup hwake, resumeCall, h]
    dsimp only
    rw [proceedJob_breaks]
    exact outcome?_endJob (c := { c with node }) hp i _
  | @returned retry phase call result node hcall h hj =>
    rw [jobTurn_calling p hcall hup hwake, resumeCall, h]
    dsimp only
    rw [proceedJob_finish _ i job p call hj, concludeJob_eq c job result rfl]
    exact outcome?_endJob
      (c := { c with node, tracker := (c.concludeJob job result).2.tracker }) hp i _

end Client

namespace Situation

variable {s s' : Situation σ φ} {moves : σ → σ → Prop} {i : Nat} {job : Job} {p : Id}
  {stage : JobStage φ}

/-- Tasks are added, or the task that has its turn changes. -/
lemma Owned.tasks_after (h : s.Owned) (e : Event σ) :
    (∃ ts, (s.after e).client.tasks = s.client.tasks ++ ts) ∨
      ∃ j task, e = .job j ∧ (s.after e).client.tasks = s.client.tasks.set j task := by
  have hsame : ∀ {c : Client σ φ}, c.tasks = s.client.tasks →
      ∃ ts, c.tasks = s.client.tasks ++ ts :=
    fun hc => ⟨[], by rw [hc, List.append_nil]⟩
  cases e with
  | ask a =>
    have heff := take_effect s.client a
    rw [Situation.after]
    generalize s.client.take a = pc at heff
    obtain ⟨q, c⟩ := pc
    dsimp only at heff ⊢
    cases heff with
    | submits => exact .inl ⟨_, rfl⟩
    | _ => exact .inl (hsame rfl)
  | order o =>
    obtain ⟨_, _, _, _, _, _, _, _, hc, -⟩ := obey_eq s.client o
    rw [Situation.after, hc]
    exact .inl ⟨_, rfl⟩
  | job j =>
    have heff := turn_effect j h.no_direct
    rw [Situation.after]
    generalize s.client.turn (.task j) = c at heff
    cases heff with
    | stays => exact .inl (hsame rfl)
    | @job job' q stage' _ hj heff =>
      have howes : s.client.Owes j job' q := ⟨stage', hj⟩
      obtain ⟨_, _, _, _, _, _, _, tasks, _, _, rfl, -, -, hcase⟩ :=
        heff.outline (h.jobs_pending j job' q howes) (h.jobs_read j job' q howes)
      obtain ⟨-, -, -, rfl | ⟨_, rfl⟩⟩ | ⟨rfl, -⟩ := hcase
      · exact .inl (hsame rfl)
      · exact .inr ⟨j, _, rfl, rfl⟩
      · exact .inr ⟨j, _, rfl, rfl⟩
    | service hj => exact .inr ⟨j, _, rfl, rfl⟩
  | advance =>
    obtain ⟨htasks, -⟩ := h.advances_outline h.advances
    exact .inl (hsame htasks)
  | clock schedule => exact .inl (hsame rfl)
  | node n => exact .inl (hsame rfl)

/-- Nobody but a task itself changes how far it is. -/
lemma Owned.task_after (h : s.Owned) {task : Task φ} (hi : s.client.tasks[i]? = some task)
    {e : Event σ} (he : e ≠ .job i) : (s.after e).client.tasks[i]? = some task := by
  obtain ⟨ts, hts⟩ | ⟨j, task', rfl, hts⟩ := h.tasks_after e
  · obtain ⟨hlt, -⟩ := List.getElem?_eq_some_iff.1 hi
    rw [hts, List.getElem?_append_left hlt, hi]
  · have hji : j ≠ i := fun hji => he (hji ▸ rfl)
    rw [hts, List.getElem?_set_ne hji, hi]

/-- Tasks keep their numbers. -/
lemma Owned.length_tasks_le_after (h : s.Owned) (e : Event σ) :
    s.client.tasks.length ≤ (s.after e).client.tasks.length := by
  obtain ⟨ts, hts⟩ | ⟨j, task', -, hts⟩ := h.tasks_after e
  · rw [hts, List.length_append]
    exact Nat.le_add_right _ _
  · exact Nat.le_of_eq (List.length_set.symm.trans (congrArg _ hts.symm))

/-- Only in its own turn a job can end. -/
lemma Owned.owes_after (h : s.Owned) (ho : s.client.Owes i job p) {e : Event σ}
    (he : e ≠ .job i) : (s.after e).client.Owes i job p := by
  obtain ⟨stage, hi⟩ := ho
  exact ⟨stage, h.task_after hi he⟩

/-- In its own turn a job goes on, or it ends and settles its promise. -/
lemma Owned.ends_after (h : s.Owned) (hi : s.client.tasks[i]? = some (.job job p stage)) :
    (s.after (.job i)).client.Owes i job p ∨
      (s.after (.job i)).client.tasks = s.client.tasks.set i .finished ∧
        ∃ o, s.client.ComesTo job stage o ∧
          (s.after (.job i)).client.promises.outcome? p = some o ∧
          (s.after (.job i)).client.settled = s.client.settled ++ [p] := by
  have ho : s.client.Owes i job p := ⟨stage, hi⟩
  have hp := h.jobs_pending i job p ho
  have hturn : s.client.turn (.task i) = s.client.jobTurn i job p stage := by rw [turn, hi]
  have hcomes := @comesTo_of_settled _ _ s.client i job p stage
  have heff := jobTurn_effect s.client i job p stage
  rw [Situation.after, hturn]
  dsimp only
  generalize s.client.jobTurn i job p stage = c at hcomes heff
  have hrecord : ∀ o, c.promises.outcome? p = some o →
      c.settled = s.client.settled ++ [p] := by
    intro o houtcome
    obtain halike | ⟨c₀, o', halike, rfl⟩ := heff.settles
    · rw [halike.promises, hp.outcome?_eq] at houtcome
      cases houtcome
    · rw [settled_settle (halike.promises ▸ hp), settled_congr halike.settlements]
  obtain ⟨_, promises, settlements, _, _, _, _, tasks, _, _, rfl, -, -, hcase⟩ :=
    heff.outline hp (h.jobs_read i job p ho)
  obtain ⟨-, -, -, rfl | ⟨_, rfl⟩⟩ | ⟨rfl, t, o, -, hset⟩ := hcase
  · exact .inl ho
  · exact .inl (ho.set_job ho rfl)
  · have houtcome : promises.outcome? p = some o := hset.outcome p (List.mem_singleton_self p)
    exact .inr ⟨rfl, o, hcomes hp houtcome, houtcome, hrecord o houtcome⟩

/-- What can have become of a job at a later time: it still owes its promise, or it has ended in
some turn with what it had come to there. -/
inductive Became (moves : σ → σ → Prop) (s s' : Situation σ φ) (i : Nat) (job : Job) (p : Id) :
    Prop
  | owed (ho : s'.client.Owes i job p)
  | ended {u : Situation σ φ} {stage : JobStage φ} {o : Outcome Answer} (hr : Runs moves s u)
      (hi : u.client.tasks[i]? = some (.job job p stage)) (hcomes : u.client.ComesTo job stage o)
      (hr' : Runs moves (u.after (.job i)) s')
      (ho : s'.client.promises.outcome? p = some o)

/-- A job ends once, and its promise keeps the outcome. -/
theorem Owned.became_of_runs (h : s.Owned) (ho : s.client.Owes i job p) (hr : Runs moves s s') :
    Became moves s s' i job p := by
  induction hr with
  | refl => exact .owed ho
  | tail hr hstep ih =>
    have hstep' := hstep
    obtain ⟨e, -, rfl⟩ := hstep
    have howned := h.of_runs hr
    cases ih with
    | owed ho' =>
      by_cases he : e = .job i
      · subst he
        obtain ⟨stage, hi⟩ := ho'
        obtain ho'' | ⟨-, o, hcomes, houtcome, -⟩ := howned.ends_after hi
        · exact .owed ho''
        · exact .ended hr hi hcomes .refl houtcome
      · exact .owed (howned.owes_after ho' he)
    | ended hr₀ hi hcomes hr' houtcome =>
      exact .ended hr₀ hi hcomes (hr'.tail hstep')
        ((howned.persists_after e).outcome _ _ houtcome)

end Situation

end ConsensusLink
