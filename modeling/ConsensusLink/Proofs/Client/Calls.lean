import ConsensusLink.Proofs.Client.Settling
/-!
# What a turn comes to

A turn of a job and a turn at an attempt of the coordinator are described by the calls that they
make of the node and by what becomes of the task. `jobTurn_effect`, `beginAttempt_effect` and
`resumeAttempt_effect` say all that such a turn can do, so that nothing below has to look into a
turn again: what an effect does not mention is as it was before.
-/

namespace ConsensusLink

open Promise

variable {σ φ : Type}

/-! ## Calls of the node -/

/-- One call goes on: it is begun, or it is resumed in the phase in which it waits. -/
inductive Remote.Goes (remote : Remote σ φ) (call : Call) (now : Nat) :
    Option φ → σ → CallProgress φ → σ → Prop
  | begun {s progress s'} (h : remote.begin call now s = (progress, s')) :
      Goes remote call now none s progress s'
  | resumed {phase s progress s'} (h : remote.resume call phase now s = (progress, s')) :
      Goes remote call now (some phase) s progress s'

/-- The attempts of a call within one turn, which starts with the state `retry₀` of the retry loop:
the first attempt goes on, and each further one is begun at once upon the end of the one before. -/
inductive Remote.Tries (remote : Remote σ φ) (policy : Retry.Policy Failure) (call : Call)
    (now : Nat) (retry₀ : Retry.State) (start : Option φ) (s₀ : σ) :
    Retry.State → CallProgress φ → σ → Prop
  | first {progress s} (h : remote.Goes call now start s₀ progress s) :
      Tries remote policy call now retry₀ start s₀ retry₀ progress s
  | again {retry next result s progress s'}
      (h : Tries remote policy call now retry₀ start s₀ retry (.ends result) s)
      (hj : policy.judge retry result = .again 0 next)
      (h' : remote.Goes call now none s progress s') :
      Tries remote policy call now retry₀ start s₀ next progress s'

/-- Where the retry loop of a job stands in a stage. -/
def JobStage.retry (policy : Retry.Policy Failure) : JobStage φ → Retry.State
  | .calling retry _ | .pausing retry => retry
  | .waiting | .working => policy.start

/-- The phase in which the call of a job waits. -/
def JobStage.phase? : JobStage φ → Option φ
  | .calling _ phase => some phase
  | _ => none

lemma JobStage.eq_calling {stage : JobStage φ} {phase : φ} (h : stage.phase? = some phase) :
    ∃ retry, stage = .calling retry phase := by
  cases stage with
  | calling retry _ =>
    cases h
    exact ⟨retry, rfl⟩
  | _ => cases h

/-- The phase in which the call of an attempt waits. -/
def AttemptStage.phase? : AttemptStage φ → Option φ
  | .calling phase _ => some phase
  | _ => none

namespace Client

variable {c : Client σ φ}

/-! ## Slots and the clock -/

/-- Slots change hands and tasks become ready, but the pool is up or down as before and no time
passes. -/
structure Keeps (c : Client σ φ) (pool : Pool TaskId) (schedule : Schedule TaskId) : Prop where
  isDown : pool.isDown = c.pool.isDown
  now : schedule.now = c.schedule.now

lemma Keeps.refl (c : Client σ φ) : c.Keeps c.pool c.schedule := ⟨rfl, rfl⟩

lemma now_wake (s : Schedule TaskId) (t : TaskId) : (s.wake t).now = s.now := by
  unfold Schedule.wake
  split <;> rfl

lemma isDown_release (p : Pool TaskId) : p.release.2.isDown = p.isDown := by
  unfold Pool.release
  split <;> rfl

lemma isDown_leave (p : Pool TaskId) (t : TaskId) : (p.leave t).2.isDown = p.isDown := by
  unfold Pool.leave
  split
  · exact isDown_release _
  · rfl

lemma isDown_ask (p : Pool TaskId) (t : TaskId) : (p.ask t).2.2.isDown = p.isDown := by
  unfold Pool.ask
  split
  · exact isDown_leave p t
  · split
    · rfl
    · split
      · rfl
      · split <;> rfl

lemma ask_refused {p : Pool TaskId} {t : TaskId} (h : (p.ask t).1 = .refused) :
    p.isDown = true := by
  unfold Pool.ask at h
  split at h
  · assumption
  · split at h
    · cases h
    · split at h
      · cases h
      · split at h <;> cases h

lemma wakeNext_eq (c : Client σ φ) (t : Option TaskId) :
    ∃ schedule, c.wakeNext t = { c with schedule } ∧ schedule.now = c.schedule.now := by
  cases t with
  | none => exact ⟨c.schedule, rfl, rfl⟩
  | some t => exact ⟨c.schedule.wake t, rfl, now_wake _ _⟩

lemma releaseSlot_eq (c : Client σ φ) :
    ∃ pool schedule, c.releaseSlot = { c with pool, schedule } ∧ c.Keeps pool schedule := by
  obtain ⟨schedule, h, hn⟩ := wakeNext_eq { c with pool := c.pool.release.2 } c.pool.release.1
  exact ⟨_, schedule, h, isDown_release _, hn⟩

lemma leavePool_eq (c : Client σ φ) :
    ∃ pool schedule, c.leavePool = { c with pool, schedule } ∧ c.Keeps pool schedule := by
  obtain ⟨schedule, h, hn⟩ :=
    wakeNext_eq { c with pool := (c.pool.leave .coordinator).2 } (c.pool.leave .coordinator).1
  exact ⟨_, schedule, h, isDown_leave _ _, hn⟩

/-! ## Jobs -/

/-- The attempts that a job makes in a turn that it begins in a given stage. -/
def JobTries (c : Client σ φ) (job : Job) (stage : JobStage φ) (retry : Retry.State)
    (progress : CallProgress φ) (node : σ) : Prop :=
  ∃ call, job.call? = some call ∧
    c.remote.Tries (c.jobPolicy job) call c.now (stage.retry (c.jobPolicy job)) stage.phase? c.node
      retry progress node

/-- What a turn of a job can come to. The job has its place `i` among the tasks and owes the
promise `p`. -/
inductive JobEffect (c : Client σ φ) (i : Nat) (job : Job) (p : Id) (stage : JobStage φ) :
    Client σ φ → Prop
  /-- It stays where it is. -/
  | stays {pool schedule} (hk : c.Keeps pool schedule) :
      JobEffect c i job p stage { c with pool, schedule }
  /-- It begins to work without a call. -/
  | works {pool schedule} (hk : c.Keeps pool schedule) (hcall : job.call? = none) :
      JobEffect c i job p stage
        { c with pool, schedule, tasks := c.tasks.set i (.job job p .working) }
  /-- Its call waits. -/
  | waits {retry ms phase node pool schedule} (hk : c.Keeps pool schedule)
      (h : c.JobTries job stage retry (.waits ms phase) node) :
      JobEffect c i job p stage
        { c with node, pool, schedule, tasks := c.tasks.set i (.job job p (.calling retry phase)) }
  /-- It pauses before its next attempt. -/
  | pauses {retry result delay next node pool schedule} (hk : c.Keeps pool schedule)
      (h : c.JobTries job stage retry (.ends result) node)
      (hj : (c.jobPolicy job).judge retry result = .again delay next) :
      JobEffect c i job p stage
        { c with node, pool, schedule, tasks := c.tasks.set i (.job job p (.pausing next)) }
  /-- It ends without an answer of the node. -/
  | drops {o pool schedule} (hk : c.Keeps pool schedule)
      (ho : (o = .error .shutDown ∧ c.pool.isDown = true) ∨ job.call? = none) :
      JobEffect c i job p stage
        (Client.settle { c with pool, schedule, tasks := c.tasks.set i .finished } p o)
  /-- It ends because its call broke down. -/
  | breaks {retry node pool schedule} (hk : c.Keeps pool schedule)
      (h : c.JobTries job stage retry .breaks node) :
      JobEffect c i job p stage
        (Client.settle { c with node, pool, schedule, tasks := c.tasks.set i .finished } p
          (.error job.broken))
  /-- It ends with an answer of the node. -/
  | answers {retry result node pool schedule} (hk : c.Keeps pool schedule)
      (h : c.JobTries job stage retry (.ends result) node)
      (hj : (c.jobPolicy job).judge retry result = .finish result) :
      JobEffect c i job p stage
        (Client.settle
          { c with
            node, pool, schedule
            tracker := (c.concludeJob job result).2.tracker
            tasks := c.tasks.set i .finished } p (c.concludeJob job result).1)

/-- A loop that ends, ends with the result of its last attempt. -/
lemma judge_finish {α : Type} {policy : Retry.Policy Failure} {retry : Retry.State}
    {result r : Except Failure α} (h : policy.judge retry result = .finish r) : r = result := by
  unfold Retry.Policy.judge at h
  split at h
  · cases h
    rfl
  · split at h
    · cases h
      rfl
    · split at h
      · cases h
        rfl
      · cases h

lemma judge_again {α : Type} {policy : Retry.Policy Failure} {retry next : Retry.State}
    {result : Except Failure α} {delay : UInt64}
    (h : policy.judge retry result = .again delay next) :
    ∃ e, result = .error e ∧ policy.retryable e = true := by
  unfold Retry.Policy.judge at h
  split at h
  · cases h
  · rename_i e
    split at h
    · cases h
    · rename_i hr
      exact ⟨e, rfl, by simpa using hr⟩

lemma endJob_eq (c : Client σ φ) (i : Nat) (p : Id) (o : Outcome Answer) :
    ∃ pool schedule, c.endJob i p o =
      Client.settle { c with pool, schedule, tasks := c.tasks.set i .finished } p o ∧
      c.Keeps pool schedule := by
  obtain ⟨pool, schedule, h, hk⟩ := releaseSlot_eq ((c.setTask i .finished).dropAlarms (.task i))
  exact ⟨pool, schedule, by rw [endJob, h]; rfl, hk.isDown, hk.now⟩

/-- Concluding a job looks at the counts and at the clock, and changes the counts alone. -/
lemma concludeJob_eq (c : Client σ φ) (job : Job) (o : Outcome Answer) {node : σ}
    {pool : Pool TaskId} {schedule : Schedule TaskId} (hs : schedule.now = c.schedule.now) :
    Client.concludeJob { c with node, pool, schedule } job o =
      ((c.concludeJob job o).1,
        { c with node, pool, schedule, tracker := (c.concludeJob job o).2.tracker }) := by
  have hnow : Client.now { c with node, pool, schedule } = c.now := hs
  unfold concludeJob
  split <;> simp only [hnow]

variable {i : Nat} {job : Job} {p : Id} {stage : JobStage φ}

/-- A turn of a job in which its calls go on. The node is as the last of them has left it. -/
structure JobGoes (c : Client σ φ) (i : Nat) (job : Job) (p : Id) (stage : JobStage φ)
    (c' : Client σ φ) : Prop where
  effect : JobEffect c i job p stage c'
  tries : ∃ retry progress node, c.JobTries job stage retry progress node ∧ c'.node = node

lemma node_settle (c : Client σ φ) (p : Id) (o : Outcome Answer) :
    (c.settle p o).node = c.node := by
  obtain ⟨_, _, _, _, _, _, h⟩ := settle_frame c p o
  rw [h]

/-- Going on with a job after some attempts of its turn. The induction is on the attempts that the
policy still allows, since each verdict in favour of another attempt uses one up. -/
lemma proceedJob_goes {call : Call} (hcall : job.call? = some call) {retry : Retry.State}
    {progress : CallProgress φ} {node : σ} {pool : Pool TaskId} {schedule : Schedule TaskId}
    (hk : c.Keeps pool schedule)
    (h : c.remote.Tries (c.jobPolicy job) call c.now (stage.retry (c.jobPolicy job)) stage.phase?
      c.node retry progress node) :
    JobGoes c i job p stage
      (Client.proceedJob { c with node, pool, schedule } i job p (c.jobPolicy job) retry call
        progress) := by
  induction hn : (c.jobPolicy job).maxRetries.toNat - retry.retries.toNat using Nat.strongRecOn
    generalizing retry progress node with
  | _ n ih =>
  have htries : c.JobTries job stage retry progress node := ⟨call, hcall, h⟩
  rw [proceedJob.eq_def]
  cases progress with
  | waits ms phase => exact ⟨.waits ⟨hk.isDown, hk.now⟩ htries, _, _, _, htries, rfl⟩
  | breaks =>
    obtain ⟨pool', schedule', he, hk'⟩ :=
      endJob_eq { c with node, pool, schedule } i p (.error job.broken)
    simp only [he]
    exact ⟨.breaks ⟨hk'.isDown.trans hk.isDown, hk'.now.trans hk.now⟩ htries, _, _, _, htries,
      node_settle ..⟩
  | ends result =>
    dsimp only
    split
    · -- this was the last attempt
      rename_i r hj
      obtain rfl := judge_finish hj
      rw [concludeJob_eq c job r hk.now]
      obtain ⟨pool', schedule', he, hk'⟩ := endJob_eq
        { c with node, pool, schedule, tracker := (c.concludeJob job r).2.tracker } i p
        (c.concludeJob job r).1
      simp only [he]
      exact ⟨.answers ⟨hk'.isDown.trans hk.isDown, hk'.now.trans hk.now⟩ htries hj, _, _, _, htries,
        node_settle ..⟩
    · rename_i delay next hj
      split
      · -- the next attempt begins at once
        rename_i hd
        subst hd
        have hlt := Retry.Policy.retries_of_judge hj
        rw [attemptJob.eq_def]
        have hgo : c.remote.Goes call c.now none node (c.remote.begin call c.now node).1
            (c.remote.begin call c.now node).2 := .begun rfl
        have hnow : Client.now { c with node, pool, schedule } = c.now := hk.now
        simp only [beginCall, hnow]
        exact ih _ (by omega) (.again h hj hgo) rfl
      · exact ⟨.pauses ⟨hk.isDown, hk.now⟩ htries hj, _, _, _, htries, rfl⟩

/-- A first attempt of a turn that begins a call. -/
lemma attemptJob_goes (stage : JobStage φ) {call : Call} (hcall : job.call? = some call)
    {pool : Pool TaskId} {schedule : Schedule TaskId} (hk : c.Keeps pool schedule)
    (hp : stage.phase? = none) :
    JobGoes c i job p stage
      (Client.attemptJob { c with pool, schedule } i job p (c.jobPolicy job)
        (stage.retry (c.jobPolicy job)) call) := by
  have hgo : c.remote.Goes call c.now stage.phase? c.node (c.remote.begin call c.now c.node).1
      (c.remote.begin call c.now c.node).2 := hp ▸ .begun rfl
  have hnow : Client.now { c with pool, schedule } = c.now := hk.now
  rw [attemptJob.eq_def]
  simp only [beginCall, hnow]
  exact proceedJob_goes hcall hk (.first hgo)

/-- An attempt that ends at once is followed by the next one, if nothing is to be waited for. -/
lemma attemptJob_of_again {policy : Retry.Policy Failure} {retry next : Retry.State} {call : Call}
    {r : Outcome Answer} (hends : (c.beginCall call).1 = .ends r)
    (hj : policy.judge retry r = .again 0 next) :
    c.attemptJob i job p policy retry call =
      (c.beginCall call).2.attemptJob i job p policy next call := by
  rw [attemptJob]
  dsimp only
  rw [hends, proceedJob]
  split
  · rename_i hfinish
    cases hfinish.symm.trans hj
  · rename_i hagain
    obtain ⟨rfl, rfl⟩ := Retry.Verdict.again.inj (hagain.symm.trans hj)
    rfl

/-- An attempt that ends at once with the last answer ends the job. -/
lemma attemptJob_of_finish {policy : Retry.Policy Failure} {retry : Retry.State} {call : Call}
    {r o : Outcome Answer} (hends : (c.beginCall call).1 = .ends r)
    (hj : policy.judge retry r = .finish o) :
    c.attemptJob i job p policy retry call =
      ((c.beginCall call).2.concludeJob job o).2.endJob i p
        ((c.beginCall call).2.concludeJob job o).1 := by
  rw [attemptJob]
  dsimp only
  rw [hends, proceedJob]
  split
  · rename_i hfinish
    obtain rfl := Retry.Verdict.finish.inj (hfinish.symm.trans hj)
    rfl
  · rename_i hagain
    cases hagain.symm.trans hj

lemma beginJob_effect {pool : Pool TaskId} {schedule : Schedule TaskId}
    (hk : c.Keeps pool schedule) :
    JobEffect c i job p .waiting (Client.beginJob { c with pool, schedule } i job p) := by
  cases job with
  | read call => exact (attemptJob_goes .waiting rfl hk rfl).effect
  | query counter ticket => exact (attemptJob_goes .waiting rfl hk rfl).effect
  | errand name delay result =>
    rw [beginJob]
    split
    · obtain ⟨pool', schedule', he, hk'⟩ := endJob_eq { c with pool, schedule } i p
        (result.getD (.error (Job.errand name delay result).broken))
      rw [he]
      exact .drops ⟨hk'.isDown.trans hk.isDown, hk'.now.trans hk.now⟩ (.inr rfl)
    · exact .works ⟨hk.isDown, hk.now⟩ rfl

lemma resumeJob_effect (c : Client σ φ) (i : Nat) (job : Job) (p : Id) (stage : JobStage φ) :
    JobEffect c i job p stage (c.resumeJob i job p stage) := by
  unfold resumeJob
  split
  · -- a job that has a slot is told that the pool is down
    rename_i hd
    obtain ⟨pool, schedule, he, hk⟩ := endJob_eq c i p (.error .shutDown)
    rw [he]
    exact .drops hk (.inl ⟨rfl, hd⟩)
  · split
    · exact .stays (.refl c)
    · split
      · rename_i name delay result
        obtain ⟨pool, schedule, he, hk⟩ := endJob_eq c i p
          (result.getD (.error (Job.errand name delay result).broken))
        rw [he]
        exact .drops hk (.inr rfl)
      · split
        · rename_i call hcall
          exact (proceedJob_goes hcall (.refl c) (.first (.resumed rfl))).effect
        · exact .stays (.refl c)
      · rename_i retry _
        split
        · rename_i call hcall
          exact (attemptJob_goes (.pausing retry) hcall (.refl c) rfl).effect
        · exact .stays (.refl c)
      · exact .stays (.refl c)

/-- What a turn of a job comes to. -/
theorem jobTurn_effect (c : Client σ φ) (i : Nat) (job : Job) (p : Id) (stage : JobStage φ) :
    JobEffect c i job p stage (c.jobTurn i job p stage) := by
  unfold jobTurn
  split
  · obtain ⟨schedule, hw, hn⟩ :=
      wakeNext_eq { c with pool := (c.pool.ask (.task i)).2.2 } (c.pool.ask (.task i)).2.1
    have hk : c.Keeps (c.pool.ask (.task i)).2.2 schedule := ⟨isDown_ask _ _, hn⟩
    simp only [hw]
    split
    · exact beginJob_effect hk
    · exact .stays hk
    · rename_i hr
      exact .drops hk (.inl ⟨rfl, ask_refused hr⟩)
  · exact resumeJob_effect c i job p stage

end Client

end ConsensusLink
