import ConsensusLink.Proofs.Client.Closing
import ConsensusLink.Proofs.Pool.Slots
/-!
# Who uses the slots of a client

The requests of the pool of a client are its jobs and the attempts of its coordinator. What they do
in their turns are the steps that an attendance of the pool can make: at any time of a run there is
an attendance that the pool can have come to, in which the same requests queue and the same
requests run. So whatever holds of all attendances of a pool holds of the client.
-/

namespace ConsensusLink

open Promise Relation Client Attendance

variable {σ φ : Type}

/-! ## Where the requests of a client are -/

/-- Where a job is. -/
def JobStage.place : JobStage φ → Place
  | .waiting => .queueing
  | _ => .running

/-- Where an attempt is. -/
def AttemptStage.place : AttemptStage φ → Place
  | .waiting _ => .queueing
  | .calling .. => .running
  | .pausing => .outside

/-- Where a task is. -/
def Task.place : Task φ → Place
  | .job _ _ stage => stage.place
  | _ => .outside

/-- Where the coordinator is between two turns. -/
def CoordinatorStage.place : CoordinatorStage φ → Place
  | .busy _ _ _ stage => stage.place
  | _ => .outside

/-- Where an attempt is after its turn. -/
def Client.AttemptProgress.place : AttemptProgress σ φ → Place
  | .pending c => c.coordinatorStage.place
  | .result .. => .outside

namespace Situation

/-- Where a request of the pool is. In the middle of a turn the coordinator has no slot. -/
def place (s : Situation σ φ) : TaskId → Place
  | .coordinator =>
    match s.stance with
    | .resting => s.client.coordinatorStage.place
    | _ => .outside
  | .task i =>
    match s.client.tasks[i]? with
    | some t => t.place
    | none => .outside

/-- The requests of the client are where the attendance says, and the pool is that of the client. -/
structure Seats (s : Situation σ φ) (a : Attendance TaskId) : Prop where
  pool : a.pool = s.client.pool
  there : ∀ t, a.At t (s.place t)

end Situation

namespace Client

variable {c c' : Client σ φ} {a : Attendance TaskId} {config : PoolConfig} {i : Nat} {job : Job}
  {p : Id} {stage : JobStage φ}

/-! ## What a job does with its slot -/

lemma pool_settle (c : Client σ φ) (p : Id) (o : Outcome Answer) :
    (c.settle p o).pool = c.pool := by
  obtain ⟨_, _, _, _, _, _, h⟩ := settle_frame c p o
  rw [h]

lemma tasks_settle (c : Client σ φ) (p : Id) (o : Outcome Answer) :
    (c.settle p o).tasks = c.tasks := by
  obtain ⟨_, _, _, _, _, _, h⟩ := settle_frame c p o
  rw [h]

lemma pool_wakeNext (c : Client σ φ) (t : Option TaskId) : (c.wakeNext t).pool = c.pool := by
  cases t <;> rfl

/-- What a job that has a slot does with it: it keeps it and goes on, or gives it back and ends. -/
inductive UsesSlot (c : Client σ φ) (i : Nat) (job : Job) (p : Id) (c' : Client σ φ) : Prop
  | runs (stage : JobStage φ) (hstage : stage.place = .running) (hpool : c'.pool = c.pool)
      (htasks : c'.tasks = c.tasks.set i (.job job p stage))
  | ends (hpool : c'.pool = c.pool.release.2) (htasks : c'.tasks = c.tasks.set i .finished)

lemma UsesSlot.of_same {c₀ : Client σ φ} (h : c₀.UsesSlot i job p c') (hpool : c₀.pool = c.pool)
    (htasks : c₀.tasks = c.tasks) : c.UsesSlot i job p c' := by
  cases h with
  | runs stage hstage hpool' htasks' =>
    exact .runs stage hstage (hpool'.trans hpool) (htasks ▸ htasks')
  | ends hpool' htasks' => exact .ends (hpool ▸ hpool') (htasks ▸ htasks')

lemma usesSlot_endJob (c : Client σ φ) (i : Nat) (job : Job) (p : Id) (o : Outcome Answer) :
    c.UsesSlot i job p (c.endJob i p o) := by
  refine .ends ?_ ?_
  · rw [endJob, pool_settle, releaseSlot, pool_wakeNext]
    rfl
  · obtain ⟨_, _, h, -⟩ := endJob_eq c i p o
    rw [h, tasks_settle]

/-- Going on with a job ends it or leaves it its slot. The induction is on the attempts that are
left, as for `proceedJob_goes`. -/
lemma usesSlot_proceedJob (c : Client σ φ) (i : Nat) (job : Job) (p : Id)
    (policy : Retry.Policy Failure) (retry : Retry.State) (call : Call)
    (progress : CallProgress φ) :
    c.UsesSlot i job p (c.proceedJob i job p policy retry call progress) := by
  induction hn : policy.maxRetries.toNat - retry.retries.toNat using Nat.strongRecOn
    generalizing c retry progress with
  | _ n ih =>
  rw [proceedJob.eq_def]
  cases progress with
  | waits ms phase => exact .runs (.calling retry phase) rfl rfl rfl
  | breaks => exact usesSlot_endJob c i job p _
  | ends result =>
    dsimp only
    split
    · rename_i r _
      refine (usesSlot_endJob _ i job p _).of_same ?_ ?_ <;> unfold concludeJob <;> split <;> rfl
    · rename_i delay next hj
      split
      · -- the next attempt begins at once
        have hlt := Retry.Policy.retries_of_judge hj
        rw [attemptJob.eq_def]
        exact (ih _ (by omega) (c.beginCall call).2 next (c.beginCall call).1 rfl).of_same rfl rfl
      · exact .runs (.pausing next) rfl rfl rfl

lemma usesSlot_attemptJob (c : Client σ φ) (i : Nat) (job : Job) (p : Id)
    (policy : Retry.Policy Failure) (retry : Retry.State) (call : Call) :
    c.UsesSlot i job p (c.attemptJob i job p policy retry call) := by
  rw [attemptJob.eq_def]
  exact (usesSlot_proceedJob (c.beginCall call).2 i job p policy retry call
    (c.beginCall call).1).of_same rfl rfl

lemma usesSlot_beginJob (c : Client σ φ) (i : Nat) (job : Job) (p : Id) :
    c.UsesSlot i job p (c.beginJob i job p) := by
  cases job with
  | read call => exact usesSlot_attemptJob ..
  | query counter ticket => exact usesSlot_attemptJob ..
  | errand name delay result =>
    rw [beginJob]
    split
    · exact usesSlot_endJob ..
    · exact .runs .working rfl rfl rfl

lemma usesSlot_resumeJob (c : Client σ φ) (i : Nat) (job : Job) (p : Id) (stage : JobStage φ) :
    c.resumeJob i job p stage = c ∨ c.UsesSlot i job p (c.resumeJob i job p stage) := by
  unfold resumeJob
  split
  · exact .inr (usesSlot_endJob ..)
  · split
    · exact .inl rfl
    · split
      · exact .inr (usesSlot_endJob ..)
      · split
        · exact .inr ((usesSlot_proceedJob ..).of_same rfl rfl)
        · exact .inl rfl
      · split
        · exact .inr (usesSlot_attemptJob ..)
        · exact .inl rfl
      · exact .inl rfl

/-! ## What the coordinator does with its slot -/

variable {r : SequencerRequest} {attempts : Attempts} {deadline : Option Nat}

/-- An attempt brings the coordinator where it says, in any attendance of the pool. -/
def Leads (config : PoolConfig) (a : Attendance TaskId) (progress : AttemptProgress σ φ) : Prop :=
  ∃ a', a.Brings a' .coordinator progress.place ∧ a'.pool = progress.client.pool ∧
    a'.Balanced config

lemma leads_of_brings {progress : AttemptProgress σ φ} {a' : Attendance TaskId}
    (hb : a.Balanced config) (h : a.Brings a' .coordinator progress.place)
    (hpool : a'.pool = progress.client.pool) : Leads config a progress :=
  ⟨a', h, hpool, hb.of_steps h.steps⟩

lemma Leads.of_brings {progress : AttemptProgress σ φ} {a' : Attendance TaskId} {place : Place}
    (h : a.Brings a' .coordinator place) (h' : Leads config a' progress) :
    Leads config a progress := by
  obtain ⟨a'', hb, hpool, hbal⟩ := h'
  exact ⟨a'', h.trans hb, hpool, hbal⟩

lemma leads_proceedAttempt (c : Client σ φ) (hb : a.Balanced config) (hpool : a.pool = c.pool)
    (ha : a.At .coordinator .running) (progress : CallProgress φ) :
    Leads config a (c.proceedAttempt r p attempts deadline progress) := by
  have hfinish := hb.brings_finish ha
  have hrelease : ∀ c' : Client σ φ, c'.pool = c.pool →
      (a.finish .coordinator).pool = c'.releaseSlot.pool := by
    intro c' hc
    rw [releaseSlot, pool_wakeNext, hc, ← hpool]
    rfl
  unfold proceedAttempt
  cases progress with
  | ends o => exact leads_of_brings hb hfinish (hrelease _ rfl)
  | breaks => exact leads_of_brings hb hfinish (hrelease _ rfl)
  | waits ms phase =>
    dsimp only
    unfold keepAttempt
    split
    · exact leads_of_brings hb hfinish (hrelease _ rfl)
    · exact leads_of_brings hb (brings_refl ha) hpool

lemma leads_askForSlot (c : Client σ φ) (hb : a.Balanced config) (hpool : a.pool = c.pool)
    (ha : a.At .coordinator .queueing) :
    Leads config a (c.askForSlot r p attempts deadline) := by
  obtain ⟨a', hpool', hbrings⟩ := hb.brings_ask ha
  have hb' := hb.of_steps hbrings.steps
  rw [hpool] at hpool' hbrings
  unfold askForSlot
  generalize c.pool.ask .coordinator = answer at hpool' hbrings
  obtain ⟨reply, next, pool⟩ := answer
  have hwake : a'.pool = (wakeNext { c with pool } next).pool := by
    rw [pool_wakeNext]
    exact hpool'
  cases reply with
  | refused => exact leads_of_brings hb hbrings hwake
  | wait =>
    dsimp only at hbrings ⊢
    unfold keepAttempt
    split
    · -- its time is over
      refine .of_brings hbrings (leads_of_brings hb' (hb'.brings_giveUp hbrings.there) ?_)
      change (a'.pool.leave .coordinator).2 = (wakeNext _ _).pool
      rw [pool_wakeNext, hwake]
      rfl
    · exact leads_of_brings hb hbrings hwake
  | taken =>
    exact .of_brings hbrings
      (leads_proceedAttempt (beginCall (wakeNext { c with pool } next) r.call).2 hb' hwake
        hbrings.there _)

lemma leads_beginAttempt (c : Client σ φ) (hb : a.Balanced config) (hpool : a.pool = c.pool)
    (ha : a.At .coordinator .outside) : Leads config a (c.beginAttempt r p attempts) := by
  unfold beginAttempt
  split
  · exact leads_of_brings hb (brings_refl ha) hpool
  · rename_i pool hp
    obtain ⟨a', hbrings, hpool'⟩ := brings_enter (hpool ▸ hp) ha
    have hb' := hb.of_steps hbrings.steps
    refine .of_brings hbrings ?_
    have hleads : Leads config a' (Client.askForSlot { c with pool } r p attempts
      ((c.attemptLimit r).map (c.now + ·))) := leads_askForSlot _ hb' hpool' hbrings.there
    dsimp only
    split
    · rename_i c' hc
      rw [hc] at hleads
      split
      · exact hleads
      · exact hleads
    · exact hleads

lemma leads_resumeAttempt (c : Client σ φ) {stage : AttemptStage φ} (hb : a.Balanced config)
    (hpool : a.pool = c.pool) (hstage : c.coordinatorStage = .busy r p attempts stage)
    (ha : a.At .coordinator stage.place) :
    Leads config a (c.resumeAttempt r p attempts stage) := by
  unfold resumeAttempt
  split
  · exact leads_askForSlot c hb hpool ha
  · rename_i phase deadline
    split
    · unfold keepAttempt
      split
      · refine leads_of_brings hb (hb.brings_finish ha) ?_
        change a.pool.release.2 = (wakeNext _ _).pool
        rw [pool_wakeNext, hpool]
        rfl
      · exact leads_of_brings hb (brings_refl ha) hpool
    · exact leads_proceedAttempt (c.resumeCall r.call phase).2 hb hpool ha _
  · split
    · refine leads_of_brings hb (brings_refl ?_) hpool
      rw [AttemptProgress.place, hstage]
      exact ha
    · exact leads_beginAttempt c hb hpool ha

lemma pool_stopCoordinator (c : Client σ φ) : c.stopCoordinator.pool = c.pool := by
  unfold stopCoordinator
  refine List.foldlRecOn _ _ (motive := fun c' : Client σ φ => c'.pool = c.pool) rfl ?_
  rintro c' hc' ⟨r, p⟩ -
  exact (pool_settle c' p _).trans hc'

/-- A request that is ended in the middle leaves the queue, or gives its slot back. -/
lemma brings_abortRequest (c : Client σ φ) (p : Id) (stage : AttemptStage φ)
    (hb : a.Balanced config) (hpool : a.pool = c.pool) (ha : a.At .coordinator stage.place) :
    ∃ a', a.Brings a' .coordinator .outside ∧ a'.pool = (c.abortRequest p stage).pool := by
  unfold abortRequest
  rw [settleRequest, pool_settle]
  cases stage with
  | waiting deadline =>
    refine ⟨_, hb.brings_giveUp ha, ?_⟩
    rw [leavePool, pool_wakeNext, giveUp, hpool]
    rfl
  | calling phase deadline =>
    refine ⟨_, hb.brings_finish ha, ?_⟩
    rw [releaseSlot, pool_wakeNext, finish, hpool]
    rfl
  | pausing => exact ⟨a, brings_refl ha, hpool⟩

/-! ## What asking does -/

/-- A job is admitted at most. -/
def Admits (c c' : Client σ φ) : Prop :=
  (c'.pool = c.pool ∧ c'.tasks = c.tasks) ∨
    ∃ job p, c.pool.enter = .ok c'.pool ∧ c'.tasks = c.tasks ++ [.job job p .waiting]

lemma admits_submit (c : Client σ φ) (job : Job) : c.Admits (c.submit job).2 := by
  unfold submit
  cases h : c.pool.enter with
  | error e => exact .inl ⟨rfl, rfl⟩
  | ok pool => exact .inr ⟨job, _, h, rfl⟩

lemma Admits.onSettled (h : c.Admits c') (p : Id) (f : Follow) : c.Admits (c'.onSettled p f) := by
  obtain ⟨_, _, _, _, hc, -⟩ := onSettled_eq c' p f
  rw [hc]
  exact h

lemma admits_take (c : Client σ φ) (ask : Ask) : c.Admits (c.take ask).2 := by
  cases ask with
  | fetchBatch n =>
    rw [take, fetchBatch]
    split
    · exact .inl ⟨rfl, rfl⟩
    · exact .inl ⟨rfl, rfl⟩
    · refine Admits.onSettled ?_ _ _
      exact admits_submit { c with batches := _ } (.read (.fetchBatch n))
  | findBatch m =>
    rw [take, findBatch]
    split
    · exact .inl ⟨rfl, rfl⟩
    · exact .inl ⟨rfl, rfl⟩
    · refine Admits.onSettled ?_ _ _
      exact admits_submit { c with messageBatches := _ } (.read (.findBatch m))
  | batchBlock n =>
    rw [take, batchBlock]
    split
    · exact .inl ⟨rfl, rfl⟩
    · exact .inl ⟨rfl, rfl⟩
    · refine Admits.onSettled ?_ _ _
      exact admits_submit { c with blocks := _ } (.read (.batchBlock n))
  | progressMap => exact admits_submit c _
  | count k =>
    rw [take, count]
    split
    · exact .inl ⟨rfl, rfl⟩
    · split
      · exact .inl ⟨rfl, rfl⟩
      · refine Admits.onSettled ?_ _ _
        exact admits_submit { c with tracker := _ } (.query k _)
  | sequence r =>
    rw [take, enqueue]
    dsimp only
    split
    · exact .inl ⟨rfl, rfl⟩
    · rename_i k _
      obtain ⟨_, hc⟩ :=
        alertCoordinator_eq { c with promises := c.promises.new.2, coordinator := k }
      rw [hc]
      exact .inl ⟨rfl, rfl⟩
  | errand name delay result => exact admits_submit c _

end Client

namespace Situation

variable {s s' : Situation σ φ} {a : Attendance TaskId} {config : PoolConfig}
  {moves : σ → σ → Prop}

lemma place_task (s : Situation σ φ) (i : Nat) :
    s.place (.task i) = ((s.client.tasks[i]?).map Task.place).getD .outside := by
  rw [place]
  cases s.client.tasks[i]? <;> rfl

lemma place_coordinator_of_ne (h : s.stance ≠ .resting) : s.place .coordinator = .outside := by
  rw [place]
  split
  · exact absurd ‹_› h
  · rfl

lemma place_coordinator_of_resting (h : s.stance = .resting) :
    s.place .coordinator = s.client.coordinatorStage.place := by
  rw [place, h]

/-- The steps of an attendance follow what happens to the client. -/
def Follows (a : Attendance TaskId) (s : Situation σ φ) : Prop :=
  ∃ a', ReflTransGen Attendance.Step a a' ∧ s.Seats a'

namespace Seats

lemma of_same (h : s.Seats a) (hpool : s'.client.pool = s.client.pool)
    (hplace : ∀ t, s'.place t = s.place t) : s'.Seats a :=
  ⟨h.pool.trans hpool.symm, fun t => hplace t ▸ h.there t⟩

/-- One request is brought where it is then. -/
lemma brings {a' : Attendance TaskId} {t : TaskId} (h : s.Seats a)
    (hb : a.Brings a' t (s'.place t)) (hpool : a'.pool = s'.client.pool)
    (hothers : ∀ u, u ≠ t → s'.place u = s.place u) : s'.Seats a' := by
  refine ⟨hpool, fun u => ?_⟩
  by_cases hu : u = t
  · subst hu
    exact hb.there
  · rw [hothers u hu]
    exact hb.others u _ hu (h.there u)

end Seats

/-! ## Events beside the coordinator -/

/-- The coordinator stays where it is. -/
lemma Aside.place_coordinator (h : s.Aside s') : s'.place .coordinator = s.place .coordinator := by
  rw [place, place, h.stance]
  obtain hc | ⟨hheld, hidle⟩ := h.stage
  · rw [hc]
  · rw [hheld, hidle]
    rfl

lemma Aside.place_eq (h : s.Aside s') (htasks : s'.client.tasks = s.client.tasks) (t : TaskId) :
    s'.place t = s.place t := by
  cases t with
  | coordinator => exact h.place_coordinator
  | task i => rw [place_task, place_task, htasks]

/-- A task is replaced. -/
lemma Aside.place_set (h : s.Aside s') {i : Nat} {task : Task φ} (task' : Task φ)
    (hi : s.client.tasks[i]? = some task) (htasks : s'.client.tasks = s.client.tasks.set i task') :
    s'.place (.task i) = task'.place ∧ ∀ u, u ≠ .task i → s'.place u = s.place u := by
  obtain ⟨hlt, -⟩ := List.getElem?_eq_some_iff.1 hi
  constructor
  · rw [place_task, htasks, List.getElem?_set_self hlt]
    rfl
  · intro u hu
    cases u with
    | coordinator => exact h.place_coordinator
    | task j =>
      have hne : i ≠ j := fun hc => hu (hc ▸ rfl)
      rw [place_task, place_task, htasks, List.getElem?_set_ne hne]

/-- Tasks are added that do not use the pool, or one that queues. -/
lemma Aside.place_append (h : s.Aside s') (task : Task φ)
    (htasks : s'.client.tasks = s.client.tasks ++ [task]) :
    s.place (.task s.client.tasks.length) = .outside ∧
      s'.place (.task s.client.tasks.length) = task.place ∧
      ∀ u, u ≠ .task s.client.tasks.length → s'.place u = s.place u := by
  refine ⟨?_, ?_, ?_⟩
  · rw [place_task, List.getElem?_eq_none (Nat.le_refl _)]
    rfl
  · rw [place_task, htasks, List.getElem?_append_right (Nat.le_refl _), Nat.sub_self]
    rfl
  · intro u hu
    cases u with
    | coordinator => exact h.place_coordinator
    | task j =>
      have hne : j ≠ s.client.tasks.length := fun hc => hu (hc ▸ rfl)
      rw [place_task, place_task, htasks, List.getElem?_append]
      split
      · rfl
      · rw [List.getElem?_eq_none (l := s.client.tasks) (by omega),
          List.getElem?_eq_none (by simp; omega)]

/-- A service has no part in the pool. -/
lemma Aside.follows_same (h : s.Aside s') (hseats : s.Seats a)
    (hpool : s'.client.pool = s.client.pool) (htasks : s'.client.tasks = s.client.tasks) :
    s'.Follows a :=
  ⟨a, .refl, hseats.of_same hpool (h.place_eq htasks)⟩

lemma Owned.follows_ask (h : s.Owned) (hseats : s.Seats a) (ask : Ask) :
    (s.after (.ask ask)).Follows a := by
  have haside := h.aside_of_ne (e := .ask ask) nofun
  obtain ⟨hpool, htasks⟩ | ⟨job, p, henter, htasks⟩ := admits_take s.client ask
  · exact haside.follows_same hseats hpool htasks
  · obtain ⟨hbefore, hafter, hothers⟩ := haside.place_append _ htasks
    obtain ⟨a', hbrings, hpool⟩ := brings_enter (hseats.pool ▸ henter)
      (hbefore ▸ hseats.there (.task s.client.tasks.length))
    exact ⟨a', hbrings.steps, hseats.brings (hafter ▸ hbrings) hpool hothers⟩

lemma Owned.follows_order (h : s.Owned) (hseats : s.Seats a) (o : Order) :
    (s.after (.order o)).Follows a := by
  have haside := h.aside_of_ne (e := .order o) nofun
  cases o with
  | shutDown =>
    refine ⟨_, .single .shutsDown, ?_, fun t => ?_⟩
    · exact congrArg Pool.shutDown hseats.pool
    · rw [haside.place_eq rfl]
      exact hseats.there t
  | service =>
    obtain ⟨hbefore, hafter, hothers⟩ := haside.place_append .service rfl
    refine ⟨a, .refl, hseats.of_same rfl fun t => ?_⟩
    by_cases ht : t = .task s.client.tasks.length
    · rw [ht, hafter, hbefore]
      rfl
    · exact hothers t ht
  | start =>
    refine haside.follows_same hseats ?_ ?_ <;>
      · rw [Situation.after, obey, startCoordinator]
        split <;> rfl
  | abandon =>
    refine haside.follows_same hseats ?_ ?_ <;>
      · rw [Situation.after, obey, abandonCoordinator, alertCoordinator]
        split <;> rfl
  | _ => exact haside.follows_same hseats rfl rfl

/-- A job that has a slot goes on with it, or gives it back. -/
lemma Seats.follows_slot (hseats : s.Seats a) (hb : a.Balanced config) (haside : s.Aside s')
    {c : Client σ φ} {a₀ : Attendance TaskId} {i : Nat} {job : Job} {p : Id} {stage : JobStage φ}
    (hi : s.client.tasks[i]? = some (.job job p stage)) (htasks : c.tasks = s.client.tasks)
    (hpool : a₀.pool = c.pool) (hbrings : a.Brings a₀ (.task i) .running)
    (huses : c.UsesSlot i job p s'.client) : s'.Follows a := by
  have hb₀ := hb.of_steps hbrings.steps
  cases huses with
  | runs stage' hstage hpool' htasks' =>
    obtain ⟨hself, hothers⟩ := haside.place_set _ hi (htasks ▸ htasks')
    rw [Task.place, hstage] at hself
    exact ⟨a₀, hbrings.steps,
      hseats.brings (hself ▸ hbrings) (hpool.trans hpool'.symm) hothers⟩
  | ends hpool' htasks' =>
    obtain ⟨hself, hothers⟩ := haside.place_set _ hi (htasks ▸ htasks')
    have hall := hbrings.trans (hb₀.brings_finish hbrings.there)
    refine ⟨_, hall.steps, hseats.brings (by rw [hself]; exact hall) ?_ hothers⟩
    rw [hpool', finish, hpool]

/-- A job that queues asks for its slot. -/
lemma Seats.follows_waiting (hseats : s.Seats a) (hb : a.Balanced config) {i : Nat} {job : Job}
    {p : Id} (hi : s.client.tasks[i]? = some (.job job p .waiting))
    (haside : s.Aside { s with client := s.client.jobTurn i job p .waiting }) :
    Follows a { s with client := s.client.jobTurn i job p .waiting } := by
  have hplace : s.place (.task i) = .queueing := by rw [place_task, hi]; rfl
  obtain ⟨a₀, hpool₀, hbrings⟩ := hb.brings_ask (hplace ▸ hseats.there (.task i))
  rw [hseats.pool] at hpool₀ hbrings
  rw [jobTurn] at haside ⊢
  generalize s.client.pool.ask (.task i) = answer at hpool₀ hbrings haside ⊢
  obtain ⟨reply, next, pool⟩ := answer
  have hwake : a₀.pool = (wakeNext { s.client with pool } next).pool := by
    rw [pool_wakeNext]
    exact hpool₀
  obtain ⟨_, hnext, -⟩ := wakeNext_eq { s.client with pool } next
  have htasks : (wakeNext { s.client with pool } next).tasks = s.client.tasks := by rw [hnext]
  dsimp only at haside hbrings ⊢
  cases reply with
  | taken => exact hseats.follows_slot hb haside hi htasks hwake hbrings (usesSlot_beginJob ..)
  | wait =>
    refine ⟨a₀, hbrings.steps, hseats.brings (t := .task i) ?_ hwake fun u _ => ?_⟩
    · rw [haside.place_eq htasks, hplace]
      exact hbrings
    · exact haside.place_eq htasks u
  | refused =>
    have hset : (settle (setTask (wakeNext { s.client with pool } next) i .finished) p
        (.error .shutDown)).tasks = s.client.tasks.set i .finished := by
      rw [tasks_settle, setTask, htasks]
    obtain ⟨hself, hothers⟩ := haside.place_set _ hi hset
    refine ⟨a₀, hbrings.steps, hseats.brings (by rw [hself]; exact hbrings) ?_ hothers⟩
    rw [pool_settle]
    exact hwake

/-- A job that has a slot goes on. -/
lemma Seats.follows_resumed (hseats : s.Seats a) (hb : a.Balanced config) {i : Nat} {job : Job}
    {p : Id} {stage : JobStage φ} (hi : s.client.tasks[i]? = some (.job job p stage))
    (hstage : stage.place = .running)
    (haside : s.Aside { s with client := s.client.resumeJob i job p stage }) :
    Follows a { s with client := s.client.resumeJob i job p stage } := by
  have hplace : s.place (.task i) = .running := by rw [place_task, hi]; exact hstage
  obtain hsame | huses := usesSlot_resumeJob s.client i job p stage
  · rw [hsame] at haside ⊢
    exact haside.follows_same hseats rfl rfl
  · exact hseats.follows_slot hb haside hi rfl hseats.pool
      (brings_refl (hplace ▸ hseats.there (.task i))) huses

lemma Owned.follows_job (h : s.Owned) (hseats : s.Seats a) (hb : a.Balanced config) (i : Nat) :
    (s.after (.job i)).Follows a := by
  have haside := h.aside_of_ne (e := .job i) nofun
  have hidle : s.client.turn (.task i) = s.client → (s.after (.job i)).Follows a := by
    intro hturn
    rw [Situation.after, hturn] at haside ⊢
    exact haside.follows_same hseats rfl rfl
  rcases hi : s.client.tasks[i]? with _ | ⟨job, p, stage⟩ | ⟨call, p, phase⟩ | _ | _
  · exact hidle (by rw [turn, hi])
  · have hturn : s.client.turn (.task i) = s.client.jobTurn i job p stage := by rw [turn, hi]
    rw [Situation.after, hturn] at haside ⊢
    cases stage with
    | waiting => exact hseats.follows_waiting hb hi haside
    | _ => exact hseats.follows_resumed hb hi rfl haside
  · exact absurd (List.mem_of_getElem? hi) (h.no_direct call p phase)
  · -- a service has no part in the pool
    cases hd : s.client.pool.isDown with
    | false => exact hidle (by simp [turn, hi, hd])
    | true =>
      have hturn : s.client.turn (.task i) =
          { s.client.setTask i .finished with
            stoppedServices := s.client.stoppedServices + 1 } := by
        simp [turn, hi, hd]
      rw [Situation.after, hturn] at haside ⊢
      obtain ⟨hself, hothers⟩ := haside.place_set .finished hi rfl
      refine ⟨a, .refl, hseats.of_same rfl fun t => ?_⟩
      by_cases ht : t = .task i
      · rw [ht, hself, place_task, hi]
        rfl
      · exact hothers t ht
  · exact hidle (by rw [turn, hi])

/-! ## Steps of the coordinator -/

lemma place_attempt (s : Situation σ φ) (r : SequencerRequest) (p : Id)
    (progress : AttemptProgress σ φ) :
    (s.attempt r p progress).place .coordinator = progress.place := by
  cases progress <;> rfl

/-- An attempt brings the coordinator where it then is. -/
lemma brings_attempt {r : SequencerRequest} {p : Id} {progress : AttemptProgress σ φ}
    (h : Leads config a progress) :
    ∃ a', a.Brings a' .coordinator ((s.attempt r p progress).place .coordinator) ∧
      a'.pool = (s.attempt r p progress).client.pool := by
  obtain ⟨a', hbrings, hpool, -⟩ := h
  refine ⟨a', ?_, ?_⟩
  · rw [place_attempt]
    exact hbrings
  · rw [client_attempt]
    exact hpool

lemma Seats.brings_advance (hseats : s.Seats a) (hb : a.Balanced config) :
    ∃ a', a.Brings a' .coordinator (s.advance.place .coordinator) ∧
      a'.pool = s.advance.client.pool := by
  have hthere := hseats.there .coordinator
  have hstep := s.proceeds
  generalize s.advance = s' at hstep
  cases hstep with
  | rests => exact ⟨a, brings_refl hthere, hseats.pool⟩
  | wakes hs hc =>
    rw [place_coordinator_of_resting hs, hc] at hthere
    exact ⟨a, brings_refl hthere, hseats.pool⟩
  | resumes hs hc =>
    rw [place_coordinator_of_resting hs, hc] at hthere
    exact brings_attempt (leads_resumeAttempt _ hb hseats.pool hc hthere)
  | @aborts _ p _ stage hs hc =>
    rw [place_coordinator_of_resting hs, hc] at hthere
    obtain ⟨a', hbrings, hpool⟩ := brings_abortRequest s.client p stage hb hseats.pool hthere
    rw [place_coordinator_of_resting rfl, coordinatorStage_stopCoordinator]
    exact ⟨a', hbrings, hpool.trans (pool_stopCoordinator _).symm⟩
  | concludes hs =>
    rw [place_coordinator_of_ne (by rw [hs]; rintro ⟨⟩)] at hthere
    refine ⟨a, brings_refl hthere, ?_⟩
    rw [conclude, settleRequest, pool_settle]
    exact hseats.pool
  | repeats hs =>
    rw [place_coordinator_of_ne (by rw [hs]; rintro ⟨⟩)] at hthere
    exact brings_attempt (leads_beginAttempt _ hb hseats.pool hthere)
  | pauses hs =>
    rw [place_coordinator_of_ne (by rw [hs]; rintro ⟨⟩)] at hthere
    exact ⟨a, brings_refl hthere, hseats.pool⟩
  | stops hs =>
    rw [place_coordinator_of_ne (by rw [hs]; rintro ⟨⟩)] at hthere
    rw [place_coordinator_of_resting rfl, coordinatorStage_stopCoordinator]
    exact ⟨a, brings_refl hthere, hseats.pool.trans (pool_stopCoordinator _).symm⟩
  | idles hs =>
    rw [place_coordinator_of_ne (by rw [hs]; rintro ⟨⟩)] at hthere
    exact ⟨a, brings_refl hthere, hseats.pool⟩
  | begins hs =>
    rw [place_coordinator_of_ne (by rw [hs]; rintro ⟨⟩)] at hthere
    exact brings_attempt (leads_beginAttempt _ hb hseats.pool hthere)
  | answers hs =>
    rw [place_coordinator_of_ne (by rw [hs]; rintro ⟨⟩)] at hthere
    refine ⟨a, brings_refl hthere, ?_⟩
    rw [settleRequest, pool_settle]
    exact hseats.pool

/-- **The slots of a client.** Whatever happens to a client, an attendance of its pool can follow.
-/
theorem Owned.follows_after (h : s.Owned) (hseats : s.Seats a) (hb : a.Balanced config)
    (e : Event σ) : (s.after e).Follows a := by
  cases e with
  | ask ask => exact h.follows_ask hseats ask
  | order o => exact h.follows_order hseats o
  | job i => exact h.follows_job hseats hb i
  | advance =>
    obtain ⟨a', hbrings, hpool⟩ := hseats.brings_advance hb
    obtain ⟨htasks, -⟩ := h.advances_outline h.advances
    refine ⟨a', hbrings.steps, hseats.brings hbrings hpool fun u hu => ?_⟩
    cases u with
    | coordinator => exact absurd rfl hu
    | task i =>
      rw [place_task, place_task, Situation.after, htasks]
  | clock schedule => exact ⟨a, .refl, hseats.of_same rfl fun _ => rfl⟩
  | node n => exact ⟨a, .refl, hseats.of_same rfl fun _ => rfl⟩

lemma seats_fresh (config : ClientConfig) (remote : Remote σ φ) (node : σ) :
    (fresh config remote node).Seats { pool := .empty config.pool } where
  pool := rfl
  there t := by cases t <;> exact ⟨by simp [place, fresh, Client.ofConfig, CoordinatorStage.place],
    by simp [place, fresh, Client.ofConfig, CoordinatorStage.place]⟩

/-- At any time of a run the pool has been attended in the same way. -/
theorem seats_of_runs {config : ClientConfig} {remote : Remote σ φ} {node : σ}
    (hr : Runs moves (fresh config remote node) s) :
    ∃ a, Reachable config.pool a ∧ s.Seats a := by
  induction hr with
  | refl => exact ⟨_, .refl, seats_fresh config remote node⟩
  | tail hr hstep ih =>
    obtain ⟨e, -, rfl⟩ := hstep
    obtain ⟨a, hreach, hseats⟩ := ih
    obtain ⟨a', hsteps, hseats'⟩ :=
      (owned_of_runs hr).follows_after hseats (balanced_of_reachable hreach) e
    exact ⟨a', hreach.trans hsteps, hseats'⟩

end Situation

end ConsensusLink
