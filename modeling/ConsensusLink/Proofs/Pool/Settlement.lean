import ConsensusLink.Proofs.Client.Fulfilment
import ConsensusLink.Proofs.Client.Occupancy
import ConsensusLink.Proofs.Client.Record
import Mathlib.Data.List.Perm.Subperm
/-!
# Limits of a pool, and how its requests end

However requests are made, finish, break down or are given up, and whenever the pool is shut down,
not more of them run and not more queue than the pool is configured for, and none begins to run once
it is down. A slot is never lost: when a request ends, breaks down or is given up, its slot goes to
the one that waits longest, which takes it when it has its next turn, and it is free only if nobody
waits. A request that is submitted and not admitted is turned away at once. One that is admitted
keeps its promise open until it ends, in a turn of its own: with what its work has come to, with the
news that it broke down, or, once the pool is down, with the news of that. In any case the promise
is settled once.
-/

namespace ConsensusLink

open Promise Relation Client Attendance

variable {σ φ : Type}

/-- The limits of a pool are kept, by requests of any kind and number. -/
structure Attendance.Limited {τ : Type} [DecidableEq τ] (config : PoolConfig) (a : Attendance τ) :
    Prop where
  running : a.running.length ≤ max config.maxConcurrentRequests.toNat 1
  queueing : a.queueing.length ≤ max config.maxQueuedRequests.toNat 1
  /-- A slot that no request runs in is free or handed to the next one. -/
  slots : a.pool.free + a.pool.granted.length + a.running.length =
    max config.maxConcurrentRequests.toNat 1
  /-- None is free while a request waits for one. -/
  idle : a.pool.free = 0 ∨ a.pool.waiting = []
  /-- Who waits for a slot or was handed one queues still, and stands in one place. -/
  line : a.pool.line.Nodup ∧ ∀ t ∈ a.pool.line, t ∈ a.queueing
  /-- A request that queues begins to run when it asks, if a slot is free or was handed to it. -/
  taken : a.pool.isDown = false → ∀ t ∈ a.queueing, 0 < a.pool.free ∨ t ∈ a.pool.granted →
    t ∈ (a.ask t).running
  /-- Otherwise it stands in the line. -/
  waits : a.pool.isDown = false → ∀ t ∈ a.queueing, t ∉ (a.ask t).running →
    t ∈ (a.ask t).pool.line
  /-- A request that ends or breaks down hands its slot to the one that waits longest. -/
  finished : ∀ t ∈ a.running, ∀ u ∈ a.pool.waiting.head?, u ∈ (a.finish t).pool.granted
  /-- So does one that is given up before it took up the slot that it was handed. -/
  forgone : ∀ t ∈ a.pool.granted, ∀ u ∈ a.pool.waiting.head?, u ∈ (a.giveUp t).pool.granted
  /-- Once the pool is down no request begins to run. -/
  closed : a.pool.isDown = true → ∀ a', ReflTransGen Step a a' → a'.running.Sublist a.running

lemma Attendance.limited_of_reachable {τ : Type} [DecidableEq τ] {config : PoolConfig}
    {a : Attendance τ} (h : Reachable config a) : a.Limited config := by
  have hbal := balanced_of_reachable h
  obtain ⟨hrunning, hqueueing⟩ := hbal.length_le (accounted_of_reachable h)
  refine ⟨hrunning, hqueueing, hbal.balance.trans hbal.slots, hbal.tidy.idle,
    ⟨hbal.tidy.nodup, hbal.line⟩, fun hup t _ hslot => ?_, fun hup t _ hnot => ?_,
    fun t _ u hu => Pool.mem_granted_release hu, fun t ht u hu => Pool.mem_granted_leave ht hu,
    fun hd a' hr => (running_of_isDown hbal hr hd).2⟩
  · have htaken := hbal.tidy.ask_taken hup hslot
    unfold Attendance.ask
    split <;> rename_i hask <;> rw [hask] at htaken <;> cases htaken
    exact List.mem_append_right _ (List.mem_singleton_self t)
  · obtain ⟨hout, -, -⟩ := Pool.ask_outcome hbal.tidy t
    unfold Attendance.ask at hnot ⊢
    generalize a.pool.ask t = answer at hout hnot
    obtain ⟨reply, next, pool⟩ := answer
    cases hout with
    | taken => exact absurd (List.mem_append_right _ (List.mem_singleton_self t)) hnot
    | waits _ _ hmem => exact hmem
    | refused hdown => cases hdown.symm.trans hup

namespace Situation

variable {s s' : Situation σ φ} {moves : σ → σ → Prop} {config : ClientConfig}
  {remote : Remote σ φ} {node : σ}

/-- The limits of its pool are kept by a client: by its jobs and by the attempts of its
coordinator. -/
structure Limited (config : PoolConfig) (s : Situation σ φ) : Prop where
  running : ∀ ts : List TaskId, ts.Nodup → (∀ t ∈ ts, s.place t = .running) →
    ts.length ≤ max config.maxConcurrentRequests.toNat 1
  queueing : ∀ ts : List TaskId, ts.Nodup → (∀ t ∈ ts, s.place t = .queueing) →
    ts.length ≤ max config.maxQueuedRequests.toNat 1
  /-- A slot that no request runs in is free or handed to the next one. -/
  slots : ∃ ts : List TaskId, ts.Nodup ∧ (∀ t, t ∈ ts ↔ s.place t = .running) ∧
    s.client.pool.free + s.client.pool.granted.length + ts.length =
      max config.maxConcurrentRequests.toNat 1
  /-- None is free while a request waits for one. -/
  idle : s.client.pool.free = 0 ∨ s.client.pool.waiting = []
  /-- Who waits for a slot or was handed one queues still, and stands in one place. -/
  line : s.client.pool.line.Nodup ∧ ∀ t ∈ s.client.pool.line, s.place t = .queueing
  /-- Once the pool is down no request begins to run. -/
  closed : s.client.pool.isDown = true → ∀ (e : Event σ) t,
    (s.after e).place t = .running → s.place t = .running

/-- How a job is admitted. -/
structure Admission (s : Situation σ φ) (job : Job) : Prop where
  /-- The promise is a new one. -/
  fresh : ¬s.client.promises.Known (s.client.submit job).1
  /-- A pool that is down turns the job away at once. -/
  down : s.client.pool.isDown = true →
    (s.client.submit job).2.promises.outcome? (s.client.submit job).1 = some (.error .shutDown) ∧
      (s.client.submit job).2.tasks = s.client.tasks
  /-- So does one that has no room. -/
  full : s.client.pool.isDown = false → s.client.pool.room ≤ s.client.pool.queued →
    (s.client.submit job).2.promises.outcome? (s.client.submit job).1 = some (.error .overloaded) ∧
      (s.client.submit job).2.tasks = s.client.tasks
  /-- Otherwise the job queues for a slot. -/
  queues : s.client.pool.isDown = false → s.client.pool.queued < s.client.pool.room →
    (s.client.submit job).2.promises.Pending (s.client.submit job).1 ∧
      (s.client.submit job).2.tasks =
        s.client.tasks ++ [.job job (s.client.submit job).1 .waiting]

/-- How a job that was admitted ends. -/
structure Delivery (moves : σ → σ → Prop) (s : Situation σ φ) (i : Nat) (job : Job) (p : Id)
    (stage : JobStage φ) : Prop where
  /-- Its promise is open. -/
  pending : s.client.promises.Pending p
  /-- At any later time it is under way, or it has ended with what it had come to. -/
  ends : ∀ s', Runs moves s s' → Became moves s s' i job p
  /-- If it waits, its work begins with its next turn as soon as a slot is free or was handed to it;
  it has ended there if its work ends at once. -/
  begins : stage = .waiting → s.client.pool.isDown = false →
    0 < s.client.pool.free ∨ .task i ∈ s.client.pool.granted →
    (s.after (.job i)).place (.task i) = .running ∨
      (s.after (.job i)).client.promises.outcome? p ≠ none
  /-- Otherwise it stands in the line after its turn, until it is handed a slot. -/
  waits : stage = .waiting → s.client.pool.isDown = false →
    (s.after (.job i)).place (.task i) = .queueing →
    .task i ∈ (s.after (.job i)).client.pool.line
  /-- Once the pool is down its next turn is its last. -/
  down : s.client.pool.isDown = true →
    (s.after (.job i)).client.promises.outcome? p = some (.error .shutDown)
  /-- Once its work is done its next turn is its last. -/
  done : ∀ o, s.client.Done job stage o → s.client.pool.isDown = false →
    s.client.isPausing (.task i) = false →
    (s.after (.job i)).client.promises.outcome? p = some o
  /-- When its promise is settled it has given its slot back. -/
  leaves : (s.after (.job i)).client.promises.outcome? p ≠ none →
    (s.after (.job i)).place (.task i) = .outside

lemma limited_of_runs (hr : Runs moves (fresh config remote node) s) : s.Limited config.pool := by
  obtain ⟨a, hreach, hseats⟩ := seats_of_runs hr
  have hbal := balanced_of_reachable hreach
  have hlimited := limited_of_reachable hreach
  have hnodup := List.nodup_append.1 hbal.once
  refine ⟨fun ts hts hall => ?_, fun ts hts hall => ?_, ⟨a.running, hnodup.2.1, ?_, ?_⟩,
    ?_, ?_, ?_⟩
  · have hsub : ts.Subperm a.running :=
      List.subperm_of_subset hts fun t ht => (hseats.there t).2.2 (hall t ht)
    exact Nat.le_trans hsub.length_le hlimited.running
  · have hsub : ts.Subperm a.queueing :=
      List.subperm_of_subset hts fun t ht => (hseats.there t).1.2 (hall t ht)
    exact Nat.le_trans hsub.length_le hlimited.queueing
  · exact fun t => (hseats.there t).2
  · rw [← hseats.pool]
    exact hlimited.slots
  · rw [← hseats.pool]
    exact hlimited.idle
  · rw [← hseats.pool]
    exact ⟨hlimited.line.1, fun t ht => (hseats.there t).1.1 (hlimited.line.2 t ht)⟩
  · intro hd e t ht
    obtain ⟨a', hsteps, hseats'⟩ := (owned_of_runs hr).follows_after hseats hbal e
    have hsub := hlimited.closed (by rw [hseats.pool]; exact hd) a' hsteps
    exact (hseats.there t).2.1 (hsub.subset ((hseats'.there t).2.2 ht))

lemma admission_submit (s : Situation σ φ) (job : Job) : s.Admission job := by
  have hnew : (s.client.submit job).1 = s.client.promises.new.1 := by
    obtain ⟨e, -, hs⟩ | ⟨pool, schedule, -, hs⟩ := submit_eq s.client job <;> rw [hs]
    rfl
  have herror : ∀ e, s.client.pool.enter = .error e →
      (s.client.submit job).2.promises.outcome? (s.client.submit job).1 = some (.error e) ∧
        (s.client.submit job).2.tasks = s.client.tasks := by
    intro e he
    rw [submit, he]
    exact ⟨Store.outcome?_newSettled _, rfl⟩
  refine ⟨hnew ▸ Store.not_known_add _, fun hd => herror _ ?_, fun hup hfull => herror _ ?_,
    fun hup hroom => ?_⟩
  · rw [Pool.enter, if_pos hd]
  · exact Pool.enter_eq_overloaded.2 ⟨hup, hfull⟩
  · have henter : s.client.pool.enter =
        .ok { s.client.pool with queued := s.client.pool.queued + 1 } := by
      rw [Pool.enter, if_neg (by simp [hup]), if_neg (by omega)]
    rw [submit, henter]
    exact ⟨Store.pending_new, rfl⟩

/-- A pool is tidy at any time of a run. -/
lemma tidy_of_runs (hr : Runs moves (fresh config remote node) s) : s.client.pool.Tidy := by
  obtain ⟨a, hreach, hseats⟩ := seats_of_runs hr
  exact hseats.pool ▸ (balanced_of_reachable hreach).tidy

/-- In its turn a job that waits takes a slot, unless there is none for it: then it stands in the
line. -/
lemma turn_waiting (htidy : s.client.pool.Tidy) {i : Nat} {job : Job} {p : Id}
    (hi : s.client.tasks[i]? = some (.job job p .waiting)) (hup : s.client.pool.isDown = false) :
    (∃ c : Client σ φ, c.tasks = s.client.tasks ∧ c.UsesSlot i job p (s.client.turn (.task i))) ∨
      ¬(0 < s.client.pool.free ∨ .task i ∈ s.client.pool.granted) ∧
        .task i ∈ (s.client.turn (.task i)).pool.line := by
  have hturn : s.client.turn (.task i) = s.client.jobTurn i job p .waiting := by rw [turn, hi]
  have htaken := @Pool.Tidy.ask_taken _ _ _ (.task i) htidy hup
  obtain ⟨hout, -, -⟩ := Pool.ask_outcome htidy (.task i)
  rw [hturn, jobTurn]
  generalize s.client.pool.ask (.task i) = answer at hout htaken ⊢
  obtain ⟨reply, next, pool⟩ := answer
  obtain ⟨schedule, hw, -⟩ := wakeNext_eq { s.client with pool } next
  simp only [hw]
  cases hout with
  | taken => exact .inl ⟨{ s.client with pool, schedule }, rfl, usesSlot_beginJob ..⟩
  | waits _ _ hmem =>
    refine .inr ⟨fun hslot => ?_, hmem⟩
    cases htaken hslot
  | refused hdown => cases hdown.symm.trans hup

/-- A job that uses its slot runs, or has settled its promise. -/
lemma Owned.runs_of_usesSlot (h : s.Owned) {i : Nat} {job : Job} {p : Id} {stage : JobStage φ}
    {c : Client σ φ} (hi : s.client.tasks[i]? = some (.job job p stage))
    (hc : c.tasks = s.client.tasks) (huses : c.UsesSlot i job p (s.client.turn (.task i))) :
    (s.after (.job i)).place (.task i) = .running ∨
      (s.after (.job i)).place (.task i) = .outside ∧
        (s.after (.job i)).client.promises.outcome? p ≠ none := by
  obtain ⟨hlt, -⟩ := List.getElem?_eq_some_iff.1 hi
  cases huses with
  | runs stage hstage _ htasks =>
    left
    rw [place_task, Situation.after, htasks, hc, List.getElem?_set_self hlt]
    exact hstage
  | ends _ htasks =>
    right
    obtain ⟨stage, howes⟩ | ⟨-, o, -, ho, -⟩ := h.ends_after hi
    · rw [Situation.after, htasks, hc, List.getElem?_set_self hlt] at howes
      cases howes
    · refine ⟨?_, ?_⟩
      · rw [place_task, Situation.after, htasks, hc, List.getElem?_set_self hlt]
        rfl
      · rw [ho]
        exact Option.some_ne_none o

lemma Owned.delivery (h : s.Owned) (htidy : s.client.pool.Tidy) {i : Nat} {job : Job} {p : Id}
    {stage : JobStage φ} (hi : s.client.tasks[i]? = some (.job job p stage)) :
    s.Delivery moves i job p stage := by
  have howes : s.client.Owes i job p := ⟨stage, hi⟩
  have hp := h.jobs_pending i job p howes
  have hturn : s.client.turn (.task i) = s.client.jobTurn i job p stage := by rw [turn, hi]
  refine ⟨hp, fun s' hr => h.became_of_runs howes hr, fun hwaits hup hslot => ?_,
    fun hwaits hup hplace => ?_, fun hd => ?_, fun o hdone hup hwake => ?_, fun hsettled => ?_⟩
  · subst hwaits
    obtain ⟨c, hc, huses⟩ | ⟨hno, -⟩ := turn_waiting htidy hi hup
    · exact (h.runs_of_usesSlot hi hc huses).imp_right And.right
    · exact absurd hslot hno
  · subst hwaits
    obtain ⟨c, hc, huses⟩ | ⟨-, hline⟩ := turn_waiting htidy hi hup
    · obtain hruns | ⟨hout, -⟩ := h.runs_of_usesSlot hi hc huses
      · cases hplace.symm.trans hruns
      · cases hplace.symm.trans hout
    · exact hline
  · obtain ⟨pool, schedule, -, hc⟩ := jobTurn_of_isDown hd i job p stage
    rw [Situation.after, hturn, hc]
    exact outcome?_settle (c := { s.client with pool, schedule, tasks := _ }) hp _
  · rw [Situation.after, hturn]
    exact hdone.outcome? hp hup hwake
  · obtain howes' | ⟨htasks, -⟩ := h.ends_after hi
    · exact absurd ((h.after (.job i)).jobs_pending i job p howes').outcome?_eq hsettled
    · obtain ⟨hlt, -⟩ := List.getElem?_eq_some_iff.1 hi
      rw [place_task, htasks, List.getElem?_set_self hlt]
      rfl

/-- **Limits and settlement.** Whatever happens to a pool, by requests of any kind, and whatever
happens to a client, the limits of the pool are kept, and no request begins to run after it is shut
down. No slot is lost: none is free while a request waits, and whoever was handed one queues still
and begins to run in its next turn. Every job that is submitted is turned away at once with the
reason, or queues; every job that was admitted keeps its promise open until it ends with what it has
come to; and every promise is settled once. -/
theorem limits_and_settlement {τ : Type} [DecidableEq τ] {a : Attendance τ}
    (ha : Reachable config.pool a) (hr : Runs moves (fresh config remote node) s) :
    a.Limited config.pool ∧ s.Limited config.pool ∧ (∀ job, s.Admission job) ∧
      (∀ i job p stage, s.client.tasks[i]? = some (.job job p stage) →
        s.Delivery moves i job p stage) ∧
      s.client.Tallied :=
  ⟨limited_of_reachable ha, limited_of_runs hr, s.admission_submit,
    fun _ _ _ _ hi => (owned_of_runs hr).delivery (tidy_of_runs hr) hi, tallied_of_runs hr⟩

/-! ## A pool with one slot and room for one -/

/-- One job takes the slot and another one queues, so that a third one is turned away; then the
first one breaks down. -/
def handedOver : Situation ScriptedNode ScriptedNode.Phase :=
  (fresh { pool := narrow } ScriptedNode.remote {}).afterAll
    [.ask (.errand "first" 5 none), .job 0, .ask (.errand "second" 5 (some (.ok .done))), .job 1,
      .ask (.errand "third" 5 (some (.ok .done))), .clock {}, .job 0]

/-- The second one takes the slot and is cut short. -/
def crowded : Situation ScriptedNode ScriptedNode.Phase :=
  handedOver.afterAll [.job 1, .order .shutDown, .job 1]

/-- The slot of the job that broke down is handed to the one that waits, which begins to run. The
promises are settled in the order in which the jobs end, each with its reason. -/
theorem limits_and_settlement_crowded :
    handedOver.client.pool.granted = [.task 1] ∧ handedOver.place (.task 1) = .queueing ∧
      (handedOver.after (.job 1)).place (.task 1) = .running ∧
      crowded.client.promises.outcome? ⟨2⟩ = some (.error .overloaded) ∧
      crowded.client.promises.outcome? ⟨0⟩ = some (.error (.internal "first panicked")) ∧
      crowded.client.promises.outcome? ⟨1⟩ = some (.error .shutDown) ∧
      crowded.client.settled = [⟨2⟩, ⟨0⟩, ⟨1⟩] ∧ crowded.Limited narrow ∧
      crowded.client.Tallied := by
  have hhanded : Runs (fun _ _ => False) (fresh { pool := narrow } ScriptedNode.remote {})
      handedOver := runs_afterAll rfl _
  have hcrowded : Runs (fun _ _ => False) handedOver crowded := runs_afterAll rfl _
  obtain ⟨-, hlimited, -, hdelivery, -⟩ := limits_and_settlement reachable_deserted hhanded
  have hgranted : handedOver.client.pool.granted = [.task 1] := rfl
  have hturn : (handedOver.after (.job 1)).place (.task 1) = .running := by
    refine ((hdelivery 1 _ ⟨1⟩ .waiting rfl).begins rfl rfl ?_).resolve_right (· rfl)
    exact .inr (hgranted ▸ List.mem_singleton_self _)
  have hqueues := hlimited.line.2 (.task 1)
    (List.mem_append_right _ (hgranted ▸ List.mem_singleton_self _))
  obtain ⟨-, hlimited', -, -, htallied⟩ :=
    limits_and_settlement reachable_deserted (hhanded.trans hcrowded)
  exact ⟨hgranted, hqueues, hturn, rfl, rfl, rfl, rfl, hlimited', htallied⟩

end Situation

end ConsensusLink
