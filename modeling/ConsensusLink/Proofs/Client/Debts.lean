import ConsensusLink.Proofs.Client.Advance
import ConsensusLink.Proofs.Client.Asking
/-!
# Who owes which promise

Along every run each promise that is not settled yet is owed by one party at most: by the
coordinator, once for the request at hand or in the queue, or by one of the jobs. `Owned` is this
invariant, with what it takes to keep it; every event keeps it, and so does every run. Hence nobody
settles what another party owes: `JobEffect.outline` and `Owned.advances_outline` say what a turn of
a job and a step of the coordinator come to for all others.
-/

namespace ConsensusLink

open Promise Relation Client

variable {σ φ : Type}

/-- A job that is not done has a place among the tasks and owes a promise. -/
def Client.Owes (c : Client σ φ) (i : Nat) (job : Job) (p : Id) : Prop :=
  ∃ stage, c.tasks[i]? = some (.job job p stage)

/-- The node is read, in any number of calls. -/
def Remote.Browses (remote : Remote σ φ) : σ → σ → Prop :=
  ReflTransGen fun n n' => ∃ call now start progress,
    call.isRead = true ∧ remote.Goes call now start n progress n'

lemma Remote.Tries.browses {remote : Remote σ φ} {policy : Retry.Policy Failure} {call : Call}
    {now : Nat} {retry₀ retry : Retry.State} {start : Option φ} {progress : CallProgress φ}
    {n n' : σ} (h : remote.Tries policy call now retry₀ start n retry progress n')
    (hcall : call.isRead = true) : remote.Browses n n' := by
  induction h with
  | first h => exact .single ⟨call, now, start, _, hcall, h⟩
  | again _ _ h ih => exact ih.tail ⟨call, now, none, _, hcall, h⟩

namespace Client

/-! ## Who owes what, as tasks change -/

variable {c c' : Client σ φ} {i j : Nat} {job job' : Job} {p q : Id} {stage : JobStage φ}

lemma owes_append {ts : List (Task φ)} (h : c'.tasks = c.tasks ++ ts)
    (hts : ∀ job p stage, Task.job job p stage ∉ ts) (ho : c'.Owes i job p) : c.Owes i job p := by
  obtain ⟨stage, hi⟩ := ho
  rw [h, List.getElem?_append] at hi
  split at hi
  · exact ⟨stage, hi⟩
  · exact absurd (List.mem_of_getElem? hi) (hts job p stage)

lemma owes_append_job (h : c'.tasks = c.tasks ++ [.job job p stage]) (ho : c'.Owes i job' q) :
    c.Owes i job' q ∨ job' = job ∧ q = p ∧ i = c.tasks.length := by
  obtain ⟨stage', hq⟩ := ho
  rw [h, List.getElem?_append] at hq
  split at hq
  · exact .inl ⟨stage', hq⟩
  · have hi : i - c.tasks.length = 0 := by
      by_contra hne
      rw [List.getElem?_eq_none (by simp; omega)] at hq
      cases hq
    rw [hi, List.getElem?_cons_zero] at hq
    cases hq
    exact .inr ⟨rfl, rfl, by omega⟩

lemma owes_set_job (h : c'.tasks = c.tasks.set i (.job job p stage)) (hi : c.Owes i job p)
    (ho : c'.Owes j job' q) : c.Owes j job' q := by
  obtain ⟨stage', hj⟩ := ho
  rw [h, List.getElem?_set] at hj
  split at hj
  · rename_i he
    subst he
    split at hj
    · cases hj
      exact hi
    · cases hj
  · exact ⟨stage', hj⟩

lemma owes_set_finished (h : c'.tasks = c.tasks.set i .finished) (ho : c'.Owes j job' q) :
    c.Owes j job' q ∧ j ≠ i := by
  obtain ⟨stage', hj⟩ := ho
  rw [h, List.getElem?_set] at hj
  split at hj
  · split at hj <;> cases hj
  · rename_i hne
    exact ⟨⟨stage', hj⟩, Ne.symm hne⟩

lemma Owes.append {ts : List (Task φ)} (h : c.Owes i job p) (ht : c'.tasks = c.tasks ++ ts) :
    c'.Owes i job p := by
  obtain ⟨stage, hi⟩ := h
  obtain ⟨hlt, -⟩ := List.getElem?_eq_some_iff.1 hi
  exact ⟨stage, by rw [ht, List.getElem?_append_left hlt, hi]⟩

lemma Owes.set_job (h : c.Owes j job' q) (hi : c.Owes i job p)
    (ht : c'.tasks = c.tasks.set i (.job job p stage)) : c'.Owes j job' q := by
  obtain ⟨stage', hj⟩ := h
  by_cases hij : i = j
  · subst hij
    obtain ⟨stage₀, hi⟩ := hi
    cases hi.symm.trans hj
    obtain ⟨hlt, -⟩ := List.getElem?_eq_some_iff.1 hi
    exact ⟨stage, by rw [ht, List.getElem?_set_self hlt]⟩
  · exact ⟨stage', by rw [ht, List.getElem?_set_ne hij, hj]⟩

lemma Owes.set_finished (h : c.Owes j job' q) (hij : i ≠ j)
    (ht : c'.tasks = c.tasks.set i .finished) : c'.Owes j job' q := by
  obtain ⟨stage', hj⟩ := h
  exact ⟨stage', by rw [ht, List.getElem?_set_ne hij, hj]⟩

/-- A service that stops has owed nothing. -/
lemma owes_set_service (h : c'.tasks = c.tasks.set i .finished)
    (hi : c.tasks[i]? = some .service) : c'.Owes j job q ↔ c.Owes j job q := by
  constructor
  · exact fun ho => (owes_set_finished h ho).1
  · intro ho
    refine ho.set_finished ?_ h
    rintro rfl
    obtain ⟨_, hj⟩ := ho
    cases hi.symm.trans hj

/-! ## Turns of tasks -/

/-- What a turn of a task can come to, if no task calls the node directly. -/
inductive TurnEffect (c : Client σ φ) (i : Nat) : Client σ φ → Prop
  /-- There is nothing to do. -/
  | stays : TurnEffect c i c
  /-- It is a turn of a job. -/
  | job {job : Job} {p : Id} {stage : JobStage φ} {c' : Client σ φ}
      (hi : c.tasks[i]? = some (.job job p stage)) (heff : JobEffect c i job p stage c') :
      TurnEffect c i c'
  /-- A service stops. -/
  | service {stoppedServices} (hi : c.tasks[i]? = some .service) :
      TurnEffect c i { c with tasks := c.tasks.set i .finished, stoppedServices }

lemma turn_effect (i : Nat) (h : ∀ call p phase, Task.direct call p phase ∉ c.tasks) :
    TurnEffect c i (c.turn (.task i)) := by
  rw [turn]
  rcases hi : c.tasks[i]? with _ | ⟨job, p, stage⟩ | ⟨call, p, phase⟩ | _ | _
  · exact .stays
  · exact .job hi (jobTurn_effect c i job p stage)
  · exact absurd (List.mem_of_getElem? hi) (h call p phase)
  · dsimp only
    split
    · exact .service hi
    · exact .stays
  · exact .stays

/-- How a job ends in its turn, with the outcome `o` and after the counts have become `t`. -/
inductive JobEnds (c : Client σ φ) (job : Job) (stage : JobStage φ) :
    Tracker → Outcome Answer → Prop
  /-- Without an answer of the node. -/
  | drops {o} (ho : o = .error .shutDown ∨ o = .error job.broken ∨ job.call? = none) :
      JobEnds c job stage c.tracker o
  /-- With an answer of the node. -/
  | answers {retry result node} (h : c.JobTries job stage retry (.ends result) node) :
      JobEnds c job stage (c.concludeJob job result).2.tracker (c.concludeJob job result).1

/-- A turn of a job, as far as others are concerned: the node is read, and either the job still
owes its promise or the promise is settled and the job is done. -/
lemma JobEffect.outline (h : JobEffect c i job p stage c')
    (hp : c.promises.Pending p) (hread : job.Reads) :
    ∃ node promises settlements batches blocks messageBatches tracker tasks pool schedule,
      c' =
          { c with
            node, promises, settlements, batches, blocks, messageBatches, tracker, tasks, pool
            schedule } ∧
        c.remote.Browses c.node node ∧ pool.isDown = c.pool.isDown ∧
        ((promises = c.promises ∧ messageBatches = c.messageBatches ∧ tracker = c.tracker ∧
            (tasks = c.tasks ∨ ∃ stage', tasks = c.tasks.set i (.job job p stage'))) ∨
          tasks = c.tasks.set i .finished ∧ ∃ t o, c.JobEnds job stage t o ∧
            Settling (books { c with tracker := t })
              (books { c with promises, messageBatches, tracker }) [p] o) := by
  have hbrowse : ∀ {retry progress node}, c.JobTries job stage retry progress node →
      c.remote.Browses c.node node := by
    rintro retry progress node ⟨call, hcall, ht⟩
    exact ht.browses (hread call hcall)
  cases h with
  | stays hk =>
    exact ⟨_, _, _, _, _, _, _, _, _, _, rfl, .refl, hk.isDown, .inl ⟨rfl, rfl, rfl, .inl rfl⟩⟩
  | works hk =>
    exact ⟨_, _, _, _, _, _, _, _, _, _, rfl, .refl, hk.isDown,
      .inl ⟨rfl, rfl, rfl, .inr ⟨_, rfl⟩⟩⟩
  | waits hk h =>
    exact ⟨_, _, _, _, _, _, _, _, _, _, rfl, hbrowse h, hk.isDown,
      .inl ⟨rfl, rfl, rfl, .inr ⟨_, rfl⟩⟩⟩
  | pauses hk h =>
    exact ⟨_, _, _, _, _, _, _, _, _, _, rfl, hbrowse h, hk.isDown,
      .inl ⟨rfl, rfl, rfl, .inr ⟨_, rfl⟩⟩⟩
  | drops hk ho =>
    rename_i o pool schedule
    obtain ⟨_, _, _, _, _, hc, hset⟩ := settle_eq
      (c := { c with pool, schedule, tasks := c.tasks.set i .finished }) hp o
    have hends : c.JobEnds job stage c.tracker o := .drops (ho.imp And.left .inr)
    exact ⟨_, _, _, _, _, _, _, _, _, _, hc, .refl, hk.isDown, .inr ⟨rfl, _, _, hends, hset⟩⟩
  | breaks hk h =>
    rename_i retry node pool schedule
    obtain ⟨_, _, _, _, _, hc, hset⟩ := settle_eq
      (c := { c with node, pool, schedule, tasks := c.tasks.set i .finished }) hp
      (.error job.broken)
    have hends : c.JobEnds job stage c.tracker (.error job.broken) := .drops (.inr (.inl rfl))
    exact ⟨_, _, _, _, _, _, _, _, _, _, hc, hbrowse h, hk.isDown, .inr ⟨rfl, _, _, hends, hset⟩⟩
  | answers hk h hj =>
    rename_i retry result node pool schedule
    obtain ⟨_, _, _, _, _, hc, hset⟩ := settle_eq
      (c := { c with
        node, pool, schedule
        tracker := (c.concludeJob job result).2.tracker
        tasks := c.tasks.set i .finished }) hp (c.concludeJob job result).1
    exact ⟨_, _, _, _, _, _, _, _, _, _, hc, hbrowse h, hk.isDown,
      .inr ⟨rfl, _, _, .answers h, hset⟩⟩

end Client

namespace Situation

variable {s s' : Situation σ φ}

/-- Every promise that is owed is pending, and owed once. -/
structure Owned (s : Situation σ φ) : Prop where
  /-- The coordinator owes pending promises. -/
  duties_pending : ∀ d ∈ s.duties, s.client.promises.Pending d.2
  /-- It owes each of them once. -/
  duties_nodup : (s.duties.map Prod.snd).Nodup
  /-- It owes them for what was asked. -/
  duties_asked : ∀ d ∈ s.duties, (d.2, .sequence d.1) ∈ s.asked
  /-- The promises of writes and probes were handed out. -/
  asked_known : ∀ p r, (p, Ask.sequence r) ∈ s.asked → s.client.promises.Known p
  /-- They were handed out once. -/
  asked_once : ∀ p r r', (p, Ask.sequence r) ∈ s.asked → (p, Ask.sequence r') ∈ s.asked → r = r'
  /-- Jobs owe pending promises. -/
  jobs_pending : ∀ i job p, s.client.Owes i job p → s.client.promises.Pending p
  /-- No two jobs owe the same. -/
  jobs_once : ∀ i j job job' p, s.client.Owes i job p → s.client.Owes j job' p → i = j
  /-- What jobs owe is not the promise of a write or probe. -/
  jobs_apart : ∀ i job p r, s.client.Owes i job p → (p, Ask.sequence r) ∉ s.asked
  /-- Jobs only read. -/
  jobs_read : ∀ i job p, s.client.Owes i job p → job.Reads
  /-- All calls go through the pool. -/
  no_direct : ∀ call p phase, Task.direct call p phase ∉ s.client.tasks
  /-- A call of the coordinator that waits was begun. -/
  sent : ∀ r p a stage, s.stance = .resting → s.client.coordinatorStage = .busy r p a stage →
    stage.phase? ≠ none → a.sent = true

lemma owned_fresh (config : ClientConfig) (remote : Remote σ φ) (node : σ) :
    Owned (fresh config remote node) where
  duties_pending _ hd := nomatch hd
  duties_nodup := List.nodup_nil
  duties_asked _ hd := nomatch hd
  asked_known _ _ h := nomatch h
  asked_once _ _ _ h := nomatch h
  jobs_pending := by rintro i job p ⟨stage, h⟩; cases h
  jobs_once := by rintro i j job job' p ⟨stage, h⟩; cases h
  jobs_apart := by rintro i job p r ⟨stage, h⟩; cases h
  jobs_read := by rintro i job p ⟨stage, h⟩; cases h
  no_direct _ _ _ h := nomatch h
  sent _ _ _ _ _ h := nomatch h

/-- The coordinator owes a promise for the request that it was handed out for. -/
lemma Owned.request_eq (h : s.Owned) {p : Id} {r r' : SequencerRequest} (hd : (r, p) ∈ s.duties)
    (hasked : (p, Ask.sequence r') ∈ s.asked) : r = r' :=
  h.asked_once p r r' (h.duties_asked _ hd) hasked

/-- A promise that the coordinator owes is not owed by a job. -/
lemma Owned.ne_of_duty (h : s.Owned) {d : SequencerRequest × Id} (hd : d ∈ s.duties) {i : Nat}
    {job : Job} {p : Id} (hj : s.client.Owes i job p) : d.2 ≠ p := by
  rintro rfl
  exact h.jobs_apart i job d.2 d.1 hj (h.duties_asked d hd)

/-- What matters for `Owned` besides the promises: who owes what. -/
lemma atHand_congr (hs : s'.stance = s.stance)
    (hc : s'.client.coordinatorStage = s.client.coordinatorStage ∨
      s.client.coordinatorStage = .held ∧ s'.client.coordinatorStage = .idle) :
    s'.atHand = s.atHand := by
  rw [atHand, atHand, hs]
  obtain hc | ⟨hheld, hidle⟩ := hc
  · rw [hc]
  · rw [hheld, hidle]

lemma duties_congr (hs : s'.stance = s.stance)
    (hc : s'.client.coordinatorStage = s.client.coordinatorStage ∨
      s.client.coordinatorStage = .held ∧ s'.client.coordinatorStage = .idle)
    (hq : s'.client.coordinator.queue = s.client.coordinator.queue) : s'.duties = s.duties := by
  rw [duties, duties, atHand_congr hs hc, hq]

/-- What is needed to keep the invariant when nothing new is owed: no promise that is still owed
is settled, and no write or probe is asked for. -/
lemma Owned.keep (h : s.Owned) {ps : List Id}
    (hst : s.client.promises.Carries s'.client.promises ps)
    (hduties : s'.duties.Sublist s.duties) (hrest : ∀ d ∈ s'.duties, d.2 ∉ ps)
    (howes : ∀ i job p, s'.client.Owes i job p → s.client.Owes i job p ∧ p ∉ ps)
    (hasked : ∀ p r, (p, Ask.sequence r) ∈ s'.asked ↔ (p, Ask.sequence r) ∈ s.asked)
    (hdirect : ∀ call p phase, Task.direct call p phase ∉ s'.client.tasks)
    (hsent : ∀ r p a stage, s'.stance = .resting →
      s'.client.coordinatorStage = .busy r p a stage → stage.phase? ≠ none → a.sent = true) :
    s'.Owned where
  duties_pending d hd := hst.pending _ (hrest d hd) (h.duties_pending d (hduties.subset hd))
  duties_nodup := h.duties_nodup.sublist (hduties.map _)
  duties_asked d hd := (hasked _ _).2 (h.duties_asked d (hduties.subset hd))
  asked_known p r hp := hst.known _ (h.asked_known p r ((hasked p r).1 hp))
  asked_once p r r' hp hp' := h.asked_once p r r' ((hasked p r).1 hp) ((hasked p r').1 hp')
  jobs_pending i job p ho :=
    hst.pending _ (howes i job p ho).2 (h.jobs_pending i job p (howes i job p ho).1)
  jobs_once i j job job' p ho ho' :=
    h.jobs_once i j job job' p (howes i job p ho).1 (howes j job' p ho').1
  jobs_apart i job p r ho hp := h.jobs_apart i job p r (howes i job p ho).1 ((hasked p r).1 hp)
  jobs_read i job p ho := h.jobs_read i job p (howes i job p ho).1
  no_direct := hdirect
  sent := hsent

/-- The same when nothing is settled and the tasks go on as they are. -/
lemma Owned.keep_unsettled (h : s.Owned) (hpromises : s'.client.promises = s.client.promises)
    (htasks : s'.client.tasks = s.client.tasks) (hasked : s'.asked = s.asked)
    (hduties : s'.duties.Sublist s.duties)
    (hsent : ∀ r p a stage, s'.stance = .resting →
      s'.client.coordinatorStage = .busy r p a stage → stage.phase? ≠ none → a.sent = true) :
    s'.Owned := by
  have hst : s.client.promises.Carries s'.client.promises [] := hpromises ▸ .refl _
  refine h.keep hst hduties (by simp) ?_ (fun _ _ => by rw [hasked]) ?_ hsent
  · rintro i job p ⟨stage, hi⟩
    exact ⟨⟨stage, htasks ▸ hi⟩, by simp⟩
  · rw [htasks]
    exact h.no_direct

/-- A task that goes on calls the node through the pool, if it was so before. -/
lemma Owned.no_direct_set (h : s.Owned) (i : Nat) {t : Task φ}
    (ht : ∀ call p phase, t ≠ .direct call p phase) (call : Call) (p : Id) (phase : Option φ) :
    Task.direct call p phase ∉ s.client.tasks.set i t := by
  intro hmem
  obtain hmem | he := List.mem_or_eq_of_mem_set hmem
  · exact h.no_direct call p phase hmem
  · exact ht call p phase he.symm

/-- A new promise that nobody owes, because it is settled or not owed yet. -/
lemma Owned.handOut (h : s.Owned) {p : Id} (a : Ask)
    (hst : s.client.promises.HandsOut s'.client.promises p) (hduties : s'.duties = s.duties)
    (htasks : s'.client.tasks = s.client.tasks) (hasked : s'.asked = (p, a) :: s.asked)
    (hsent : ∀ r p a stage, s'.stance = .resting →
      s'.client.coordinatorStage = .busy r p a stage → stage.phase? ≠ none → a.sent = true) :
    s'.Owned := by
  have howes : ∀ {i job q}, s'.client.Owes i job q → s.client.Owes i job q := by
    rintro i job q ⟨stage, hq⟩
    exact ⟨stage, htasks ▸ hq⟩
  -- a promise that was asked for before is known, so that it is not the new one
  have hold : ∀ {q r}, (q, Ask.sequence r) ∈ s'.asked → q ≠ p → (q, Ask.sequence r) ∈ s.asked := by
    intro q r hq hne
    rw [hasked] at hq
    exact (List.mem_cons.1 hq).resolve_left fun he => hne (congrArg Prod.fst he)
  have hnew : ∀ {r}, (p, Ask.sequence r) ∈ s'.asked → Ask.sequence r = a := by
    intro r hp
    rw [hasked] at hp
    rcases List.mem_cons.1 hp with he | hmem
    · exact congrArg Prod.snd he
    · exact absurd (h.asked_known p r hmem) hst.fresh
  exact
    { duties_pending := fun d hd => hst.pending (h.duties_pending d (hduties ▸ hd))
      duties_nodup := hduties ▸ h.duties_nodup
      duties_asked := fun d hd => by
        rw [hasked]
        exact List.mem_cons_of_mem _ (h.duties_asked d (hduties ▸ hd))
      asked_known := fun q r hq => by
        by_cases hne : q = p
        · exact hne ▸ hst.known_self
        · exact hst.known_mono (h.asked_known q r (hold hq hne))
      asked_once := fun q r r' hq hq' => by
        by_cases hne : q = p
        · subst hne
          have he := (hnew hq).trans (hnew hq').symm
          cases he
          rfl
        · exact h.asked_once q r r' (hold hq hne) (hold hq' hne)
      jobs_pending := fun i job q ho => hst.pending (h.jobs_pending i job q (howes ho))
      jobs_once := fun i j job job' q ho ho' => h.jobs_once i j job job' q (howes ho) (howes ho')
      jobs_apart := fun i job q r ho hq => by
        have hne := hst.ne (h.jobs_pending i job q (howes ho)).known
        exact h.jobs_apart i job q r (howes ho) (hold hq hne)
      jobs_read := fun i job q ho => h.jobs_read i job q (howes ho)
      no_direct := fun call q phase => htasks ▸ h.no_direct call q phase
      sent := hsent }

/-- A new job takes over a pending promise that nobody owes. -/
lemma Owned.addJob (h : s.Owned) {job : Job} {p : Id} {c : Client σ φ}
    (hc : c.promises = s.client.promises ∧ c.coordinator = s.client.coordinator ∧
      c.coordinatorStage = s.client.coordinatorStage)
    (htasks : c.tasks = s.client.tasks ++ [.job job p .waiting])
    (hp : s.client.promises.Pending p) (hfree : ∀ i job, ¬ s.client.Owes i job p)
    (hasked : ∀ r, (p, Ask.sequence r) ∉ s.asked) (hjob : job.Reads) :
    Owned { s with client := c } := by
  obtain ⟨hpromises, hcoordinator, hstage⟩ := hc
  have hat : atHand { s with client := c } = s.atHand := atHand_congr rfl (.inl hstage)
  have hduties : duties { s with client := c } = s.duties := by
    rw [duties, duties, hcoordinator, hat]
  have howes : ∀ {i job' q}, c.Owes i job' q →
      s.client.Owes i job' q ∨ job' = job ∧ q = p ∧ i = s.client.tasks.length :=
    owes_append_job htasks
  exact
    { duties_pending := fun d hd => hpromises ▸ h.duties_pending d (hduties ▸ hd)
      duties_nodup := hduties ▸ h.duties_nodup
      duties_asked := fun d hd => h.duties_asked d (hduties ▸ hd)
      asked_known := fun q r hq => hpromises ▸ h.asked_known q r hq
      asked_once := h.asked_once
      jobs_pending := fun i job' q ho => by
        change c.promises.Pending q
        rw [hpromises]
        rcases howes ho with ho | ⟨-, rfl, -⟩
        · exact h.jobs_pending i job' q ho
        · exact hp
      jobs_once := fun i j job' job'' q ho ho' => by
        rcases howes ho with ho | ⟨rfl, rfl, rfl⟩
        · rcases howes ho' with ho' | ⟨rfl, rfl, rfl⟩
          · exact h.jobs_once i j job' job'' q ho ho'
          · exact absurd ho (hfree i job')
        · rcases howes ho' with ho' | ⟨rfl, -, rfl⟩
          · exact absurd ho' (hfree j job'')
          · rfl
      jobs_apart := fun i job' q r ho hq => by
        rcases howes ho with ho | ⟨-, rfl, -⟩
        · exact h.jobs_apart i job' q r ho hq
        · exact hasked r hq
      jobs_read := fun i job' q ho => by
        rcases howes ho with ho | ⟨rfl, -, -⟩
        · exact h.jobs_read i job' q ho
        · exact hjob
      no_direct := fun call q phase hmem => by
        change Task.direct call q phase ∈ c.tasks at hmem
        rw [htasks, List.mem_append, List.mem_singleton] at hmem
        rcases hmem with hmem | he
        · exact h.no_direct call q phase hmem
        · cases he
      sent := fun r q a stage hs hc => h.sent r q a stage hs (hstage ▸ hc) }

/-- A new request joins the queue, with a pending promise that nobody owes. -/
lemma Owned.addDuty (h : s.Owned) {r : SequencerRequest} {p : Id} {c : Client σ φ}
    (hc : c.promises = s.client.promises ∧ c.tasks = s.client.tasks ∧
      c.coordinatorStage = s.client.coordinatorStage)
    (hqueue : c.coordinator.queue = s.client.coordinator.queue ++ [(r, p)])
    (hp : s.client.promises.Pending p) (hfree : ∀ d ∈ s.duties, d.2 ≠ p)
    (hasked : (p, Ask.sequence r) ∈ s.asked) : Owned { s with client := c } := by
  obtain ⟨hpromises, htasks, hstage⟩ := hc
  have hat : atHand { s with client := c } = s.atHand := atHand_congr rfl (.inl hstage)
  have hduties : duties { s with client := c } = s.duties ++ [(r, p)] := by
    rw [duties, duties, hqueue, hat, List.append_assoc]
  have howes : ∀ {i job q}, c.Owes i job q → s.client.Owes i job q := by
    rintro i job q ⟨stage, hq⟩
    exact ⟨stage, htasks ▸ hq⟩
  have hall : ∀ {d}, d ∈ duties { s with client := c } → d ∈ s.duties ∨ d = (r, p) := by
    intro d hd
    rw [hduties, List.mem_append, List.mem_singleton] at hd
    exact hd
  exact
    { duties_pending := fun d hd => by
        change c.promises.Pending d.2
        rw [hpromises]
        rcases hall hd with hd | rfl
        · exact h.duties_pending d hd
        · exact hp
      duties_nodup := by
        rw [hduties, List.map_append, List.nodup_append]
        refine ⟨h.duties_nodup, by simp, ?_⟩
        rintro q hq q' hq' rfl
        obtain ⟨d, hd, rfl⟩ := List.mem_map.1 hq
        exact hfree d hd (List.mem_singleton.1 hq')
      duties_asked := fun d hd => by
        rcases hall hd with hd | rfl
        · exact h.duties_asked d hd
        · exact hasked
      asked_known := fun q r hq => hpromises ▸ h.asked_known q r hq
      asked_once := h.asked_once
      jobs_pending := fun i job q ho => hpromises ▸ h.jobs_pending i job q (howes ho)
      jobs_once := fun i j job job' q ho ho' => h.jobs_once i j job job' q (howes ho) (howes ho')
      jobs_apart := fun i job q r ho => h.jobs_apart i job q r (howes ho)
      jobs_read := fun i job q ho => h.jobs_read i job q (howes ho)
      no_direct := fun call q phase => htasks ▸ h.no_direct call q phase
      sent := fun r q a stage hs hc => h.sent r q a stage hs (hstage ▸ hc) }

/-! ## Asking and ordering -/

lemma Owned.ask (h : s.Owned) (a : Ask) : Owned (s.after (.ask a)) := by
  have heff := take_effect s.client a
  rw [after]
  generalize s.client.take a = pc at heff
  obtain ⟨p, c⟩ := pc
  dsimp only at heff ⊢
  cases heff with
  | reuses ha =>
    refine h.keep (.refl _) (.refl _) (by simp) (fun i job q ho => ⟨ho, by simp⟩) ?_ h.no_direct
      h.sent
    intro q r
    rw [List.mem_cons]
    refine or_iff_right_of_imp fun he => ?_
    exact absurd (congrArg Prod.snd he).symm (ha r)
  | answers hp ho hseq => exact h.handOut a hp rfl rfl rfl h.sent
  | submits ha hp hpend hjob hdown =>
    have hmid : Owned { s with
        client := { s.client with promises := _ }, asked := (p, a) :: s.asked } :=
      h.handOut a hp rfl rfl rfl h.sent
    refine hmid.addJob ⟨rfl, rfl, rfl⟩ rfl hpend ?_ ?_ hjob
    · rintro i job ho
      exact hp.ne (h.jobs_pending i job p ho).known rfl
    · intro r hmem
      rcases List.mem_cons.1 hmem with he | hmem
      · exact ha r (congrArg Prod.snd he).symm
      · exact hp.fresh (h.asked_known p r hmem)
  | queues hp hpend hwatch =>
    rename_i r promises schedule
    have hmid : Owned { s with
        client := { s.client with promises }, asked := (p, .sequence r) :: s.asked } :=
      h.handOut (.sequence r) hp rfl rfl rfl h.sent
    refine hmid.addDuty ⟨rfl, rfl, rfl⟩ rfl hpend ?_ List.mem_cons_self
    intro d hd
    exact hp.ne (h.duties_pending d hd).known

lemma Owned.order (h : s.Owned) (o : Order) : Owned (s.after (.order o)) := by
  obtain ⟨_, _, _, stage', _, services, _, _, hc, hstage, hservices, -⟩ := obey_eq s.client o
  rw [after, hc]
  have hjobs : ∀ job p stage, Task.job (φ := φ) job p stage ∉ services := by
    intro job p stage
    obtain rfl | rfl := hservices <;> simp
  refine h.keep (.refl _) ?_ (by simp) ?_ (fun _ _ => Iff.rfl) ?_ ?_
  · have hd : duties { s with client := { s.client with coordinatorStage := stage' } } = s.duties :=
      duties_congr rfl hstage rfl
    exact hd ▸ .refl _
  · intro i job p ho
    exact ⟨owes_append rfl hjobs ho, by simp⟩
  · intro call p phase hmem
    obtain hmem | hmem := List.mem_append.1 hmem
    · exact h.no_direct call p phase hmem
    · obtain rfl | rfl := hservices <;> simp at hmem
  · intro r p a stage hs hbusy
    obtain he | ⟨-, he⟩ := hstage
    · exact h.sent r p a stage hs (he.symm.trans hbusy)
    · cases he.symm.trans hbusy

/-- A turn of a task settles nothing that the coordinator owes. -/
lemma Owned.job (h : s.Owned) (i : Nat) : Owned (s.after (.job i)) := by
  have heff := turn_effect i h.no_direct
  rw [after]
  generalize s.client.turn (.task i) = c at heff
  cases heff with
  | stays => exact h
  | @job job p stage _ hi heff =>
    have ho : s.client.Owes i job p := ⟨stage, hi⟩
    obtain ⟨node, promises, _, _, _, _, _, tasks, _, _, rfl, -, -, hcase⟩ :=
      heff.outline (h.jobs_pending i job p ho) (h.jobs_read i job p ho)
    obtain ⟨rfl, -, -, htasks⟩ | ⟨rfl, _, o, -, hset⟩ := hcase
    · -- the job goes on
      refine h.keep (.refl _) (.refl _) (by simp) ?_ (fun _ _ => Iff.rfl) ?_ h.sent
      · intro j job' q ho'
        refine ⟨?_, by simp⟩
        obtain rfl | ⟨stage', rfl⟩ := htasks
        · exact ho'
        · exact owes_set_job rfl ho ho'
      · obtain rfl | ⟨stage', rfl⟩ := htasks
        · exact h.no_direct
        · exact h.no_direct_set i (by simp)
    · -- the job is done, and only its own promise is settled
      refine h.keep hset.toSettles.carries (.refl _) ?_ ?_ (fun _ _ => Iff.rfl) ?_ h.sent
      · intro d hd
        rw [List.mem_singleton]
        exact h.ne_of_duty hd ho
      · intro j job' q ho'
        obtain ⟨ho', hne⟩ := owes_set_finished rfl ho'
        refine ⟨ho', ?_⟩
        rw [List.mem_singleton]
        rintro rfl
        exact hne (h.jobs_once j i job' job q ho' ho)
      · exact h.no_direct_set i (by simp)
  | service hi =>
    refine h.keep (.refl _) (.refl _) (by simp) ?_ (fun _ _ => Iff.rfl)
      (h.no_direct_set i (by simp)) h.sent
    intro j job q ho
    exact ⟨(owes_set_service rfl hi).1 ho, by simp⟩

/-! ## Steps of the coordinator -/

lemma Owned.advances (h : s.Owned) : Advances s s.advance :=
  Situation.advances h.duties_pending h.duties_nodup

/-- A step of the coordinator, as far as others are concerned: the promises that it settles are not
owed by any job. -/
lemma Owned.advances_outline (h : s.Owned) (hadv : Advances s s') :
    s'.client.tasks = s.client.tasks ∧ s'.asked = s.asked ∧
      s'.client.manualFinality = s.client.manualFinality ∧
      ∃ ps o, Settling s.client.books s'.client.books ps o ∧
        ∀ p ∈ ps, s.client.promises.Pending p ∧ ∀ i job, ¬s.client.Owes i job p := by
  have hduty : ∀ d ∈ s.duties, s.client.promises.Pending d.2 ∧
      ∀ i job, ¬s.client.Owes i job d.2 := fun d hd =>
    ⟨h.duties_pending d hd, fun i job ho => h.ne_of_duty hd ho rfl⟩
  have hnone : ∀ p ∈ [], s.client.promises.Pending p ∧ ∀ i job, ¬s.client.Owes i job p := nofun
  cases hadv with
  | idles => exact ⟨rfl, rfl, rfl, [], .error .shutDown, .refl _ _, hnone⟩
  | stops hcond hset hd =>
    refine ⟨rfl, rfl, rfl, _, _, hset, fun p hp => ?_⟩
    obtain ⟨d, hd, rfl⟩ := List.mem_map.1 hp
    exact hduty d hd
  | attempts htake heff =>
    obtain ⟨_, _, _, _, hclient, -⟩ := heff.client_eq
    rw [client_attempt, asked_attempt, hclient]
    exact ⟨rfl, rfl, rfl, [], .error .shutDown, .refl _ _, hnone⟩
  | concludes hs hj hset =>
    refine ⟨rfl, rfl, rfl, _, _, hset, fun p hp => ?_⟩
    obtain rfl := List.mem_singleton.1 hp
    exact hduty (_, p) (mem_duties_of_atHand (atHand_judging hs))
  | pauses => exact ⟨rfl, rfl, rfl, [], .error .shutDown, .refl _ _, hnone⟩
  | answers hs hd hq hans hset =>
    refine ⟨rfl, rfl, rfl, _, _, hset, fun p hp => ?_⟩
    obtain rfl := List.mem_singleton.1 hp
    exact hduty (_, p) ((duties_taking hs).trans hq ▸ List.mem_cons_self)

/-- Taking up a request does not change what is owed: the request at hand, or the first one of the
queue, is the one that the attempt is at. -/
lemma TakesUp.duties_eq {r : SequencerRequest} {p : Id} {a : Attempts} {start : Option φ}
    {coordinator : Coordinator} (h : s.TakesUp r p a start coordinator) :
    s.duties = (r, p) :: coordinator.queue := by
  cases h with
  | resumes hs hc hd => exact duties_of_atHand (atHand_busy hs hc)
  | repeats hs hj => exact duties_judging hs
  | begins hs hd hq hans =>
    rename_i queue coordinator
    have hqueue := queue_answerLocally { s.client.coordinator with queue } r
    rw [hans] at hqueue
    rw [duties_taking hs, hq, queue_startCalls, hqueue]

lemma Owned.sent_of_takesUp (h : s.Owned) {r : SequencerRequest} {p : Id} {a : Attempts}
    {start : Option φ} {coordinator : Coordinator} (ht : s.TakesUp r p a start coordinator)
    (hstart : start ≠ none) : a.sent = true := by
  cases ht with
  | resumes hs hc hd => exact h.sent r p a _ hs hc hstart
  | repeats hs hj => exact absurd rfl hstart
  | begins hs hd hq hans => exact absurd rfl hstart

/-- Ending the first of the duties leaves the others. -/
lemma Owned.settleFirst (h : s.Owned) {r : SequencerRequest} {p : Id} {o : Outcome Answer}
    {queue : List (SequencerRequest × Id)} (hduties : s.duties = (r, p) :: queue)
    (hset : s.client.promises.Settles s'.client.promises [p] o) (hstance : s'.stance = .taking)
    (hqueue : s'.client.coordinator.queue = queue) (htasks : s'.client.tasks = s.client.tasks)
    (hasked : s'.asked = s.asked) : s'.Owned := by
  have hduties' : s'.duties = queue := by rw [duties_taking hstance, hqueue]
  have hmem : (r, p) ∈ s.duties := by
    rw [hduties]
    exact List.mem_cons_self
  have hn := h.duties_nodup
  rw [hduties, List.map_cons, List.nodup_cons] at hn
  refine h.keep hset.carries ?_ ?_ ?_ (fun _ _ => by rw [hasked]) ?_ ?_
  · rw [hduties', hduties]
    exact List.sublist_cons_self _ _
  · intro d hd
    rw [List.mem_singleton]
    exact snd_ne_of_mem hn.1 (hduties' ▸ hd)
  · rintro i job q ⟨stage, hi⟩
    have ho : s.client.Owes i job q := ⟨stage, htasks ▸ hi⟩
    refine ⟨ho, ?_⟩
    rw [List.mem_singleton]
    exact (h.ne_of_duty hmem ho).symm
  · intro call q phase
    rw [htasks]
    exact h.no_direct call q phase
  · intro _ _ _ _ hs
    rw [hstance] at hs
    cases hs

/-- At an attempt nothing is settled. -/
lemma Owned.attempt (h : s.Owned) {r : SequencerRequest} {p : Id} {a : Attempts}
    {start : Option φ} {coordinator : Coordinator} {progress : AttemptProgress σ φ}
    (ht : s.TakesUp r p a start coordinator)
    (heff : AttemptEffect { s.client with coordinator } r p a start progress) :
    Owned (attempt { s with client := { s.client with coordinator } } r p progress) := by
  have hduties := ht.duties_eq
  cases heff with
  | stays hk hs =>
    refine h.keep_unsettled rfl rfl rfl (hduties ▸ .refl _) ?_
    rintro _ _ _ _ - ⟨⟩ hphase
    exact h.sent_of_takesUp ht (hs ▸ hphase)
  | fails hk he =>
    refine h.keep_unsettled rfl rfl rfl (hduties ▸ .refl _) ?_
    rintro _ _ _ _ ⟨⟩
  | waits hk hgo =>
    refine h.keep_unsettled rfl rfl rfl (hduties ▸ .refl _) ?_
    rintro _ _ _ _ - ⟨⟩ -
    exact Attempts.sent_called (h.sent_of_takesUp ht)
  | returns hk hgo =>
    refine h.keep_unsettled rfl rfl rfl (hduties ▸ .refl _) ?_
    rintro _ _ _ _ ⟨⟩

lemma Owned.advance (h : s.Owned) : Owned s.advance := by
  have hadv := h.advances
  generalize s.advance = s' at hadv
  cases hadv with
  | idles hat hc hat' =>
    refine h.keep_unsettled rfl rfl rfl ?_ ?_
    · rewrite [duties, hat', duties, hat]
      exact .refl _
    · intro r p a stage hs hbusy
      dsimp only at hs hbusy
      subst hs hbusy
      cases hat'
  | stops hcond hset hd =>
    refine h.keep hset.carries (List.nil_sublist _) (by rintro _ ⟨⟩) ?_
      (fun _ _ => Iff.rfl) h.no_direct ?_
    · intro i job q ho
      refine ⟨ho, fun hmem => ?_⟩
      obtain ⟨d, hd, rfl⟩ := List.mem_map.1 hmem
      exact h.ne_of_duty hd ho rfl
    · rintro _ _ _ _ - ⟨⟩
  | attempts htake heff => exact h.attempt htake heff
  | concludes hs hj hset =>
    exact h.settleFirst (duties_judging hs) hset.toSettles rfl rfl rfl rfl
  | pauses hs hj =>
    refine h.keep_unsettled rfl rfl rfl ?_ ?_
    · rewrite [duties_judging hs]
      exact .refl _
    · rintro _ _ _ _ - ⟨⟩ hphase
      exact absurd rfl hphase
  | answers hs hd hq hans hset =>
    rename_i r p queue o coordinator _ _ _ _ _ _
    have hqueue := queue_answerLocally { s.client.coordinator with queue } r
    rw [hans] at hqueue
    exact h.settleFirst ((duties_taking hs).trans hq) hset.toSettles rfl hqueue rfl rfl

/-! ## Along runs -/

lemma Owned.after (h : s.Owned) (e : Event σ) : Owned (s.after e) := by
  cases e with
  | ask a => exact h.ask a
  | order o => exact h.order o
  | job i => exact h.job i
  | advance => exact h.advance
  | clock schedule => exact h.keep_unsettled rfl rfl rfl (.refl _) h.sent
  | node n => exact h.keep_unsettled rfl rfl rfl (.refl _) h.sent

/-- Along every run each promise is owed once. -/
theorem owned_of_runs {config : ClientConfig} {remote : Remote σ φ} {node : σ}
    {moves : σ → σ → Prop} (h : Runs moves (fresh config remote node) s) : s.Owned := by
  induction h with
  | refl => exact owned_fresh config remote node
  | tail _ hstep ih =>
    obtain ⟨e, -, rfl⟩ := hstep
    exact ih.after e

end Situation

end ConsensusLink
