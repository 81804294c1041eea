import ConsensusLink.Proofs.Cache.Holding
import ConsensusLink.Proofs.Client.Fulfilment
import ConsensusLink.Proofs.Node.Overheard
import Mathlib.Computability.Primrec.List
import Mathlib.Data.List.Permutation
/-!
# What a read comes to

A key of which a cache holds nothing has a request made, and a task calls the node for it, again and
again as long as the answers are failures that may pass and there may be more of them. `ReadCourse`
says what the answers come to, whatever they are: the first one that is a value or a failure to stay
settles the request as it is, and if there is none, the request is given up with the text of the
last failure. `Stands` is the invariant behind it. It is kept by each turn of the task, and nothing
else touches it.

A request that fails leaves nothing behind, so that the next one who asks for the key has a new
request made. If the key was forgotten meanwhile, then it may be another request for it, made since,
that is in flight or has left its value.
-/

namespace ConsensusLink

open Promise Relation Client CallSound

variable {σ φ : Type}

/-- The failure with which a read is given up; the text is that of the last failure it has met. -/
def CacheKey.unavailable : CacheKey → String → Failure
  | batch n => .batchUnavailable n
  | block n => .lookupUnavailable (.batchBlock n)
  | messageBatch m => .lookupUnavailable (.messageBatch m)

/-- What a read is settled with upon its last answer. -/
def CacheKey.settles (key : CacheKey) : Outcome Answer → Outcome Answer
  | .ok a => .ok a
  | .error e => .error (if e.isTransient then key.unavailable e.message else e)

/-- A failure that may pass. -/
def Passing (r : Outcome Answer) : Prop := ∃ e, r = .error e ∧ e.isTransient = true

lemma concludeJob_read (c : Client σ φ) (key : CacheKey) (r : Outcome Answer) :
    (c.concludeJob (.read key.call) r).1 = key.settles r := by
  cases r with
  | ok a => rfl
  | error e => cases key <;> rfl

lemma jobPolicy_read (c : Client σ φ) (key : CacheKey) :
    c.jobPolicy (.read key.call) = c.config.batchFetcher.retry.policy := by
  cases key <;> rfl

/-! ## Turns of the task -/

/-- How a read ends, after what was heard of its calls. -/
inductive ReadEnds (policy : Retry.Policy Failure) (key : CacheKey) (isDown : Bool) :
    List CallSound → Outcome Answer → Prop
  | answers {heard retry r} (hf : Follows policy key.call heard retry true)
      (hj : policy.judge retry r = .finish r) :
      ReadEnds policy key isDown (heard ++ [.answered r]) (key.settles r)
  | breaks {heard retry} (hf : Follows policy key.call heard retry true) :
      ReadEnds policy key isDown (heard ++ [.broke]) (.error (Job.read key.call).broken)
  | drops {heard retry isOpen} (hf : Follows policy key.call heard retry isOpen)
      (hd : isDown = true) : ReadEnds policy key isDown heard (.error .shutDown)

lemma ReadEnds.mono {policy : Retry.Policy Failure} {key : CacheKey} {isDown isDown' : Bool}
    {heard : List CallSound} {o : Outcome Answer} (h : ReadEnds policy key isDown heard o)
    (hd : isDown = true → isDown' = true) : ReadEnds policy key isDown' heard o := by
  cases h with
  | answers hf hj => exact .answers hf hj
  | breaks hf => exact .breaks hf
  | drops hf hdown => exact .drops hf (hd hdown)

/-- The task has a turn: its calls go on, or the read ends. -/
lemma Client.JobEffect.reads {c c' : Client (Overheard σ) φ} {remote : Remote σ φ} {i : Nat}
    {key : CacheKey} {p : Id} {stage : JobStage φ} {policy : Retry.Policy Failure}
    {before : List CallSound} (h : JobEffect c i (.read key.call) p stage c')
    (hremote : c.remote = remote.overheard) (hpolicy : c.jobPolicy (.read key.call) = policy)
    (hi : c.tasks[i]? = some (.job (.read key.call) p stage)) (hp : c.promises.Pending p)
    (hstage : stage ≠ .working)
    (hf : Follows policy key.call before (stage.retry policy) stage.phase?.isSome) :
    ∃ news, c'.node.heard = c.node.heard ++ news ∧
      ((∃ stage', c'.tasks[i]? = some (.job (.read key.call) p stage') ∧ stage' ≠ .working ∧
          Follows policy key.call (before ++ news) (stage'.retry policy) stage'.phase?.isSome) ∨
        c'.tasks[i]? = some .finished ∧ ∃ o, c'.promises.outcome? p = some o ∧
          ReadEnds policy key c'.pool.isDown (before ++ news) o) := by
  obtain ⟨hlt, -⟩ := List.getElem?_eq_some_iff.1 hi
  -- what is heard in the turn ends with what its last call has come to
  have htries : ∀ {retry progress node},
      c.JobTries (.read key.call) stage retry progress node →
        ∃ news between, node.heard = c.node.heard ++ news ∧
          before ++ news = between ++ progress.sounds ∧
            Follows policy key.call between retry true := by
    rintro retry progress node ⟨call, hcall, ht⟩
    cases hcall
    rw [hremote, hpolicy] at ht
    exact ht.follows hf
  have hsettle : ∀ (c₀ : Client (Overheard σ) φ) (o : Outcome Answer),
      c₀.promises = c.promises → c₀.tasks = c.tasks.set i .finished →
        (c₀.settle p o).tasks[i]? = some .finished ∧
          (c₀.settle p o).promises.outcome? p = some o ∧ (c₀.settle p o).pool = c₀.pool := by
    intro c₀ o hpromises htasks
    have ho := outcome?_settle (hpromises ▸ hp) o
    obtain ⟨_, _, _, _, _, _, hc⟩ := settle_frame c₀ p o
    rw [hc] at ho ⊢
    refine ⟨?_, ho, rfl⟩
    rw [htasks, List.getElem?_set_self hlt]
  cases h with
  | stays =>
    refine ⟨[], (List.append_nil _).symm, .inl ⟨stage, hi, hstage, ?_⟩⟩
    rwa [List.append_nil]
  | works hk hcall => cases hcall
  | waits hk h =>
    obtain ⟨news, between, hheard, hsame, hbetween⟩ := htries h
    refine ⟨news, hheard, .inl ⟨_, List.getElem?_set_self hlt, nofun, ?_⟩⟩
    rw [hsame]
    exact (List.append_nil between).symm ▸ hbetween
  | pauses hk h hj =>
    obtain ⟨news, between, hheard, hsame, hbetween⟩ := htries h
    refine ⟨news, hheard, .inl ⟨_, List.getElem?_set_self hlt, nofun, ?_⟩⟩
    rw [hsame]
    exact hbetween.again (hpolicy ▸ hj)
  | drops hk ho =>
    rename_i o pool schedule
    obtain ⟨rfl, hd⟩ | hcall := ho
    · obtain ⟨hdone, ho, hpool⟩ := hsettle
        { c with pool, schedule, tasks := c.tasks.set i .finished } (.error .shutDown) rfl rfl
      refine ⟨[], ?_, .inr ⟨hdone, _, ho, ?_⟩⟩
      · rw [node_settle, List.append_nil]
      · rw [List.append_nil, hpool]
        exact .drops hf (hk.isDown.trans hd)
    · cases hcall
  | breaks hk h =>
    rename_i retry node pool schedule
    obtain ⟨news, between, hheard, hsame, hbetween⟩ := htries h
    obtain ⟨hdone, ho, -⟩ := hsettle
      { c with node, pool, schedule, tasks := c.tasks.set i .finished }
      (.error (Job.read key.call).broken) rfl rfl
    refine ⟨news, ?_, .inr ⟨hdone, _, ho, ?_⟩⟩
    · rw [node_settle]
      exact hheard
    · rw [hsame]
      exact .breaks hbetween
  | answers hk h hj =>
    rename_i retry result node pool schedule
    obtain ⟨news, between, hheard, hsame, hbetween⟩ := htries h
    obtain ⟨hdone, ho, -⟩ := hsettle
      { c with
        node, pool, schedule
        tracker := (c.concludeJob (.read key.call) result).2.tracker
        tasks := c.tasks.set i .finished } (c.concludeJob (.read key.call) result).1 rfl rfl
    refine ⟨news, ?_, .inr ⟨hdone, _, ho, ?_⟩⟩
    · rw [node_settle]
      exact hheard
    · rw [hsame, concludeJob_read]
      exact .answers hbetween (hpolicy ▸ hj)

namespace Transcript

variable {moves : Overheard σ → Overheard σ → Prop} {t t' : Transcript σ φ}
  {condition : Event (Overheard σ) → Prop} {e : Event (Overheard σ)} {key : CacheKey} {i : Nat}
  {p : Id} {policy : Retry.Policy Failure} {remote : Remote σ φ}

/-- Where the task stands that reads a key, and what was heard of it so far. -/
inductive Stands (policy : Retry.Policy Failure) (t : Transcript σ φ) (key : CacheKey) (i : Nat)
    (p : Id) : Prop
  /-- It is at work. -/
  | owes {stage} (hi : t.client.tasks[i]? = some (.job (.read key.call) p stage))
      (hstage : stage ≠ .working)
      (hf : Follows policy key.call (t.heardBy i) (stage.retry policy) stage.phase?.isSome)
  /-- It is done. -/
  | ended {o} (hi : t.client.tasks[i]? = some .finished)
      (ho : t.client.promises.outcome? p = some o)
      (hend : ReadEnds policy key t.client.pool.isDown (t.heardBy i) o)

/-- Until the request is settled its task is at work. -/
lemma Stands.owes_of_none (h : Stands policy t key i p)
    (ho : t.client.promises.outcome? p = none) :
    ∃ stage, t.client.tasks[i]? = some (.job (.read key.call) p stage) ∧ stage ≠ .working ∧
      Follows policy key.call (t.heardBy i) (stage.retry policy) stage.phase?.isSome := by
  cases h with
  | owes hi hstage hf => exact ⟨_, hi, hstage, hf⟩
  | ended _ hsome _ => cases ho.symm.trans hsome

/-- A task that is at work has a turn. -/
lemma Stands.turn {stage : JobStage φ}
    (hi : t.client.tasks[i]? = some (.job (.read key.call) p stage)) (hstage : stage ≠ .working)
    (hf : Follows policy key.call (t.heardBy i) (stage.retry policy) stage.phase?.isSome)
    (howned : t.situation.Owned) (hremote : t.client.remote = remote.overheard)
    (hpolicy : t.client.jobPolicy (.read key.call) = policy) :
    ∃ news,
      (t.situation.after (.job i)).client.node.heard = t.client.node.heard ++ news ∧
        Stands policy (t.after (.job i)) key i p := by
  have hturn : t.client.turn (.task i) = t.client.jobTurn i (.read key.call) p stage := by
    rw [Client.turn, hi]
  have hp := howned.jobs_pending i (.read key.call) p ⟨stage, hi⟩
  obtain ⟨news, hheard, hcase⟩ := (jobTurn_effect t.client i (.read key.call) p stage).reads
    hremote hpolicy hi hp hstage hf
  rw [← hturn] at hheard hcase
  have hby := heardBy_after_job (t := t) (i := i) hheard
  refine ⟨news, hheard, ?_⟩
  obtain ⟨stage', hi', hstage', hf'⟩ | ⟨hi', o, ho, hend⟩ := hcase
  · rw [← hby] at hf'
    exact .owes hi' hstage' hf'
  · rw [← hby] at hend
    exact .ended hi' ho hend

/-- Whatever happens, it is known where the task stands. -/
lemma Stands.after (h : Stands policy t key i p) (howned : t.situation.Owned)
    (hremote : t.client.remote = remote.overheard)
    (hpolicy : t.client.jobPolicy (.read key.call) = policy) :
    Stands policy (t.after e) key i p := by
  have hpersists := howned.persists_after e
  by_cases he : e = .job i
  · subst he
    cases h with
    | owes hi hstage hf =>
      obtain ⟨_, -, hstands⟩ := Stands.turn hi hstage hf howned hremote hpolicy
      exact hstands
    | ended hi ho hend =>
      -- a task that is done does nothing in its turn
      have hsame : (t.situation.after (.job i)).client = t.client := by
        have hturn : t.client.turn (.task i) = t.client := by rw [Client.turn, hi]
        exact hturn
      have hby : (t.after (.job i)).heardBy i = t.heardBy i := by
        rw [heardBy, Transcript.after, news_job_of_eq hsame, List.append_nil, heardBy]
      refine .ended ?_ (hpersists.outcome _ _ ho) ?_
      · exact (congrArg (·.tasks[i]?) hsame).trans hi
      · rw [hby]
        exact hend.mono fun hd => howned.isDown_after hd _
  · have hby := heardBy_after_of_ne (t := t) he
    cases h with
    | owes hi hstage hf =>
      rw [← hby] at hf
      exact .owes (howned.task_after hi he) hstage hf
    | ended hi ho hend =>
      rw [← hby] at hend
      exact .ended (howned.task_after hi he) (hpersists.outcome _ _ ho)
        (hend.mono fun hd => howned.isDown_after hd _)

lemma Stands.of_runs (h : Stands policy t key i p) (howned : t.situation.Owned)
    (hremote : t.client.remote = remote.overheard)
    (hpolicy : t.client.jobPolicy (.read key.call) = policy) (hr : RunsBy condition moves t t') :
    Stands policy t' key i p := by
  induction hr with
  | refl => exact h
  | tail hr hstep ih =>
    obtain ⟨e, -, -, rfl⟩ := hstep
    have hruns := RunsBy.situation hr
    have hremote' := (howned.remote_of_runs hruns).trans hremote
    have hconfig := howned.config_of_runs hruns
    refine ih.after (howned.of_runs hruns) hremote' ?_
    rw [jobPolicy_read] at hpolicy ⊢
    rw [← hpolicy]
    exact congrArg (·.batchFetcher.retry.policy) hconfig

/-! ## What the answers come to -/

/-- A read that goes on: all answers were failures that may pass, and no call more was begun than
they take. -/
structure Tries (retries : Nat) (t : Transcript σ φ) (key : CacheKey) (i : Nat) : Prop where
  passing : ∀ r ∈ t.answers i, Passing r
  le : (t.answers i).length ≤ retries
  calls : t.calls i = List.replicate (t.answers i).length key.call ∨
    t.calls i = List.replicate ((t.answers i).length + 1) key.call

/-- What has become of the request of a key, which a task works on. -/
inductive ReadCourse (retries : Nat) (t : Transcript σ φ) (key : CacheKey) (i : Nat) (p : Id) :
    Prop
  /-- It is under way. -/
  | pending (howes : t.client.Owes i (.read key.call) p)
      (ho : t.client.promises.outcome? p = none) (h : t.Tries retries key i)
  /-- It is settled with an answer that is a value, or a failure to stay. -/
  | answered {before r} (hanswers : t.answers i = before ++ [r])
      (hbefore : ∀ r ∈ before, Passing r) (hle : before.length ≤ retries) (hr : ¬Passing r)
      (hcalls : t.calls i = List.replicate (before.length + 1) key.call)
      (ho : t.client.promises.outcome? p = some r)
  /-- It was given up after as many answers as there may be. -/
  | exhausted {before e} (hanswers : t.answers i = before ++ [.error e])
      (hbefore : ∀ r ∈ before, Passing r) (hlength : before.length = retries)
      (he : e.isTransient = true)
      (hcalls : t.calls i = List.replicate (before.length + 1) key.call)
      (ho : t.client.promises.outcome? p = some (.error (key.unavailable e.message)))
  /-- A call has broken down. -/
  | broken (hbroke : .broke ∈ t.heardBy i) (h : t.Tries retries key i)
      (ho : t.client.promises.outcome? p = some (.error (Job.read key.call).broken))
  /-- It was cut short by a shutdown. -/
  | cutShort (hd : t.client.pool.isDown = true) (h : t.Tries retries key i)
      (ho : t.client.promises.outcome? p = some (.error .shutDown))

lemma passing_of_reaches {config : RetryConfig} {results : List (Outcome Answer)}
    {retry : Retry.State} (h : config.policy.Reaches results retry) : ∀ r ∈ results, Passing r :=
  fun r hr => RetryConfig.transient_of_repeats (h.repeats r hr)

/-- As long as a read goes on there are no more answers than repetitions, and each has its call. -/
lemma length_le_of_follows {config : RetryConfig} {heard : List CallSound} {retry : Retry.State}
    {isOpen : Bool} (h : Follows config.policy key.call heard retry isOpen) :
    heard.length ≤ 2 * config.maxRetries.toNat + 1 := by
  have hle : (CallSound.answers heard).length ≤ config.maxRetries.toNat := h.reaches.le
  have hlength := length_eq_of_sound h.sound
  rw [h.calls, List.length_replicate] at hlength
  have hopen := isOpen.toNat_le
  omega

lemma tries_of_follows {config : RetryConfig} {heard : List CallSound} {retry : Retry.State}
    {isOpen : Bool} (h : Follows config.policy key.call heard retry isOpen)
    (hcalls : t.calls i = CallSound.calls heard)
    (hanswers : t.answers i = CallSound.answers heard) : t.Tries config.maxRetries.toNat key i where
  passing := hanswers ▸ passing_of_reaches h.reaches
  le := hanswers ▸ h.reaches.le
  calls := by
    rw [hcalls, hanswers, h.calls]
    cases isOpen
    · exact .inl rfl
    · exact .inr rfl

/-- A read that ends with an answer. -/
lemma readCourse_of_finish {config : RetryConfig} {heard : List CallSound} {retry : Retry.State}
    {r : Outcome Answer} (hf : Follows config.policy key.call heard retry true)
    (hj : config.policy.judge retry r = .finish r) (hheard : t.heardBy i = heard ++ [.answered r])
    (ho : t.client.promises.outcome? p = some (key.settles r)) :
    t.ReadCourse config.maxRetries.toNat key i p := by
  have hanswers : t.answers i = CallSound.answers heard ++ [r] := by
    rw [Transcript.answers, hheard, answers_append]
    rfl
  have hcalls : t.calls i = List.replicate ((CallSound.answers heard).length + 1) key.call := by
    rw [Transcript.calls, hheard, calls_append, hf.calls]
    exact List.append_nil _
  have hbefore := passing_of_reaches hf.reaches
  have hle : (CallSound.answers heard).length ≤ config.maxRetries.toNat := hf.reaches.le
  by_cases hr : Passing r
  · -- there may be no more answers, or the loop would go on
    obtain ⟨e, rfl, he⟩ := hr
    have hverdict := (hf.reaches.finish hj).2
    rw [Retry.Policy.verdict_concat] at hverdict
    have hlast : ¬(CallSound.answers heard).length + 1 ≤ config.maxRetries.toNat := by
      intro hmore
      rw [if_pos ⟨he, hmore⟩] at hverdict
      cases hverdict
    rw [CacheKey.settles, if_pos he] at ho
    exact .exhausted hanswers hbefore (by omega) he hcalls ho
  · have hsame : key.settles r = r := by
      cases r with
      | ok a => rfl
      | error e => rw [CacheKey.settles, if_neg fun he => hr ⟨e, rfl, he⟩]
    rw [hsame] at ho
    exact .answered hanswers hbefore hle hr hcalls ho

/-- Where the task stands tells what has become of the request. -/
lemma Stands.readCourse {config : RetryConfig} (h : Stands config.policy t key i p)
    (howned : t.situation.Owned) : t.ReadCourse config.maxRetries.toNat key i p := by
  cases h with
  | owes hi hstage hf =>
    have howes : t.client.Owes i (.read key.call) p := ⟨_, hi⟩
    exact .pending howes (howned.jobs_pending i _ p howes).outcome?_eq
      (tries_of_follows hf rfl rfl)
  | ended hi ho hend =>
    generalize hheard : t.heardBy i = heard at hend
    cases hend with
    | answers hf hj => exact readCourse_of_finish hf hj hheard ho
    | @breaks between retry hf =>
      refine .broken ?_ (tries_of_follows hf ?_ ?_) ho
      · rw [hheard]
        exact List.mem_append_right _ (List.mem_singleton_self _)
      · rw [Transcript.calls, hheard, calls_append]
        exact List.append_nil _
      · rw [Transcript.answers, hheard, answers_append]
        exact List.append_nil _
    | drops hf hd =>
      exact .cutShort hd (tries_of_follows hf (by rw [Transcript.calls, hheard])
        (by rw [Transcript.answers, hheard])) ho

/-! ## Further turns -/

/-- Something is heard of a task in its turn, if it gets a slot or has one and is not to wait, and
no call waits further. -/
lemma Stands.heard_lt {stage : JobStage φ}
    (hi : t.client.tasks[i]? = some (.job (.read key.call) p stage)) (hstage : stage ≠ .working)
    (hf : Follows policy key.call (t.heardBy i) (stage.retry policy) stage.phase?.isSome)
    (howned : t.situation.Owned) (hremote : t.client.remote = remote.overheard)
    (hpolicy : t.client.jobPolicy (.read key.call) = policy)
    (hslot : t.heardBy i ≠ [] ∨ (t.client.pool.ask (.task i)).1 = .taken)
    (hup : t.client.pool.isDown = false) (hwake : t.client.isPausing (.task i) = false) :
    (t.heardBy i).length < ((t.after (.job i)).heardBy i).length ∨
      ∃ phase ms phase', stage.phase? = some phase ∧
        (t.client.remote.resume key.call phase t.client.now t.client.node).1 =
          .waits ms phase' := by
  have hturn : t.client.turn (.task i) = t.client.jobTurn i (.read key.call) p stage := by
    rw [Client.turn, hi]
  have hslot' : stage = .waiting → (t.client.pool.ask (.task i)).1 = .taken := by
    rintro rfl
    exact hslot.resolve_left fun hne => hne hf.eq_nil
  have hgoes : JobGoes t.client i (.read key.call) p stage
      (t.client.jobTurn i (.read key.call) p stage) :=
    jobTurn_goes p rfl hstage hslot' hup hwake
  obtain ⟨retry, progress, node, ⟨call, hcall, htries⟩, hnode⟩ := hgoes.tries
  cases hcall
  rw [hremote] at htries
  obtain hlt | ⟨phase, ms, phase', hphase, hwaits⟩ := htries.heard_lt
  · obtain ⟨news, hheard, -⟩ := Stands.turn hi hstage hf howned hremote hpolicy
    have hnode' : (t.situation.after (.job i)).client.node = node := by
      rw [← hnode, ← hturn]
      rfl
    refine .inl ?_
    rw [heardBy_after_job hheard, List.length_append]
    rw [← hnode', hheard, List.length_append] at hlt
    omega
  · refine .inr ⟨phase, ms, phase', hphase, ?_⟩
    rw [hremote]
    exact hwaits

/-! ## What is left of a request that fails -/

/-- A request is made for a key: whoever asks is handed a new promise, and if the pool admits the
request, then there is a new task for it. -/
structure Makes (t : Transcript σ φ) (key : CacheKey) : Prop where
  asked : (t.after (.ask key.ask)).situation.asked =
    (t.client.promises.new.1, key.ask) :: t.situation.asked
  submits : ∀ pool, t.client.pool.enter = .ok pool →
    (t.after (.ask key.ask)).client.tasks =
      t.client.tasks ++ [.job (.read key.call) t.client.promises.new.1 .waiting]

lemma makes_of_misses (h : t.client.Misses key) : t.Makes key where
  asked := by
    have hfst : (t.client.take key.ask).1 = t.client.promises.new.1 := by
      rw [take_of_misses h]
      exact submit_fst ..
    rw [← hfst]
    rfl
  submits _ henter := (take_of_enter h henter).1

/-- Of a request nothing is held after an event, and nothing else was added to what is held. -/
structure Forsakes (p : Id) (t t' : Transcript σ φ) : Prop where
  kept : ∀ key a, t'.client.kept? key = some a → t.client.kept? key = some a
  inFlight : ∀ key q, t'.client.inFlight? key = some q → t.client.inFlight? key = some q ∧ q ≠ p

/-- If it was all that was held of a key, then nothing is held of the key any more. -/
lemma Forsakes.misses (h : Forsakes p t t') (hkept : t.client.kept? key = none)
    (hflight : t.client.inFlight? key = some p) : t'.client.Misses key := by
  refine misses_iff.2 ⟨fun a ha => ?_, fun q hq => ?_⟩
  · cases hkept.symm.trans (h.kept key a ha)
  · obtain ⟨hq, hne⟩ := h.inFlight key q hq
    exact hne (Option.some.inj (hq.symm.trans hflight))

section

variable {config : ClientConfig} {node : Overheard σ}

lemma addressed_of_runs (hr : Runs moves (fresh config remote node) t) : t.client.Addressed :=
  lasting_addressed.of_runs (addressed_ofConfig _ _ _) (RunsBy.situation hr)

lemma attentive_of_runs (hr : Runs moves (fresh config remote node) t) : t.client.Attentive :=
  lasting_attentive.of_runs (attentive_ofConfig _ _ _) (RunsBy.situation hr)

lemma owned_of_runs (hr : Runs moves (fresh config remote node) t) : t.situation.Owned :=
  Situation.owned_of_runs (RunsBy.situation hr)

lemma remote_of_runs (hr : Runs moves (fresh config remote node) t) :
    t.client.remote = remote.overheard :=
  (Situation.owned_fresh ..).remote_of_runs (RunsBy.situation hr)

lemma jobPolicy_of_runs (hr : Runs moves (fresh config remote node) t) (key : CacheKey) :
    t.client.jobPolicy (.read key.call) = config.batchFetcher.retry.policy := by
  rw [jobPolicy_read]
  exact congrArg (·.batchFetcher.retry.policy)
    ((Situation.owned_fresh ..).config_of_runs (RunsBy.situation hr))

lemma RunsBy.runs (h : RunsBy condition moves t t') : Runs moves t t' :=
  ReflTransGen.mono (fun _ _ ⟨e, _, hallowed, he⟩ => ⟨e, trivial, hallowed, he⟩) _ _ h

/-- A request of a key that is not forgotten is in flight until it is settled. -/
lemma inFlight_of_runs (hr : Runs moves (fresh config remote node) t)
    (hkept : t.client.kept? key = none) (hflight : t.client.inFlight? key = some p)
    (hr' : RunsBy (fun e => ¬e.Forgets key) moves t t')
    (ho : t'.client.promises.outcome? p = none) :
    t'.client.kept? key = none ∧ t'.client.inFlight? key = some p := by
  induction hr' with
  | refl => exact ⟨hkept, hflight⟩
  | @tail u _ hr' hstep ih =>
    obtain ⟨e, hforgets, -, rfl⟩ := hstep
    have hru : Runs moves (fresh config remote node) u := hr.trans (RunsBy.runs hr')
    have howned := owned_of_runs hru
    -- it was not settled before, for otherwise it would be so now
    have ho' : u.client.promises.outcome? p = none := by
      cases hbefore : u.client.promises.outcome? p with
      | none => rfl
      | some o => cases ho.symm.trans ((howned.persists_after e).outcome p o hbefore)
    obtain ⟨hkept', hflight'⟩ := ih ho'
    have hripens := howned.ripens_after (addressed_of_runs hru) hforgets
      fun _ hmisses => nomatch hmisses.2.symm.trans hflight'
    refine ⟨Option.eq_none_iff_forall_ne_some.2 fun a ha => ?_, hripens.stays p hflight' ho⟩
    obtain ha | ⟨q, hq, hoq⟩ := hripens.kept a ha
    · cases hkept'.symm.trans ha
    · obtain rfl := Option.some.inj (hq.symm.trans hflight')
      cases ho.symm.trans hoq

/-- Nothing is held of a key until it is asked for. -/
lemma misses_of_runs (hr : Runs moves (fresh config remote node) t) (h : t.client.Misses key)
    (hr' : RunsBy (fun e => e ≠ .ask key.ask) moves t t') : t'.client.Misses key := by
  induction hr' with
  | refl => exact h
  | @tail u _ hr' hstep ih =>
    obtain ⟨e, hask, -, rfl⟩ := hstep
    have hru : Runs moves (fresh config remote node) u := hr.trans (RunsBy.runs hr')
    -- what is forgotten is gone, and nothing ripens of a key of which nothing is held
    by_cases hforgets : e.Forgets key
    · obtain ⟨n, rfl, rfl⟩ := hforgets
      exact misses_forget u.client n
    · have hripens := (owned_of_runs hru).ripens_after (addressed_of_runs hru) hforgets
        fun he => absurd he hask
      refine misses_iff.2 ⟨fun a ha => ?_, fun q hq => ?_⟩
      · obtain ha | ⟨q, hq, -⟩ := hripens.kept a ha
        · cases ih.1.symm.trans ha
        · cases ih.2.symm.trans hq
      · cases ih.2.symm.trans (hripens.inFlight q hq)

/-- An event in which the request of a task fails leaves nothing of it. -/
lemma forsakes_of_error (hr : Runs moves (fresh config remote node) t) {job : Job} {f : Failure}
    (howes : t.client.Owes i job p) (hallowed : e.Allowed moves t.client.node)
    (ho : (t.after e).client.promises.outcome? p = some (.error f)) :
    Forsakes p t (t.after e) := by
  have howned := owned_of_runs hr
  have hp : t.client.promises.Pending p := howned.jobs_pending i job p howes
  have haddressed := addressed_of_runs hr
  have hattentive : (t.after e).client.Attentive :=
    attentive_of_runs (hr.tail ⟨e, trivial, hallowed, rfl⟩)
  -- it is the turn of the task, for otherwise it would still owe the promise
  have he : e = .job i := by
    by_contra hne
    have howes' := howned.owes_after howes hne
    cases ((howned.after e).jobs_pending i job p howes').outcome?_eq.symm.trans ho
  subst he
  obtain ⟨stage, hi⟩ := howes
  have heff := jobTurn_effect t.client i job p stage
  have hturn : (t.after (.job i)).client = t.client.jobTurn i job p stage := by
    rw [Transcript.client, Transcript.after, Situation.after]
    dsimp only
    rw [Client.turn, show t.situation.client.tasks[i]? = _ from hi]
    rfl
  rw [← hturn] at heff
  obtain hstill | ⟨c₀, o, hstill, hc⟩ := heff.settles
  · rw [hstill.promises, hp.outcome?_eq] at ho
    cases ho
  · -- only its own request ends, and it leaves no value behind
    have hleaves : ∀ key, Leaves key t.client c₀ := fun key =>
      leaves_of_eq key hstill.batches hstill.blocks hstill.messageBatches
    have haddressed₀ : c₀.Addressed := lasting_addressed.alike haddressed hstill.alike
    have hout := outcome?_settle (hstill.promises.symm ▸ hp) o
    rw [← hc, ho] at hout
    cases hout
    constructor
    · intro key a ha
      rw [hc] at ha
      refine (hleaves key).kept a ((haddressed₀.kept?_settle ha).resolve_right ?_)
      rintro ⟨-, -, hok⟩
      cases hok
    · intro key q hq
      have hne : q ≠ p := by
        rintro rfl
        cases (hattentive.pending (expects_cached.2 hq)).outcome?_eq.symm.trans ho
      rw [hc] at hq
      have hbefore := (haddressed₀.inFlight?_settle p _ key q).1 hq
      exact ⟨(hleaves key).inFlight ▸ hbefore, hne⟩

/-! ## From the question to the outcome -/

/-- Only tasks are heard. -/
lemma lt_of_mem_heard (hr : Runs moves (fresh config remote node) t) :
    ∀ s ∈ t.heard, s.1 < t.client.tasks.length := by
  induction hr with
  | refl => nofun
  | @tail u _ hr hstep ih =>
    obtain ⟨e, -, -, rfl⟩ := hstep
    have hle : u.client.tasks.length ≤ (u.after e).client.tasks.length :=
      (owned_of_runs hr).length_tasks_le_after e
    intro s hs
    rcases List.mem_append.1 hs with hs | hs
    · exact Nat.lt_of_lt_of_le (ih s hs) hle
    · cases e with
      | job i =>
        refine Nat.lt_of_lt_of_le (Nat.lt_of_not_le fun hge => ?_) hle
        -- a turn that no task has changes nothing
        have hturn : u.client.turn (.task i) = u.client := by
          obtain ⟨s', -, rfl⟩ := List.mem_map.1 hs
          rw [Client.turn, List.getElem?_eq_none hge]
        rw [news_job_of_eq hturn] at hs
        cases hs
      | _ => cases hs

/-- Nothing was heard of a task that is still to come. -/
lemma heardBy_next (hr : Runs moves (fresh config remote node) t) :
    t.heardBy t.client.tasks.length = [] := by
  rw [heardBy, List.map_eq_nil_iff, List.filter_eq_nil_iff]
  intro s hs
  simpa using Nat.ne_of_lt (lt_of_mem_heard hr s hs)

/-- Where the task of a request stands that was just made. -/
lemma stands_of_misses (hr : Runs moves (fresh config remote node) t)
    (hmisses : t.client.Misses key) {pool : Pool TaskId} (henter : t.client.pool.enter = .ok pool)
    (policy : Retry.Policy Failure) :
    Stands policy (t.after (.ask key.ask)) key t.client.tasks.length
      t.client.promises.new.1 := by
  have htasks := (take_of_enter hmisses henter).1
  have hheard : (t.after (.ask key.ask)).heardBy t.client.tasks.length = [] :=
    (heardBy_after_of_ne (e := .ask key.ask) nofun).trans (heardBy_next hr)
  have hi : (t.after (.ask key.ask)).client.tasks[t.client.tasks.length]? =
      some (.job (.read key.call) t.client.promises.new.1 .waiting) :=
    (congrArg (·[t.client.tasks.length]?) htasks).trans List.getElem?_concat_length
  refine .owes hi nofun ?_
  rw [hheard]
  exact follows_nil policy key.call

/-- **What a read comes to.** It is about a request that was made of a key when nothing was held of
it, with the task `i` and the promise `p`. -/
structure ReadDelivery (moves : Overheard σ → Overheard σ → Prop) (retries : Nat)
    (t₀ t : Transcript σ φ) (key : CacheKey) (i : Nat) (p : Id) : Prop where
  /-- It is a new request. -/
  made : t₀.Makes key
  /-- Its answers tell what has become of it. -/
  course : t.ReadCourse retries key i p
  /-- Until it is settled no more is heard of it than its calls and their answers. -/
  bounded : t.client.promises.outcome? p = none → (t.heardBy i).length ≤ 2 * retries + 1
  /-- In each turn it goes on, if it gets a slot or has one, is not to wait, and no call waits
  further. -/
  proceeds : t.client.promises.outcome? p = none → t.client.pool.isDown = false →
    t.client.isPausing (.task i) = false →
    (t.heardBy i ≠ [] ∨ (t.client.pool.ask (.task i)).1 = .taken) →
      (t.heardBy i).length < ((t.after (.job i)).heardBy i).length ∨
        ∃ retry phase ms phase',
          t.client.tasks[i]? = some (.job (.read key.call) p (.calling retry phase)) ∧
          (t.client.remote.resume key.call phase t.client.now t.client.node).1 = .waits ms phase'
  /-- If it fails, nothing is left of it. -/
  forsaken : ∀ e f, e.Allowed moves t.client.node → t.client.promises.outcome? p = none →
    (t.after e).client.promises.outcome? p = some (.error f) → Forsakes p t (t.after e)
  /-- If it fails and the key was not forgotten meanwhile, the next one who asks for the key has a
  new request made. -/
  renewed : ∀ e f, e.Allowed moves t.client.node → t.client.promises.outcome? p = none →
    (t.after e).client.promises.outcome? p = some (.error f) →
    RunsBy (fun e => ¬e.Forgets key) moves (t₀.after (.ask key.ask)) t →
    ∀ t', RunsBy (fun e => e ≠ .ask key.ask) moves (t.after e) t' →
      t'.client.Misses key ∧ t'.Makes key

/-- **What a read comes to.** Let a key be asked for of which nothing is held, and let the pool
admit its request. Whatever happens then, and however often a call may be repeated: the request is
under way, and goes on in the turns of its task; or it is settled, unless a call has broken down or
it was cut short by a shutdown, with the first answer that is a value or a failure to stay, as it
is; or, if all the answers that there may be were failures that may pass, with the failure to read
this key, in the words of the last one. Each answer has its call, and there are no others. If the
request fails, nothing is left of it, and unless the key was forgotten while it was under way the
next one who asks for the key has a new request made. -/
theorem readDelivery_of_runs {t₀ : Transcript σ φ} {pool : Pool TaskId}
    (hr : Runs moves (fresh config remote node) t₀) (hmisses : t₀.client.Misses key)
    (henter : t₀.client.pool.enter = .ok pool)
    (hr' : Runs moves (t₀.after (.ask key.ask)) t) :
    ReadDelivery moves config.batchFetcher.retry.maxRetries.toNat t₀ t key
      t₀.client.tasks.length t₀.client.promises.new.1 := by
  have hasked : Runs moves (fresh config remote node) (t₀.after (.ask key.ask)) :=
    hr.tail ⟨.ask key.ask, trivial, trivial, rfl⟩
  have hrt := hasked.trans hr'
  have howned := owned_of_runs hrt
  have hstands := (stands_of_misses hr hmisses henter _).of_runs (owned_of_runs hasked)
    (remote_of_runs hasked) (jobPolicy_of_runs hasked key) hr'
  have hforsakes : ∀ e f, e.Allowed moves t.client.node →
      t.client.promises.outcome? t₀.client.promises.new.1 = none →
      (t.after e).client.promises.outcome? t₀.client.promises.new.1 = some (.error f) →
        Forsakes t₀.client.promises.new.1 t (t.after e) := by
    intro e f hallowed hnone ho
    obtain ⟨stage, hi, -⟩ := hstands.owes_of_none hnone
    exact forsakes_of_error hrt ⟨stage, hi⟩ hallowed ho
  refine
    { made := makes_of_misses hmisses
      course := hstands.readCourse howned
      bounded := fun hnone => ?_
      proceeds := fun hnone hup hwake hslot => ?_
      forsaken := hforsakes
      renewed := fun e f hallowed hnone ho hkept t' hr'' => ?_ }
  · obtain ⟨stage, -, -, hf⟩ := hstands.owes_of_none hnone
    exact length_le_of_follows hf
  · obtain ⟨stage, hi, hstage, hf⟩ := hstands.owes_of_none hnone
    obtain hlt | ⟨phase, ms, phase', hphase, hwaits⟩ := Stands.heard_lt hi hstage hf howned
      (remote_of_runs hrt) (jobPolicy_of_runs hrt key) hslot hup hwake
    · exact .inl hlt
    · obtain ⟨retry, rfl⟩ := JobStage.eq_calling hphase
      exact .inr ⟨retry, phase, ms, phase', hi, hwaits⟩
  · -- it was in flight until it failed, so that nothing was held of the key but itself
    obtain ⟨-, hkept₀, hflight₀⟩ := take_of_enter hmisses henter
    obtain ⟨hkeptt, hflightt⟩ := inFlight_of_runs hasked hkept₀ hflight₀ hkept hnone
    have hgone := (hforsakes e f hallowed hnone ho).misses hkeptt hflightt
    have hmisses' := misses_of_runs (hrt.tail ⟨e, trivial, hallowed, rfl⟩) hgone hr''
    exact ⟨hmisses', makes_of_misses hmisses'⟩

end

/-! ### A read that is given up -/

/-- A node that takes no connection. -/
def refusing : Overheard ScriptedNode where
  node :=
    { scripts :=
        [(.fetchBatch, [⟨0, .answer (.error (.transport "connection reset"))⟩,
            ⟨0, .answer (.error (.transport "connection refused"))⟩])] }

/-- Its client may repeat a read once, and does so without delay. -/
def unread : Transcript ScriptedNode ScriptedNode.Phase :=
  fresh { batchFetcher := { retry := { maxRetries := 1, baseDelayMs := 0 } } } ScriptedNode.remote
    refusing

/-- A batch is asked for. -/
def wanted : Transcript ScriptedNode ScriptedNode.Phase :=
  unread.after (.ask (CacheKey.batch (.ofNat 0)).ask)

/-- Its task has had a turn. -/
def givenUp : Transcript ScriptedNode ScriptedNode.Phase := wanted.after (.job 0)

/-- What was heard in it. -/
def refusals : List CallSound :=
  [.begun (.fetchBatch (.ofNat 0)), .answered (.error (.transport "connection reset")),
    .begun (.fetchBatch (.ofNat 0)), .answered (.error (.transport "connection refused"))]

/-- Both attempts have ended at once, and there may be no third one. -/
lemma client_givenUp : givenUp.client.node.heard = refusals ∧
    givenUp.client.promises.outcome? ⟨0⟩ =
      some (.error (.batchUnavailable (.ofNat 0) "transport: connection refused")) := by
  have hturn : givenUp.client =
      Client.attemptJob
        ({ wanted.client with pool := (wanted.client.pool.ask (.task 0)).2.2 }.wakeNext none) 0
        (.read (.fetchBatch (.ofNat 0))) ⟨0⟩ unread.client.config.batchFetcher.retry.policy ⟨0, 0⟩
        (.fetchBatch (.ofNat 0)) := rfl
  rw [hturn, attemptJob_of_again (r := .error (.transport "connection reset")) rfl rfl,
    attemptJob_of_finish (r := .error (.transport "connection refused")) rfl rfl]
  exact ⟨rfl, rfl⟩

/-- The read is given up in the words of the second answer. -/
theorem readDelivery_of_runs_givenUp :
    givenUp.calls 0 = [.fetchBatch (.ofNat 0), .fetchBatch (.ofNat 0)] ∧
      givenUp.answers 0 =
        [.error (.transport "connection reset"), .error (.transport "connection refused")] ∧
      givenUp.client.promises.outcome? ⟨0⟩ =
        some (.error (.batchUnavailable (.ofNat 0) "transport: connection refused")) ∧
      ReadDelivery (fun _ _ => False) 1 unread givenUp (.batch (.ofNat 0)) 0 ⟨0⟩ := by
  obtain ⟨hnode, ho⟩ := client_givenUp
  have hheard : givenUp.heardBy 0 = refusals := heardBy_after_job hnode
  have hfresh : Runs (fun _ _ => False)
      (fresh { batchFetcher := { retry := { maxRetries := 1, baseDelayMs := 0 } } }
        ScriptedNode.remote refusing) unread := .refl
  have hmisses : unread.client.Misses (.batch (.ofNat 0)) := ⟨rfl, rfl⟩
  obtain ⟨pool, henter⟩ : ∃ pool, unread.client.pool.enter = .ok pool := ⟨_, rfl⟩
  have hruns : Runs (fun _ _ => False) (unread.after (.ask (CacheKey.batch (.ofNat 0)).ask))
      givenUp := .single ⟨.job 0, trivial, trivial, rfl⟩
  refine ⟨?_, ?_, ho, readDelivery_of_runs hfresh hmisses henter hruns⟩
  · rw [calls, hheard]
    rfl
  · rw [answers, hheard]
    rfl

/-! ### A read that fails after another one -/

/-- A node that has a batch, but does not know of it at first. -/
def hesitant : Overheard ScriptedNode where
  node :=
    { node := (MemoryNode.pushBatch {} .empty ⟨1⟩ 5).2
      scripts := [(.fetchBatch, [⟨20, .answer (.error (.notYetAvailable (.batch (.ofNat 0))))⟩])] }

/-- Its client has done nothing yet. -/
def unasked : Transcript ScriptedNode ScriptedNode.Phase := fresh {} ScriptedNode.remote hesitant

/-- The batch is forgotten while it is called for. It is asked for again, and read at once. -/
def overtaken : Transcript ScriptedNode ScriptedNode.Phase :=
  (unasked.after (.ask (CacheKey.batch (.ofNat 0)).ask)).afterAll
    [.job 0, .order (.forget (.ofNat 0)), .ask (.fetchBatch (.ofNat 0)), .job 1,
      .clock { now := 20 }]

/-- Then the first read fails; but there is the value of the second one, so that no request is made
for the next one who asks. -/
theorem not_makes_of_overtaken :
    ¬∀ (t₀ t : Transcript ScriptedNode ScriptedNode.Phase) (key : CacheKey) (pool : Pool TaskId)
      (e : Event (Overheard ScriptedNode)) (f : Failure),
      Runs (fun _ _ => False) unasked t₀ → t₀.client.Misses key →
      t₀.client.pool.enter = .ok pool →
      Runs (fun _ _ => False) (t₀.after (.ask key.ask)) t →
      e.Allowed (fun _ _ => False) t.client.node →
      t.client.promises.outcome? t₀.client.promises.new.1 = none →
      (t.after e).client.promises.outcome? t₀.client.promises.new.1 = some (.error f) →
        (t.after e).Makes key := by
  intro h
  have hruns : Runs (fun _ _ => False) (unasked.after (.ask (CacheKey.batch (.ofNat 0)).ask))
      overtaken :=
    Situation.reflTransGen_own rfl (fun e h _ => ⟨e, trivial, h _ _, rfl⟩) _
  have hmisses : unasked.client.Misses (.batch (.ofNat 0)) := ⟨rfl, rfl⟩
  obtain ⟨pool, henter⟩ : ∃ pool, unasked.client.pool.enter = .ok pool := ⟨_, rfl⟩
  -- `cbv` looks up with the equations of `List.lookup` in `Mathlib.Computability.Primrec.List`
  have hnone : overtaken.client.promises.outcome? ⟨0⟩ = none := by cbv
  have hfails : (overtaken.after (.job 0)).client.promises.outcome? ⟨0⟩ =
      some (.error (.notYetAvailable (.batch (.ofNat 0)))) := by cbv
  have hmakes := h unasked overtaken (.batch (.ofNat 0)) pool (.job 0) _ .refl hmisses henter
    hruns trivial hnone hfails
  cases henter : (overtaken.after (.job 0)).client.pool.enter with
  | ok pool =>
    have hlength := congrArg List.length (hmakes.submits pool henter)
    have hbefore : (overtaken.after (.job 0)).client.tasks.length = 2 := by cbv
    have hafter : ((overtaken.after (.job 0)).after
        (.ask (CacheKey.batch (.ofNat 0)).ask)).client.tasks.length = 2 := by cbv
    rw [hafter, List.length_append, hbefore] at hlength
    cases hlength
  | error f =>
    have hok : (overtaken.after (.job 0)).client.pool.enter.isOk = true := by cbv
    rw [henter] at hok
    cases hok

end Transcript

end ConsensusLink
