import ConsensusLink.Proofs.Client.Calls
/-!
# What an attempt comes to

An attempt of a write or a probe waits for a slot of the pool and makes one call of the node. It may
end before the call begins, because the pool has no room or no slot comes in time; or while the call
waits, which is then given up; or with what the call returns. Whatever it does, of the client it
changes only the node, the pool, the schedule and the stage of the coordinator.
-/

namespace ConsensusLink

open Promise

variable {σ φ : Type}

/-- What is noted of an attempt once its call proceeds: that it was begun, if it is begun now. -/
def Attempts.called (a : Attempts) : Option φ → Attempts
  | none => { a with sent := true }
  | some _ => a

@[simp] lemma Attempts.retry_called (a : Attempts) (start : Option φ) :
    (a.called start).retry = a.retry := by
  cases start <;> rfl

lemma Attempts.sent_called {a : Attempts} {start : Option φ} (h : start ≠ none → a.sent = true) :
    (a.called start).sent = true := by
  cases start with
  | none => rfl
  | some phase => exact h (by simp)

namespace Client

variable {c : Client σ φ} {r : SequencerRequest} {p : Id} {a : Attempts}

/-- The client after a turn at an attempt. -/
def AttemptProgress.client : AttemptProgress σ φ → Client σ φ
  | .pending c => c
  | .result _ _ c => c

/-- The result of an attempt whose call has come this far when the attempt ends. -/
def attemptResult (r : SequencerRequest) : CallProgress φ → Outcome Unit
  | .waits .. => .error .timeout
  | .breaks => .error (brokenAttempt r)
  | .ends o => o.map fun _ => ()

/-- What a turn at an attempt can come to, if the call of the attempt waits in the phase `start`. -/
inductive AttemptEffect (c : Client σ φ) (r : SequencerRequest) (p : Id) (a : Attempts)
    (start : Option φ) : AttemptProgress σ φ → Prop
  /-- It waits as before. -/
  | stays {stage pool schedule} (hk : c.Keeps pool schedule) (hs : stage.phase? = start) :
      AttemptEffect c r p a start
        (.pending { c with pool, schedule, coordinatorStage := .busy r p a stage })
  /-- It ends and the node is not asked any more. -/
  | fails {e pool schedule} (hk : c.Keeps pool schedule)
      (he : e = .timeout ∨ e = .overloaded ∨ e = .shutDown ∧ c.pool.isDown = true) :
      AttemptEffect c r p a start (.result a (.error e) { c with pool, schedule })
  /-- Its call waits. -/
  | waits {ms phase deadline node pool schedule} (hk : c.Keeps pool schedule)
      (h : c.remote.Goes r.call c.now start c.node (.waits ms phase) node) :
      AttemptEffect c r p a start (.pending
        { c with
          node, pool, schedule
          coordinatorStage := .busy r p (a.called start) (.calling phase deadline) })
  /-- It ends with what its call has come to. -/
  | returns {progress node pool schedule} (hk : c.Keeps pool schedule)
      (h : c.remote.Goes r.call c.now start c.node progress node) :
      AttemptEffect c r p a start
        (.result (a.called start) (attemptResult r progress) { c with node, pool, schedule })

/-- Beyond the node and the slots an attempt changes only what the coordinator is doing. -/
lemma AttemptEffect.client_eq {start : Option φ} {progress : AttemptProgress σ φ}
    (h : AttemptEffect c r p a start progress) :
    ∃ node pool schedule coordinatorStage,
      progress.client = { c with node, pool, schedule, coordinatorStage } ∧
        c.Keeps pool schedule := by
  cases h with
  | stays hk => exact ⟨_, _, _, _, rfl, hk⟩
  | fails hk => exact ⟨_, _, _, _, rfl, hk⟩
  | waits hk => exact ⟨_, _, _, _, rfl, hk⟩
  | returns hk => exact ⟨_, _, _, _, rfl, hk⟩

lemma keepAttempt_eq (c : Client σ φ) (r : SequencerRequest) (p : Id) (a : Attempts)
    (stage : AttemptStage φ) (deadline : Option Nat) {giveUp : Client σ φ → Client σ φ}
    (hg : ∀ c, ∃ pool schedule, giveUp c = { c with pool, schedule } ∧ c.Keeps pool schedule) :
    c.keepAttempt r p a stage deadline giveUp =
        .pending { c with coordinatorStage := .busy r p a stage } ∨
      ∃ pool schedule, c.Keeps pool schedule ∧
        c.keepAttempt r p a stage deadline giveUp =
          .result a (.error .timeout) { c with pool, schedule } := by
  unfold keepAttempt
  split
  · obtain ⟨pool, schedule, h, hk⟩ := hg (c.dropAlarms .coordinator)
    exact .inr ⟨pool, schedule, ⟨hk.isDown, hk.now⟩, by rw [h]; rfl⟩
  · exact .inl rfl

lemma proceedAttempt_effect {start : Option φ} {deadline : Option Nat} {progress : CallProgress φ}
    {node : σ} {pool : Pool TaskId} {schedule : Schedule TaskId} (hk : c.Keeps pool schedule)
    (h : c.remote.Goes r.call c.now start c.node progress node) :
    AttemptEffect c r p a start
      (Client.proceedAttempt { c with node, pool, schedule } r p (a.called start) deadline
        progress) := by
  have hend : ∃ pool' schedule',
      ((Client.dropAlarms { c with node, pool, schedule } .coordinator).releaseSlot) =
        { c with node, pool := pool', schedule := schedule' } ∧ c.Keeps pool' schedule' := by
    obtain ⟨pool', schedule', he, hk'⟩ :=
      releaseSlot_eq (Client.dropAlarms { c with node, pool, schedule } .coordinator)
    exact ⟨pool', schedule', by rw [he]; rfl, hk'.isDown.trans hk.isDown, hk'.now.trans hk.now⟩
  unfold proceedAttempt
  cases progress with
  | ends o =>
    obtain ⟨pool', schedule', he, hk'⟩ := hend
    simp only [he]
    exact .returns hk' h
  | breaks =>
    obtain ⟨pool', schedule', he, hk'⟩ := hend
    simp only [he]
    exact .returns hk' h
  | waits ms phase =>
    dsimp only
    obtain he | ⟨pool', schedule', hk', he⟩ := keepAttempt_eq
      (Client.setAlarm { c with node, pool, schedule } .coordinator .pause ms) r p
      (a.called start) (.calling phase deadline) deadline releaseSlot_eq
    · rw [he]
      exact .waits ⟨hk.isDown, hk.now⟩ h
    · rw [he]
      exact .returns ⟨hk'.isDown.trans hk.isDown, hk'.now.trans hk.now⟩ h

lemma askForSlot_effect {deadline : Option Nat} {pool : Pool TaskId} {schedule : Schedule TaskId}
    (hk : c.Keeps pool schedule) :
    AttemptEffect c r p a none
      (Client.askForSlot { c with pool, schedule } r p a deadline) := by
  obtain ⟨schedule', hw, hn⟩ := wakeNext_eq
    { c with pool := (pool.ask .coordinator).2.2, schedule } (pool.ask .coordinator).2.1
  have hk' : c.Keeps (pool.ask .coordinator).2.2 schedule' :=
    ⟨(isDown_ask _ _).trans hk.isDown, hn.trans hk.now⟩
  unfold askForSlot
  simp only [hw]
  split
  · rename_i hr
    exact .fails ⟨hk'.isDown, hk'.now⟩ (.inr (.inr ⟨rfl, hk.isDown ▸ ask_refused hr⟩))
  · -- it waits for a slot, unless its time is over
    obtain he | ⟨pool'', schedule'', hk'', he⟩ := keepAttempt_eq
      { c with pool := (pool.ask .coordinator).2.2, schedule := schedule' } r p a
      (.waiting deadline) deadline leavePool_eq
    · rw [he]
      exact .stays hk' rfl
    · rw [he]
      exact .fails ⟨hk''.isDown.trans hk'.isDown, hk''.now.trans hk'.now⟩ (.inl rfl)
  · -- it has a slot, and its call begins
    have hgo : c.remote.Goes r.call c.now none c.node (c.remote.begin r.call c.now c.node).1
        (c.remote.begin r.call c.now c.node).2 := .begun rfl
    have hnow : Client.now { c with pool := (pool.ask .coordinator).2.2, schedule := schedule' } =
      c.now := hk'.now
    simp only [beginCall, hnow]
    exact proceedAttempt_effect hk' hgo

/-- Setting one more alarm is no matter. -/
lemma AttemptEffect.setAlarm {start : Option φ} {c' : Client σ φ}
    (h : AttemptEffect c r p a start (.pending c')) (t : TaskId) (slot : AlarmSlot) (ms : Nat) :
    AttemptEffect c r p a start (.pending (c'.setAlarm t slot ms)) := by
  generalize hp : AttemptProgress.pending c' = progress at h
  cases h with
  | stays hk hs =>
    cases hp
    exact .stays ⟨hk.isDown, hk.now⟩ hs
  | waits hk h =>
    cases hp
    exact .waits ⟨hk.isDown, hk.now⟩ h
  | fails => cases hp
  | returns => cases hp

/-- What a new attempt comes to at first. -/
theorem beginAttempt_effect (c : Client σ φ) (r : SequencerRequest) (p : Id) (a : Attempts) :
    AttemptEffect c r p a none (c.beginAttempt r p a) := by
  unfold beginAttempt
  split
  · rename_i e he
    exact .fails (.refl c) (.inr (enter_error he))
  · rename_i pool hpool
    dsimp only
    have h : AttemptEffect c r p a none
        (Client.askForSlot { c with pool } r p a ((c.attemptLimit r).map (c.now + ·))) :=
      askForSlot_effect ⟨isDown_enter hpool, rfl⟩
    split
    · rename_i c' hc
      rw [hc] at h
      split
      · exact h.setAlarm ..
      · exact h
    · exact h

/-- What an attempt comes to that is taken up again. -/
theorem resumeAttempt_effect {stage : AttemptStage φ}
    (hstage : c.coordinatorStage = .busy r p a stage) :
    AttemptEffect c r p a stage.phase? (c.resumeAttempt r p a stage) := by
  unfold resumeAttempt
  split
  · exact askForSlot_effect (.refl c)
  · rename_i phase deadline
    split
    · -- the call waits on, unless its time is over
      obtain he | ⟨pool, schedule, hk, he⟩ := keepAttempt_eq c r p a (.calling phase deadline)
        deadline releaseSlot_eq
      · rw [he]
        exact .stays (.refl c) rfl
      · rw [he]
        exact .fails hk (.inl rfl)
    · exact proceedAttempt_effect (.refl c) (.resumed rfl)
  · split
    · have h : AttemptEffect c r p a none
          (.pending { c with coordinatorStage := .busy r p a .pausing }) := .stays (.refl c) rfl
      rwa [← hstage] at h
    · exact beginAttempt_effect c r p a

end Client

end ConsensusLink
