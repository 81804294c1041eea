import ConsensusLink.Proofs.Client.Attempts
import ConsensusLink.Proofs.Client.Situation
/-!
# Turns are runs

What the coordinator does in one step is one of few operations on the client; `proceeds` lists them.
It does in one turn what it does in a situation step by step. Hence whatever a client does in time,
turn by turn and alarm by alarm, is one of its runs, in which nothing is asked or ordered of it, and
what holds along all such runs holds of it.
-/

namespace ConsensusLink

open Promise Relation Client

namespace Event

variable {σ : Type}

/-- Whether the client itself does something in an event. Otherwise the node changes by itself. -/
def isOwn : Event σ → Bool
  | node _ => false
  | _ => true

/-- What the client itself does may happen to every node. -/
lemma allowed_of_isOwn {e : Event σ} (h : e.isOwn = true) (moves : σ → σ → Prop) (n : σ) :
    e.Allowed moves n := by
  cases e with
  | node => cases h
  | _ => trivial

/-- What is asked of every turn of a task is asked of the turn of this one only. -/
lemma forall_eq_job {i : Nat} {P : Nat → Prop} (h : P i) (j : Nat)
    (hj : (job i : Event σ) = job j) : P j := by
  cases hj
  exact h

end Event

namespace Situation

variable {σ φ : Type} {moves : σ → σ → Prop} {s s' : Situation σ φ}

lemma runs_after {e : Event σ} (h : e.Allowed moves s.client.node) :
    Runs moves s (s.after e) := .single ⟨e, h, rfl⟩

/-- Steps that can be made in every state follow each other in any order. -/
lemma reflTransGen_foldl {S E : Type} {step : S → S → Prop} {after : S → E → S} {es : List E}
    (h : ∀ e ∈ es, ∀ s, step s (after s e)) (s : S) :
    ReflTransGen step s (es.foldl after s) := by
  induction es generalizing s with
  | nil => exact .refl
  | cons e es ih =>
    have hrest := ih (fun e he => h e (List.mem_cons_of_mem _ he)) (after s e)
    exact .head (h e List.mem_cons_self s) hrest

/-- Own events make a run of whatever is written down along with a situation, if each of them is a
step of it. -/
lemma reflTransGen_own {S : Type} {step : S → S → Prop} {after : S → Event σ → S}
    {es : List (Event σ)} (hown : es.all Event.isOwn = true)
    (h : ∀ e : Event σ, (∀ moves n, e.Allowed moves n) → ∀ s, step s (after s e)) (s : S) :
    ReflTransGen step s (es.foldl after s) :=
  reflTransGen_foldl (fun e he => h e (Event.allowed_of_isOwn (List.all_eq_true.1 hown e he))) s

/-- Events in which the node does not change by itself make a run. -/
lemma runs_afterAll {es : List (Event σ)} (hown : es.all Event.isOwn = true)
    (s : Situation σ φ) : Runs moves s (s.afterAll es) :=
  reflTransGen_own hown (fun e h _ => ⟨e, h _ _, rfl⟩) s

/-! ## The steps of the coordinator -/

@[simp] lemma client_attempt (s : Situation σ φ) (r : SequencerRequest) (p : Id)
    (progress : AttemptProgress σ φ) : (s.attempt r p progress).client = progress.client := by
  cases progress <;> rfl

@[simp] lemma asked_attempt (s : Situation σ φ) (r : SequencerRequest) (p : Id)
    (progress : AttemptProgress σ φ) : (s.attempt r p progress).asked = s.asked := by
  cases progress <;> rfl

/-- What the coordinator does in one step, operation by operation. -/
inductive Proceeds (s : Situation σ φ) : Situation σ φ → Prop
  /-- It is not at work. -/
  | rests (hs : s.stance = .resting)
      (hc : s.client.coordinatorStage = .held ∨ s.client.coordinatorStage = .stopped) :
      Proceeds s s
  /-- Its turn begins. -/
  | wakes (hs : s.stance = .resting) (hc : s.client.coordinatorStage = .idle) :
      Proceeds s { s with stance := .taking }
  /-- It goes on with an attempt. -/
  | resumes {r p a stage} (hs : s.stance = .resting)
      (hc : s.client.coordinatorStage = .busy r p a stage) (hd : s.client.pool.isDown = false) :
      Proceeds s (s.attempt r p (s.client.resumeAttempt r p a stage))
  /-- It is cut short. -/
  | aborts {r p a stage} (hs : s.stance = .resting)
      (hc : s.client.coordinatorStage = .busy r p a stage) (hd : s.client.pool.isDown = true) :
      Proceeds s
        { s with
          client := (s.client.abortRequest p stage).stopCoordinator
          stance := .resting }
  /-- It ends a request after its attempts. -/
  | concludes {r p a o o'} (hs : s.stance = .judging r p a o)
      (hj : s.client.writePolicy.judge a.retry o = .finish o') :
      Proceeds s (s.conclude r p (a.conclude r o'))
  /-- It makes the next attempt at once. -/
  | repeats {r p a o next} (hs : s.stance = .judging r p a o)
      (hj : s.client.writePolicy.judge a.retry o = .again 0 next) :
      Proceeds s (s.attempt r p (s.client.beginAttempt r p { a with retry := next }))
  /-- It pauses before the next attempt. -/
  | pauses {r p a o delay next} (hs : s.stance = .judging r p a o)
      (hj : s.client.writePolicy.judge a.retry o = .again delay next) (hd : delay ≠ 0) :
      Proceeds s
        { s with
          client :=
            { s.client with
              coordinatorStage := .busy r p { a with retry := next } .pausing }.setAlarm
              .coordinator .pause delay.toNat
          stance := .resting }
  /-- It stops before it takes up a request. -/
  | stops (hs : s.stance = .taking)
      (h : s.client.pool.isDown = true ∨ s.client.coordinator.queue = []) :
      Proceeds s { s with client := s.client.stopCoordinator, stance := .resting }
  /-- Nobody waits. -/
  | idles (hs : s.stance = .taking) (hd : s.client.pool.isDown = false)
      (hq : s.client.coordinator.queue = []) :
      Proceeds s
        { s with client := { s.client with coordinatorStage := .idle }, stance := .resting }
  /-- It begins with the attempts of a request. -/
  | begins {r p queue coordinator} (hs : s.stance = .taking) (hd : s.client.pool.isDown = false)
      (hq : s.client.coordinator.queue = (r, p) :: queue)
      (h : Coordinator.answerLocally { s.client.coordinator with queue } r = (none, coordinator)) :
      Proceeds s
        ({ s with client := { s.client with coordinator := coordinator.startCalls r } }.attempt r p
          (Client.beginAttempt { s.client with coordinator := coordinator.startCalls r } r p
            ⟨s.client.writePolicy.start, false⟩))
  /-- It answers a request from what it knows. -/
  | answers {r p queue o coordinator} (hs : s.stance = .taking)
      (hd : s.client.pool.isDown = false) (hq : s.client.coordinator.queue = (r, p) :: queue)
      (h : Coordinator.answerLocally { s.client.coordinator with queue } r =
        (some o, coordinator)) :
      Proceeds s
        { s with client := { s.client with coordinator }.settleRequest p o, stance := .taking }

variable {r : SequencerRequest} {p : Id} {a : Attempts} {o o' : Outcome Unit} {delay : UInt64}
  {next : Retry.State}

lemma advance_busy {stage : AttemptStage φ} (hs : s.stance = .resting)
    (hc : s.client.coordinatorStage = .busy r p a stage) (hd : s.client.pool.isDown = false) :
    s.advance = s.attempt r p (s.client.resumeAttempt r p a stage) := by
  rw [advance, hs]
  simp only [hc, hd, Bool.false_eq_true, if_false]

lemma advance_finish (hs : s.stance = .judging r p a o)
    (hj : s.client.writePolicy.judge a.retry o = .finish o') :
    s.advance = s.conclude r p (a.conclude r o') := by
  rw [advance, hs]
  simp only [hj]

lemma advance_again (hs : s.stance = .judging r p a o)
    (hj : s.client.writePolicy.judge a.retry o = .again 0 next) :
    s.advance = s.attempt r p (s.client.beginAttempt r p { a with retry := next }) := by
  rw [advance, hs]
  simp only [hj, if_true]

lemma advance_pause (hs : s.stance = .judging r p a o)
    (hj : s.client.writePolicy.judge a.retry o = .again delay next) (hd : delay ≠ 0) :
    s.advance =
      { s with
        client :=
          { s.client with coordinatorStage := .busy r p { a with retry := next } .pausing }.setAlarm
            .coordinator .pause delay.toNat
        stance := .resting } := by
  rw [advance, hs]
  simp only [hj, if_neg hd]

lemma advance_taking (hs : s.stance = .taking) (hd : s.client.pool.isDown = false) :
    s.advance = s.takeUp := by
  rw [advance, hs]
  simp only [hd, Bool.false_eq_true, if_false]

variable {queue : List (SequencerRequest × Id)} {coordinator : Coordinator}

lemma takeUp_answered (hq : s.client.coordinator.queue = (r, p) :: queue)
    (h : Coordinator.answerLocally { s.client.coordinator with queue } r = (some o, coordinator)) :
    s.takeUp =
      { s with client := { s.client with coordinator }.settleRequest p o, stance := .taking } := by
  rw [takeUp, hq]
  simp only [h]

/-- The attempts of a request begin with the client in which its calls are noted. -/
lemma takeUp_asked (hq : s.client.coordinator.queue = (r, p) :: queue)
    (h : Coordinator.answerLocally { s.client.coordinator with queue } r = (none, coordinator)) :
    s.takeUp =
      { s with client := { s.client with coordinator := coordinator.startCalls r } }.attempt r p
        (Client.beginAttempt { s.client with coordinator := coordinator.startCalls r } r p
          ⟨s.client.writePolicy.start, false⟩) := by
  rw [takeUp, hq]
  simp only [h]
  rfl

lemma proceeds_takeUp (hs : s.stance = .taking) (hd : s.client.pool.isDown = false) :
    s.Proceeds s.takeUp := by
  rcases hq : s.client.coordinator.queue with _ | ⟨⟨r, p⟩, queue⟩
  · rw [takeUp, hq]
    dsimp only
    split
    · exact .stops hs (.inr hq)
    · exact .idles hs hd hq
  · rcases hans : Coordinator.answerLocally { s.client.coordinator with queue } r with
      ⟨_ | o, coordinator⟩
    · rw [takeUp_asked hq hans]
      exact .begins hs hd hq hans
    · rw [takeUp_answered hq hans]
      exact .answers hs hd hq hans

/-- Every step is one of these. -/
theorem proceeds (s : Situation σ φ) : s.Proceeds s.advance := by
  have hrests : s.stance = .resting →
      s.client.coordinatorStage = .held ∨ s.client.coordinatorStage = .stopped →
      s.Proceeds s.advance := by
    intro hs hc
    have hsame : s.advance = s := by
      rw [advance, hs]
      obtain hc | hc := hc <;> simp only [hc]
    rw [hsame]
    exact .rests hs hc
  rcases hs : s.stance with _ | ⟨r, p, a, o⟩ | _
  · rcases hc : s.client.coordinatorStage with _ | _ | ⟨r, p, a, stage⟩ | _
    · exact hrests hs (.inl hc)
    · have hadv : s.advance = { s with stance := .taking } := by
        rw [advance, hs]
        simp only [hc]
      rw [hadv]
      exact .wakes hs hc
    · cases hd : s.client.pool.isDown with
      | false =>
        rw [advance_busy hs hc hd]
        exact .resumes hs hc hd
      | true =>
        have hadv : s.advance =
            { s with
              client := (s.client.abortRequest p stage).stopCoordinator
              stance := .resting } := by
          rw [advance, hs]
          simp only [hc, hd, if_true]
        rw [hadv]
        exact .aborts hs hc hd
    · exact hrests hs (.inr hc)
  · cases hj : s.client.writePolicy.judge a.retry o with
    | finish o' =>
      rw [advance_finish hs hj]
      exact .concludes hs hj
    | again delay next =>
      by_cases hd : delay = 0
      · subst hd
        rw [advance_again hs hj]
        exact .repeats hs hj
      · rw [advance_pause hs hj hd]
        exact .pauses hs hj hd
  · cases hd : s.client.pool.isDown with
    | false =>
      rw [advance_taking hs hd]
      exact proceeds_takeUp hs hd
    | true =>
      have hadv : s.advance =
          { s with client := s.client.stopCoordinator, stance := .resting } := by
        rw [advance, hs]
        simp only [hd, if_true]
      rw [hadv]
      exact .stops hs (.inl hd)

/-! ## Turns of the coordinator -/

/-- An event that needs nobody but the client: a task or the coordinator goes on, or time passes. -/
inductive Own : Event σ → Prop
  | job (i : Nat) : Own (.job i)
  | advance : Own .advance
  | clock (schedule : Schedule TaskId) : Own (.clock schedule)

/-- A run in which the client works by itself: nothing is asked or ordered of it. -/
def Works : Situation σ φ → Situation σ φ → Prop :=
  ReflTransGen fun s s' => ∃ e : Event σ, Own e ∧ s' = s.after e

lemma works_after {e : Event σ} (h : Own e) : Works s (s.after e) := .single ⟨e, h, rfl⟩

lemma works_advance (s : Situation σ φ) : Works s s.advance := works_after .advance

/-- Whatever the node may do meanwhile. -/
lemma Works.runs (h : Works s s') : Runs moves s s' := by
  refine ReflTransGen.mono ?_ _ _ h
  rintro s _ ⟨e, he, rfl⟩
  refine ⟨e, ?_, rfl⟩
  cases he <;> trivial

/-- A situation in which the coordinator rests, whatever the journal says. -/
def Rests (s : Situation σ φ) (c : Client σ φ) : Prop :=
  ∃ journal, Works s { s with client := c, stance := .resting, journal }

/-- A situation in which the coordinator is about to take up a request of a queue. The pool was not
taken down on the way. -/
def Takes (s : Situation σ φ) (queue : List (SequencerRequest × Id))
    (c : Client σ φ) : Prop :=
  (∃ journal, Works s { s with client := c, stance := .taking, journal }) ∧
    c.pool.isDown = s.client.pool.isDown ∧ c.coordinator.queue = queue

/-- What the coordinator comes to with a request is where the situation runs to. The queue is what
is left when the request is done. -/
def Reaches (s : Situation σ φ) (queue : List (SequencerRequest × Id)) :
    RequestProgress σ φ → Prop
  | .pending c => s.Rests c
  | .done c => s.Takes queue c

/-- Running on from a later situation in which the same was asked. -/
lemma Reaches.of_runs {progress : RequestProgress σ φ} (hr : Works s s')
    (hasked : s'.asked = s.asked) (hdown : s'.client.pool.isDown = s.client.pool.isDown)
    (h : s'.Reaches queue progress) : s.Reaches queue progress := by
  cases progress with
  | pending c =>
    obtain ⟨journal, hj⟩ := h
    rw [hasked] at hj
    exact ⟨journal, hr.trans hj⟩
  | done c =>
    obtain ⟨⟨journal, hj⟩, hd, hq⟩ := h
    rw [hasked] at hj
    exact ⟨⟨journal, hr.trans hj⟩, hd.trans hdown, hq⟩

/-- A request from the end of one of its attempts on. The induction is on the attempts that are
left. -/
lemma reaches_proceedRequest {start : Option φ}
    {progress : AttemptProgress σ φ} (h : AttemptEffect s.client r p a start progress) :
    (s.attempt r p progress).Reaches s.client.coordinator.queue
      (proceedRequest s.client.writePolicy r p a progress) := by
  induction hn : s.client.writePolicy.maxRetries.toNat - a.retry.retries.toNat
    using Nat.strongRecOn generalizing s a start progress with
  | _ n ih =>
  rw [proceedRequest.eq_def]
  cases progress with
  | pending c => exact ⟨_, .refl⟩
  | result a' o c =>
    obtain ⟨_, _, _, _, hc, hk⟩ := h.client_eq
    have hpolicy : c.writePolicy = s.client.writePolicy := by
      rw [show c = _ from hc]
      rfl
    have hqueue : c.coordinator.queue = s.client.coordinator.queue := by rw [show c = _ from hc]
    have hretry : a'.retry = a.retry := by
      cases h with
      | fails => rfl
      | returns => exact Attempts.retry_called a start
    let s₁ := s.attempt r p (.result a' o c)
    have hs₁ : s₁.stance = .judging r p a' o := rfl
    have hadv := works_advance s₁
    rw [← hpolicy, ← hretry]
    dsimp only
    split
    · rename_i o' hj
      rw [advance_finish hs₁ hj] at hadv
      obtain ⟨_, _, _, _, _, _, hs⟩ := settle_frame
        { c with coordinator := c.coordinator.finish r (a'.conclude r o') } p
        ((a'.conclude r o').map fun _ => .done)
      refine ⟨⟨_, hadv⟩, ?_, ?_⟩
      · rw [settleRequest, hs]
        rfl
      · rw [settleRequest, hs, ← hqueue]
        rfl
    · rename_i delay next hj
      have hlt := Retry.Policy.retries_of_judge hj
      split
      · -- the next attempt begins at once
        rename_i hd
        subst hd
        rw [advance_again hs₁ hj] at hadv
        have heff := beginAttempt_effect s₁.client r p { a' with retry := next }
        have hless : c.writePolicy.maxRetries.toNat - next.retries.toNat < n := by
          rw [← hn, ← hpolicy, ← hretry]
          omega
        have hnext := ih _ hless (s := s₁) heff rfl
        obtain ⟨_, _, _, _, hc', hk'⟩ := heff.client_eq
        rw [show s₁.client.coordinator.queue = _ from hqueue] at hnext
        refine hnext.of_runs hadv (asked_attempt ..) ?_
        rw [client_attempt, hc']
        exact hk'.isDown
      · rename_i hd
        rw [advance_pause hs₁ hj hd] at hadv
        exact ⟨_, hadv⟩

lemma queue_answerLocally (c : Coordinator) (r : SequencerRequest) :
    (c.answerLocally r).2.queue = c.queue := by
  cases r with
  | probe => rfl
  | write pos msg =>
    rw [Coordinator.answerLocally]
    split <;> rfl

lemma queue_startCalls (c : Coordinator) (r : SequencerRequest) :
    (c.startCalls r).queue = c.queue := by
  cases r <;> rfl

/-- A request that is taken up, from the queue on. -/
lemma reaches_beginRequest (hs : s.stance = .taking)
    (hd : s.client.pool.isDown = false) (hq : s.client.coordinator.queue = (r, p) :: queue) :
    s.Reaches queue
      (beginRequest { s.client with coordinator := { s.client.coordinator with queue } } r p) := by
  have hadv := works_advance s
  rw [advance_taking hs hd] at hadv
  have hqueue := queue_answerLocally { s.client.coordinator with queue } r
  rcases hans : Coordinator.answerLocally { s.client.coordinator with queue } r with
    ⟨_ | o, coordinator⟩
  · rw [hans] at hqueue
    rw [takeUp_asked hq hans] at hadv
    let s₀ : Situation σ φ :=
      { s with client := { s.client with coordinator := coordinator.startCalls r } }
    have heff := beginAttempt_effect s₀.client r p ⟨s₀.client.writePolicy.start, false⟩
    obtain ⟨_, _, _, _, hc, hk⟩ := heff.client_eq
    have hreach := reaches_proceedRequest (s := s₀) heff
    rw [show s₀.client.coordinator.queue = queue from
      (queue_startCalls coordinator r).trans hqueue] at hreach
    simp only [beginRequest, hans]
    refine hreach.of_runs hadv (asked_attempt ..) ?_
    rw [client_attempt]
    exact (congrArg (·.pool.isDown) hc).trans hk.isDown
  · rw [hans] at hqueue
    rw [takeUp_answered hq hans] at hadv
    obtain ⟨_, _, _, _, _, _, hset⟩ := settle_frame { s.client with coordinator } p
      (o.map fun _ => .done)
    simp only [beginRequest, hans]
    refine ⟨⟨_, hadv⟩, ?_, ?_⟩
    · rw [settleRequest, hset]
    · rw [settleRequest, hset]
      exact hqueue

/-- Requests are taken up until one stays under way or none is left. -/
lemma rests_serve {fuel : Nat} (hs : s.stance = .taking)
    (hd : s.client.pool.isDown = false) (hf : s.client.coordinator.queue.length < fuel) :
    s.Rests (serve fuel s.client) := by
  induction fuel generalizing s with
  | zero => omega
  | succ fuel ih =>
    rcases hq : s.client.coordinator.queue with _ | ⟨⟨r, p⟩, queue⟩
    · have hadv := works_advance s
      rw [advance_taking hs hd, takeUp, hq] at hadv
      rw [serve, hq]
      exact ⟨_, hadv⟩
    · rw [hq, List.length_cons] at hf
      rw [serve, hq]
      have hreach := reaches_beginRequest hs hd hq
      dsimp only
      split
      · rename_i c hp
        rw [hp] at hreach
        exact hreach
      · -- the rest is served from the situation in which this request is done
        rename_i c hp
        rw [hp] at hreach
        obtain ⟨⟨journal, hr⟩, hdown, hqueue⟩ := hreach
        rw [← hqueue] at hf
        obtain ⟨journal', hr'⟩ := ih (s := { s with client := c, stance := .taking, journal }) rfl
          (hdown.trans hd) (Nat.lt_of_succ_lt_succ hf)
        exact ⟨journal', hr.trans hr'⟩

/-- A turn of the coordinator is such a run. -/
theorem rests_coordinatorTurn (hs : s.stance = .resting) :
    s.Rests s.client.coordinatorTurn := by
  have hadv := works_advance s
  have hsame : s = { s with client := s.client, stance := .resting, journal := s.journal } := by
    rw [← hs]
  -- requests are taken up when nobody is under way, or when the one at hand is done
  have hserve : ∀ {c : Client σ φ} {journal},
      Works s { s with client := c, stance := .taking, journal } →
      c.pool.isDown = false → s.Rests c.serveAll := by
    intro c journal hr hdown
    obtain ⟨journal', hr'⟩ := rests_serve
      (s := { s with client := c, stance := .taking, journal }) rfl hdown (Nat.lt_succ_self _)
    exact ⟨journal', hr.trans hr'⟩
  unfold coordinatorTurn
  split
  · exact ⟨s.journal, hsame ▸ .refl⟩
  · exact ⟨s.journal, hsame ▸ .refl⟩
  · rename_i hstage
    have hidle : s.advance = { s with stance := .taking } := by
      rw [advance, hs]
      simp only [hstage]
    rw [hidle] at hadv
    split
    · rename_i hd
      have hadv' := works_advance { s with stance := .taking }
      simp only [advance, hd, if_true] at hadv'
      exact ⟨_, hadv.trans hadv'⟩
    · rename_i hd
      exact hserve hadv (Bool.eq_false_iff.2 hd)
  · rename_i r p a stage hstage
    split
    · rename_i hd
      rw [advance, hs] at hadv
      simp only [hstage, hd, if_true] at hadv
      exact ⟨_, hadv⟩
    · rename_i hd
      have hup := Bool.eq_false_iff.2 hd
      rw [advance_busy hs hstage hup] at hadv
      have heff := resumeAttempt_effect hstage
      obtain ⟨_, _, _, _, hc, hk⟩ := heff.client_eq
      have hreach := (reaches_proceedRequest heff).of_runs hadv (asked_attempt ..) (by
        rw [client_attempt, hc]
        exact hk.isDown)
      split
      · rename_i c hp
        rw [hp] at hreach
        exact hreach
      · rename_i c hp
        rw [hp] at hreach
        obtain ⟨⟨journal, hr⟩, hdown, -⟩ := hreach
        exact hserve hr (hdown.trans hup)

/-! ## A client in time -/

lemma Rests.trans {c c' : Client σ φ} (h : s.Rests c)
    (h' : ∀ journal,
      Rests { s with client := c, stance := .resting, journal } c') :
    s.Rests c' := by
  obtain ⟨journal, hr⟩ := h
  obtain ⟨journal', hr'⟩ := h' journal
  exact ⟨journal', hr.trans hr'⟩

lemma rests_after {e : Event σ} (hs : s.stance = .resting) (he : Own e)
    (h : (s.after e).stance = s.stance ∧ (s.after e).asked = s.asked) :
    s.Rests (s.after e).client := by
  have hr := works_after (s := s) he
  refine ⟨(s.after e).journal, ?_⟩
  rwa [← hs, ← h.1, ← h.2]

lemma rests_refl (hs : s.stance = .resting) : s.Rests s.client :=
  ⟨s.journal, by rw [← hs]; exact .refl⟩

theorem rests_turn (hs : s.stance = .resting) (t : TaskId) :
    s.Rests (s.client.turn t) := by
  cases t with
  | coordinator => exact rests_coordinatorTurn hs
  | task i => exact rests_after (e := .job i) hs (.job i) ⟨rfl, rfl⟩

/-- A task that is ready is taken out of the line and has its turn. -/
lemma rests_takeReady_turn (hs : s.stance = .resting) (t : TaskId) :
    s.Rests ((s.client.takeReady t).turn t) := by
  refine (rests_after (e := .clock (s.client.takeReady t).schedule) hs (.clock _)
    ⟨rfl, rfl⟩).trans ?_
  intro journal
  exact rests_turn rfl t

theorem rests_drainWithin (hs : s.stance = .resting) (fuel : Nat) :
    s.Rests (drainWithin fuel s.client) := by
  induction fuel generalizing s with
  | zero => exact rests_refl hs
  | succ fuel ih =>
    rw [drainWithin]
    split
    · exact rests_refl hs
    · rename_i t _
      refine (rests_takeReady_turn hs t).trans ?_
      intro journal
      exact ih rfl

theorem rests_moveTo (hs : s.stance = .resting) (time : Nat) :
    s.Rests (s.client.moveTo time) := by
  have hclock : s.Rests _ := rests_after
    (e := .clock (s.client.schedule.moveTo time)) hs (.clock _) ⟨rfl, rfl⟩
  unfold Client.moveTo
  dsimp only
  split
  · split
    · refine hclock.trans ?_
      intro journal
      exact rests_takeReady_turn rfl _
    · exact hclock
  · exact hclock

/-- Letting time pass is a run, however long it takes and whatever it stops at. -/
theorem rests_passWithin (hs : s.stance = .resting) (fuel : Nat) (stop : Client σ φ → Bool)
    (time : Option Nat) : s.Rests (Timed.passWithin fuel stop time s.client) := by
  induction fuel generalizing s with
  | zero => exact rests_refl hs
  | succ fuel ih =>
    unfold Timed.passWithin
    refine (rests_drainWithin hs s.client.turnsLeft).trans ?_
    intro journal
    dsimp only
    split
    · exact rests_refl rfl
    · split
      · rename_i next _ _
        split
        · refine (rests_moveTo rfl next).trans ?_
          intro journal'
          exact ih rfl
        · exact rests_moveTo rfl _
      · rename_i next _
        refine (rests_moveTo rfl next).trans ?_
        intro journal'
        exact ih rfl
      · exact rests_moveTo rfl _
      · exact rests_refl rfl

end Situation

end ConsensusLink
