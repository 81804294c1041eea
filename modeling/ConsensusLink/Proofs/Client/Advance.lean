import ConsensusLink.Proofs.Client.Turns
/-!
# What a step of the coordinator can be

The coordinator owes the promises of the request at hand and of those in its queue. As long as none
of these is settled by somebody else, a step of the coordinator is one of six things: it has nothing
at hand and idles; it stops and rejects all that it owes; it is at an attempt; it ends a request
after its attempts, or pauses before the next one; or it answers a request from what it knows.
`advances` is this case distinction. It says everything that a step can do, so that invariants are
proved by going through the six cases.
-/

namespace ConsensusLink

open Promise Client

variable {σ φ : Type}

namespace Client

variable {c : Client σ φ}

/-! ## Rejecting what is owed -/

/-- Requests that owe different promises: what the first one owes is not owed by another. -/
lemma snd_ne_of_mem {ds : List (SequencerRequest × Id)} {d : SequencerRequest × Id} {p : Id}
    (hp : p ∉ ds.map Prod.snd) (hd : d ∈ ds) : d.2 ≠ p := by
  rintro rfl
  exact hp (List.mem_map_of_mem hd)

/-- Rejecting the promises of some requests, one after the other. -/
lemma settleRequests_eq (ds : List (SequencerRequest × Id)) (o : Outcome Unit)
    (hp : ∀ d ∈ ds, c.promises.Pending d.2) (hn : (ds.map Prod.snd).Nodup) :
    ∃ promises settlements batches blocks messageBatches tracker,
      ds.foldl (fun c (_, p) => c.settleRequest p o) c =
          { c with promises, settlements, batches, blocks, messageBatches, tracker } ∧
        Settling c.books (books { c with promises, messageBatches, tracker }) (ds.map Prod.snd)
          (o.map fun _ => .done) := by
  induction ds generalizing c with
  | nil => exact ⟨_, _, _, _, _, _, rfl, .refl _ _⟩
  | cons d ds ih =>
    obtain ⟨r, p⟩ := d
    rw [List.map_cons, List.nodup_cons] at hn
    obtain ⟨promises, _, _, _, _, hc, hset⟩ :=
      settle_eq (hp (r, p) List.mem_cons_self) (o.map fun _ => .done)
    have hrest : ∀ d ∈ ds, (c.settle p (o.map fun _ => .done)).promises.Pending d.2 := by
      intro d hd
      have hne : d.2 ∉ [p] := by
        rw [List.mem_singleton]
        exact snd_ne_of_mem hn.1 hd
      rw [hc]
      exact (hset.pending_of_notMem hne).2 (hp d (List.mem_cons_of_mem _ hd))
    obtain ⟨promises', settlements, batches, blocks, messageBatches, tracker, hc', hset'⟩ :=
      ih hrest hn.2
    rw [hc] at hset'
    refine ⟨promises', settlements, batches, blocks, messageBatches, tracker, hc'.trans ?_,
      hset.trans hset'⟩
    rw [hc]

/-- Stopping the coordinator rejects all requests that wait. -/
lemma stopCoordinator_eq (hp : ∀ d ∈ c.coordinator.queue, c.promises.Pending d.2)
    (hn : (c.coordinator.queue.map Prod.snd).Nodup) :
    ∃ promises settlements batches blocks messageBatches tracker,
      c.stopCoordinator =
          { c with
            promises, settlements, batches, blocks, messageBatches, tracker
            coordinator := { c.coordinator with queue := [], isClosed := true }
            coordinatorStage := .stopped } ∧
        Settling c.books (books { c with promises, messageBatches, tracker })
          (c.coordinator.queue.map Prod.snd) (.error .shutDown) :=
  settleRequests_eq c.coordinator.queue (.error .shutDown)
    (c := { c with
      coordinator := { c.coordinator with queue := [], isClosed := true }
      coordinatorStage := .stopped }) hp hn

/-- Ending the request at hand because the pool is shut down. -/
lemma abortRequest_eq {p : Id} (stage : AttemptStage φ) (hp : c.promises.Pending p) :
    ∃ promises settlements batches blocks messageBatches tracker pool schedule,
      c.abortRequest p stage =
          { c with
            promises, settlements, batches, blocks, messageBatches, tracker, pool, schedule } ∧
        pool.isDown = c.pool.isDown ∧
        Settling c.books (books { c with promises, messageBatches, tracker }) [p]
          (.error .shutDown) := by
  have hslot : ∃ pool schedule,
      c.abortRequest p stage = Client.settle { c with pool, schedule } p (.error .shutDown) ∧
        pool.isDown = c.pool.isDown := by
    cases stage with
    | waiting deadline =>
      obtain ⟨_, _, h, hk⟩ := leavePool_eq (c.dropAlarms .coordinator)
      exact ⟨_, _, congrArg (fun c => settleRequest c p (.error .shutDown)) h, hk.isDown⟩
    | calling phase deadline =>
      obtain ⟨_, _, h, hk⟩ := releaseSlot_eq (c.dropAlarms .coordinator)
      exact ⟨_, _, congrArg (fun c => settleRequest c p (.error .shutDown)) h, hk.isDown⟩
    | pausing => exact ⟨_, _, rfl, rfl⟩
  obtain ⟨pool, schedule, h, hd⟩ := hslot
  obtain ⟨_, _, _, _, _, hc, hset⟩ :=
    settle_eq (c := { c with pool, schedule }) hp (.error .shutDown)
  exact ⟨_, _, _, _, _, _, pool, schedule, h.trans hc, hd, hset⟩

end Client

namespace Situation

/-! ## What the coordinator owes -/

/-- The request at hand, with its promise. -/
def atHand (s : Situation σ φ) : Option (SequencerRequest × Id) :=
  match s.stance with
  | .judging r p _ _ => some (r, p)
  | .taking => none
  | .resting =>
    match s.client.coordinatorStage with
    | .busy r p _ _ => some (r, p)
    | _ => none

/-- The requests that the coordinator has to end, next one first. -/
def duties (s : Situation σ φ) : List (SequencerRequest × Id) :=
  s.atHand.toList ++ s.client.coordinator.queue

section

variable {s : Situation σ φ} {r : SequencerRequest} {p : Id} {a : Attempts} {o : Outcome Unit}
  {stage : AttemptStage φ}

lemma atHand_judging (hs : s.stance = .judging r p a o) : s.atHand = some (r, p) := by
  rw [atHand, hs]

lemma atHand_taking (hs : s.stance = .taking) : s.atHand = none := by
  rw [atHand, hs]

lemma atHand_busy (hs : s.stance = .resting)
    (hc : s.client.coordinatorStage = .busy r p a stage) : s.atHand = some (r, p) := by
  simp only [atHand, hs, hc]

lemma duties_of_atHand {d : SequencerRequest × Id} (h : s.atHand = some d) :
    s.duties = d :: s.client.coordinator.queue := by
  rw [duties, h]
  rfl

lemma duties_of_none (h : s.atHand = none) : s.duties = s.client.coordinator.queue := by
  rw [duties, h]
  rfl

lemma mem_duties_of_atHand {d : SequencerRequest × Id} (h : s.atHand = some d) :
    d ∈ s.duties :=
  duties_of_atHand h ▸ List.mem_cons_self

lemma duties_judging (hs : s.stance = .judging r p a o) :
    s.duties = (r, p) :: s.client.coordinator.queue :=
  duties_of_atHand (atHand_judging hs)

lemma duties_taking (hs : s.stance = .taking) : s.duties = s.client.coordinator.queue :=
  duties_of_none (atHand_taking hs)

end

/-! ## Steps -/

/-- The coordinator is about to be at an attempt of a request: one that is under way, a further one
after one has ended, or the first one. -/
inductive TakesUp (s : Situation σ φ) (r : SequencerRequest) (p : Id) :
    Attempts → Option φ → Coordinator → Prop
  | resumes {a stage} (hs : s.stance = .resting)
      (hc : s.client.coordinatorStage = .busy r p a stage) (hd : s.client.pool.isDown = false) :
      TakesUp s r p a stage.phase? s.client.coordinator
  | repeats {a o next} (hs : s.stance = .judging r p a o)
      (hj : s.client.writePolicy.judge a.retry o = .again 0 next) :
      TakesUp s r p { a with retry := next } none s.client.coordinator
  | begins {queue coordinator} (hs : s.stance = .taking) (hd : s.client.pool.isDown = false)
      (hq : s.client.coordinator.queue = (r, p) :: queue)
      (h : Coordinator.answerLocally { s.client.coordinator with queue } r = (none, coordinator)) :
      TakesUp s r p ⟨s.client.writePolicy.start, false⟩ none (coordinator.startCalls r)

/-- A step of the coordinator. -/
inductive Advances (s : Situation σ φ) : Situation σ φ → Prop
  /-- It has nothing at hand and does nothing with what it owes. -/
  | idles {coordinatorStage stance} (h : s.atHand = none)
      (hc : coordinatorStage = s.client.coordinatorStage ∨ coordinatorStage = .idle)
      (h' : atHand { s with client := { s.client with coordinatorStage }, stance } = none) :
      Advances s { s with client := { s.client with coordinatorStage }, stance }
  /-- It stops and rejects all that it owes. -/
  | stops {promises settlements batches blocks messageBatches tracker pool schedule}
      (h : s.client.pool.isDown = true ∨ s.duties = [])
      (hset : Settling s.client.books
        (books { s.client with promises, messageBatches, tracker })
        (s.duties.map Prod.snd) (.error .shutDown))
      (hd : pool.isDown = s.client.pool.isDown) :
      Advances s
        { s with
          client :=
            { s.client with
              promises, settlements, batches, blocks, messageBatches, tracker, pool, schedule
              coordinator := { s.client.coordinator with queue := [], isClosed := true }
              coordinatorStage := .stopped }
          stance := .resting }
  /-- It is at an attempt. -/
  | attempts {r p a start coordinator progress} (h : s.TakesUp r p a start coordinator)
      (heff : AttemptEffect { s.client with coordinator } r p a start progress) :
      Advances s (attempt { s with client := { s.client with coordinator } } r p progress)
  /-- It ends a request after its attempts. -/
  | concludes {r p a o promises settlements batches blocks messageBatches tracker}
      (hs : s.stance = .judging r p a o)
      (hj : s.client.writePolicy.judge a.retry o = .finish o)
      (hset : Settling s.client.books
        (books { s.client with promises, messageBatches, tracker }) [p]
        ((a.conclude r o).map fun _ => .done)) :
      Advances s
        { s with
          client :=
            { s.client with
              promises, settlements, batches, blocks, messageBatches, tracker
              coordinator := s.client.coordinator.finish r (a.conclude r o) }
          stance := .taking
          journal := .concluded r p (a.conclude r o) s.client.node :: s.journal }
  /-- It pauses before the next attempt. -/
  | pauses {r p a o delay next schedule} (hs : s.stance = .judging r p a o)
      (hj : s.client.writePolicy.judge a.retry o = .again delay next) :
      Advances s
        { s with
          client :=
            { s.client with
              schedule
              coordinatorStage := .busy r p { a with retry := next } .pausing }
          stance := .resting }
  /-- It answers a request from what it knows. -/
  | answers {r p queue o coordinator promises settlements batches blocks messageBatches tracker}
      (hs : s.stance = .taking) (hd : s.client.pool.isDown = false)
      (hq : s.client.coordinator.queue = (r, p) :: queue)
      (h : Coordinator.answerLocally { s.client.coordinator with queue } r = (some o, coordinator))
      (hset : Settling s.client.books
        (books { s.client with promises, messageBatches, tracker }) [p]
        (o.map fun _ => .done)) :
      Advances s
        { s with
          client :=
            { s.client with
              promises, settlements, batches, blocks, messageBatches, tracker, coordinator }
          stance := .taking }

variable {s s' : Situation σ φ}

/-- The coordinator does not shut the pool down. -/
lemma Advances.isDown (h : Advances s s') : s'.client.pool.isDown = s.client.pool.isDown := by
  cases h with
  | stops _ _ hd => exact hd
  | attempts _ heff =>
    obtain ⟨_, _, _, _, hclient, hk⟩ := heff.client_eq
    rw [client_attempt, hclient]
    exact hk.isDown
  | _ => rfl

/-- Stopping when nothing is at hand. -/
lemma advances_stopCoordinator (hp : ∀ d ∈ s.duties, s.client.promises.Pending d.2)
    (hn : (s.duties.map Prod.snd).Nodup) (hat : s.atHand = none)
    (h : s.client.pool.isDown = true ∨ s.duties = []) :
    Advances s { s with client := s.client.stopCoordinator, stance := .resting } := by
  have hduties := duties_of_none hat
  rw [hduties] at hp hn
  obtain ⟨_, _, _, _, _, _, hc, hset⟩ := stopCoordinator_eq hp hn
  rw [hc]
  exact .stops h (hduties ▸ hset) rfl

/-- The client is shut down in the middle of a request. -/
lemma advances_abort {r : SequencerRequest} {p : Id} {a : Attempts} {stage : AttemptStage φ}
    (hp : ∀ d ∈ s.duties, s.client.promises.Pending d.2) (hn : (s.duties.map Prod.snd).Nodup)
    (hs : s.stance = .resting) (hc : s.client.coordinatorStage = .busy r p a stage)
    (hd : s.client.pool.isDown = true) :
    Advances s
      { s with
        client := (s.client.abortRequest p stage).stopCoordinator
        stance := .resting } := by
  have hduties := duties_of_atHand (atHand_busy hs hc)
  rw [hduties] at hp hn
  rw [List.map_cons, List.nodup_cons] at hn
  obtain ⟨_, _, _, _, _, _, _, _, hab, hdown, hset⟩ :=
    abortRequest_eq stage (hp (r, p) List.mem_cons_self)
  -- the promises of the queue are other ones, and still pending when that of the request is settled
  have hwait : ∀ d ∈ s.client.coordinator.queue,
      (s.client.abortRequest p stage).promises.Pending d.2 := by
    intro d hmem
    have hne : d.2 ∉ [p] := by
      rw [List.mem_singleton]
      exact snd_ne_of_mem hn.1 hmem
    rw [hab]
    exact (hset.pending_of_notMem hne).2 (hp d (List.mem_cons_of_mem _ hmem))
  have hqueue : (s.client.abortRequest p stage).coordinator = s.client.coordinator := by rw [hab]
  rw [← hqueue] at hwait hn
  obtain ⟨_, _, _, _, _, _, hst, hset'⟩ := stopCoordinator_eq hwait hn.2
  rw [hst, hab]
  rw [hab] at hset'
  refine .stops (.inl hd) ?_ hdown
  rw [hduties]
  exact hset.trans hset'

/-- A request ends after its attempts. -/
lemma advances_conclude {r : SequencerRequest} {p : Id} {a : Attempts} {o o' : Outcome Unit}
    (hp : ∀ d ∈ s.duties, s.client.promises.Pending d.2) (hs : s.stance = .judging r p a o)
    (hj : s.client.writePolicy.judge a.retry o = .finish o') :
    Advances s (s.conclude r p (a.conclude r o')) := by
  obtain rfl := judge_finish hj
  have hmem := mem_duties_of_atHand (atHand_judging hs)
  obtain ⟨_, _, _, _, _, hc, hset⟩ := settle_eq
    (c := { s.client with coordinator := s.client.coordinator.finish r (a.conclude r o') })
    (hp (r, p) hmem) ((a.conclude r o').map fun _ => .done)
  rw [conclude, settleRequest, hc]
  exact .concludes hs hj hset

/-- A request is answered from what is known. -/
lemma advances_answer {r : SequencerRequest} {p : Id} {queue : List (SequencerRequest × Id)}
    {o : Outcome Unit} {coordinator : Coordinator}
    (hp : ∀ d ∈ s.duties, s.client.promises.Pending d.2) (hs : s.stance = .taking)
    (hd : s.client.pool.isDown = false) (hq : s.client.coordinator.queue = (r, p) :: queue)
    (h : Coordinator.answerLocally { s.client.coordinator with queue } r = (some o, coordinator)) :
    Advances s
      { s with client := { s.client with coordinator }.settleRequest p o, stance := .taking } := by
  have hmem : (r, p) ∈ s.duties := by
    rw [duties, hq]
    exact List.mem_append_right _ List.mem_cons_self
  obtain ⟨_, _, _, _, _, hc, hset⟩ := settle_eq (c := { s.client with coordinator })
    (hp (r, p) hmem) (o.map fun _ => .done)
  rw [settleRequest, hc]
  exact .answers hs hd hq h hset

/-- Every step of the coordinator is one of the six. -/
theorem advances (hp : ∀ d ∈ s.duties, s.client.promises.Pending d.2)
    (hn : (s.duties.map Prod.snd).Nodup) : Advances s s.advance := by
  have hstep := s.proceeds
  generalize s.advance = s' at hstep
  cases hstep with
  | rests hs hc =>
    have hat : s.atHand = none := by
      obtain hc | hc := hc <;> simp only [atHand, hs, hc]
    exact .idles hat (.inl rfl) hat
  | wakes hs hc =>
    have hat : s.atHand = none := by simp only [atHand, hs, hc]
    have hidles : Advances s { s with client := s.client, stance := .taking } :=
      .idles hat (.inl rfl) rfl
    exact hidles
  | resumes hs hc hd => exact .attempts (.resumes hs hc hd) (resumeAttempt_effect hc)
  | aborts hs hc hd => exact advances_abort hp hn hs hc hd
  | concludes hs hj => exact advances_conclude hp hs hj
  | repeats hs hj => exact .attempts (.repeats hs hj) (beginAttempt_effect _ _ _ _)
  | pauses hs hj => exact .pauses hs hj
  | stops hs h =>
    refine advances_stopCoordinator hp hn (atHand_taking hs) (h.imp_right fun hq => ?_)
    exact (duties_taking hs).trans hq
  | idles hs =>
    exact .idles (atHand_taking hs) (.inr rfl) rfl
  | begins hs hd hq h => exact .attempts (.begins hs hd hq h) (beginAttempt_effect _ _ _ _)
  | answers hs hd hq h => exact advances_answer hp hs hd hq h

end Situation

end ConsensusLink
