import ConsensusLink.Proofs.Client.Aside
/-!
# Settled once and for all

What is settled stays settled, whatever happens: each party settles only what it owes, and what is
owed is pending. The client keeps a record of the promises that were settled. It grows by those that
the coordinator is done with, in the order in which they were asked for, by that of a job that ends,
and by those that are handed out with their outcome.
-/

namespace ConsensusLink

open Promise Relation Client

variable {σ φ : Type}

namespace Situation

variable {s s' : Situation σ φ} {moves : σ → σ → Prop} {p : Id}

/-! ## What stays -/

/-- No event loses a promise or changes an outcome. -/
theorem Owned.persists_after (h : s.Owned) (e : Event σ) :
    s.client.promises.Persists (s.after e).client.promises := by
  cases e with
  | ask a =>
    have heff := take_effect s.client a
    rw [Situation.after]
    generalize s.client.take a = pc at heff
    obtain ⟨q, c⟩ := pc
    dsimp only at heff ⊢
    cases heff with
    | reuses => exact .refl _
    | answers hp => exact hp.persists
    | submits _ hp => exact hp.persists
    | queues hp => exact hp.persists
  | order o =>
    obtain ⟨_, _, _, _, _, _, _, _, hc, -⟩ := obey_eq s.client o
    rw [Situation.after, hc]
    exact .refl _
  | job i =>
    have heff := turn_effect i h.no_direct
    rw [Situation.after]
    generalize s.client.turn (.task i) = c at heff
    cases heff with
    | stays => exact .refl _
    | @job job q stage _ hi heff =>
      have howes : s.client.Owes i job q := ⟨stage, hi⟩
      have hpend := h.jobs_pending i job q howes
      obtain ⟨_, _, _, _, _, _, _, _, _, _, rfl, -, -, hcase⟩ :=
        heff.outline hpend (h.jobs_read i job q howes)
      obtain ⟨rfl, -⟩ | ⟨-, _, _, -, hset⟩ := hcase
      · exact .refl _
      · refine hset.toSettles.persists fun p hp => ?_
        rw [List.mem_singleton.1 hp]
        exact hpend
    | service hi => exact .refl _
  | advance =>
    obtain ⟨-, -, -, ps, _, hset, hfree⟩ := h.advances_outline h.advances
    exact hset.toSettles.persists fun p hp => (hfree p hp).1
  | clock schedule => exact .refl _
  | node n => exact .refl _

/-- What was asked for is not forgotten. -/
lemma Owned.asked_after (h : s.Owned) (e : Event σ) {d : Id × Ask} (hd : d ∈ s.asked) :
    d ∈ (s.after e).asked := by
  cases e with
  | ask a => exact List.mem_cons_of_mem _ hd
  | advance =>
    obtain ⟨-, hasked, -⟩ := h.advances_outline h.advances
    exact hasked ▸ hd
  | order o => exact hd
  | job i => exact hd
  | clock schedule => exact hd
  | node n => exact hd

/-- What is owed once is owed once along runs. -/
lemma Owned.of_runs (h : s.Owned) (hr : Runs moves s s') : s'.Owned := by
  induction hr with
  | refl => exact h
  | tail _ hstep ih =>
    obtain ⟨e, -, rfl⟩ := hstep
    exact ih.after e

/-- No run loses a promise or changes an outcome. -/
lemma Owned.persists_of_runs (h : s.Owned) (hr : Runs moves s s') :
    s.client.promises.Persists s'.client.promises := by
  induction hr with
  | refl => exact .refl _
  | tail hr hstep ih =>
    obtain ⟨e, -, rfl⟩ := hstep
    exact ih.trans ((h.of_runs hr).persists_after e)

/-- A pool that is down stays so. -/
lemma Owned.isDown_after (h : s.Owned) (hd : s.client.pool.isDown = true) (e : Event σ) :
    (s.after e).client.pool.isDown = true := by
  by_cases he : e = .advance
  · subst he
    exact h.advances.isDown.trans hd
  · exact (h.aside_of_ne he).isDown hd

lemma Owned.isDown_of_runs (h : s.Owned) (hr : Runs moves s s')
    (hd : s.client.pool.isDown = true) : s'.client.pool.isDown = true := by
  induction hr with
  | refl => exact hd
  | tail hr hstep ih =>
    obtain ⟨e, -, rfl⟩ := hstep
    exact (h.of_runs hr).isDown_after ih e

lemma Owned.asked_of_runs (h : s.Owned) (hr : Runs moves s s') {d : Id × Ask}
    (hd : d ∈ s.asked) : d ∈ s'.asked := by
  induction hr with
  | refl => exact hd
  | tail hr hstep ih =>
    obtain ⟨e, -, rfl⟩ := hstep
    exact (h.of_runs hr).asked_after e ih

/-- The coordinator changes neither how calls go nor the configuration. -/
lemma Advances.settings (h : Advances s s') :
    s'.client.remote = s.client.remote ∧ s'.client.config = s.client.config := by
  cases h with
  | attempts _ heff =>
    obtain ⟨_, _, _, _, hclient, -⟩ := heff.client_eq
    rw [client_attempt, hclient]
    exact ⟨rfl, rfl⟩
  | _ => exact ⟨rfl, rfl⟩

lemma Advances.remote (h : Advances s s') : s'.client.remote = s.client.remote := h.settings.1

/-- Nothing changes how calls go. -/
lemma Happens.remote (h : Happens moves s s') : s'.client.remote = s.client.remote := by
  cases h with
  | advances hadv => exact hadv.remote
  | aside ha => exact ha.remote
  | moves ha => exact ha.remote

/-- Nothing changes the configuration. -/
lemma Happens.config (h : Happens moves s s') : s'.client.config = s.client.config := by
  cases h with
  | advances hadv => exact hadv.settings.2
  | aside ha => exact ha.config
  | moves ha => exact ha.config

lemma Owned.remote_of_runs (h : s.Owned) (hr : Runs moves s s') :
    s'.client.remote = s.client.remote := by
  induction hr with
  | refl => rfl
  | tail hr hstep ih => exact ((h.of_runs hr).happens hstep).remote.trans ih

lemma Owned.config_of_runs (h : s.Owned) (hr : Runs moves s s') :
    s'.client.config = s.client.config := by
  induction hr with
  | refl => rfl
  | tail hr hstep ih => exact ((h.of_runs hr).happens hstep).config.trans ih

end Situation

namespace Client

variable {c c' : Client σ φ} {p : Id}

/-- The promises that were settled, in the order in which they were. -/
def settled (c : Client σ φ) : List Id := (c.settlements.map Prod.fst).reverse

lemma settled_of_cons {t : Nat} (h : c'.settlements = (p, t) :: c.settlements) :
    c'.settled = c.settled ++ [p] := by
  rw [settled, h, List.map_cons, List.reverse_cons, settled]

lemma settled_congr (h : c'.settlements = c.settlements) : c'.settled = c.settled := by
  rw [settled, h, settled]

lemma settled_settle (h : c.promises.Pending p) (o : Outcome Answer) :
    (c.settle p o).settled = c.settled ++ [p] := by
  obtain ⟨_, _, _, _, _, hc, -⟩ := settle_eq h o
  exact settled_of_cons (congrArg Client.settlements hc)

lemma outcome?_settle (h : c.promises.Pending p) (o : Outcome Answer) :
    (c.settle p o).promises.outcome? p = some o := by
  obtain ⟨_, _, _, _, _, hc, hset⟩ := settle_eq h o
  exact (congrArg (·.promises.outcome? p) hc).trans (hset.outcome p (List.mem_singleton_self p))

/-! ## The coordinator -/

/-- Requests are rejected in their order. -/
lemma settled_settleRequests (ds : List (SequencerRequest × Id)) (o : Outcome Unit)
    (hp : ∀ d ∈ ds, c.promises.Pending d.2) (hn : (ds.map Prod.snd).Nodup) :
    (ds.foldl (fun c (_, p) => c.settleRequest p o) c).settled =
      c.settled ++ ds.map Prod.snd := by
  induction ds generalizing c with
  | nil => rw [List.map_nil, List.append_nil, List.foldl_nil]
  | cons d ds ih =>
    obtain ⟨r, p⟩ := d
    rw [List.map_cons, List.nodup_cons] at hn
    have hpend : c.promises.Pending p := hp (r, p) List.mem_cons_self
    obtain ⟨_, _, _, _, _, hc, hset⟩ := settle_eq hpend (o.map fun _ => .done)
    have hrest : ∀ d ∈ ds, (c.settleRequest p o).promises.Pending d.2 := by
      intro d hd
      have hne : d.2 ∉ [p] := by
        rw [List.mem_singleton]
        exact snd_ne_of_mem hn.1 hd
      rw [settleRequest, hc]
      exact (hset.pending_of_notMem hne).2 (hp d (List.mem_cons_of_mem _ hd))
    have hfirst : (c.settleRequest p o).settled = c.settled ++ [p] := settled_settle hpend _
    rw [List.foldl_cons, ih hrest hn.2, hfirst, List.map_cons, List.append_assoc,
      List.singleton_append]

lemma settled_stopCoordinator (hp : ∀ d ∈ c.coordinator.queue, c.promises.Pending d.2)
    (hn : (c.coordinator.queue.map Prod.snd).Nodup) :
    c.stopCoordinator.settled = c.settled ++ c.coordinator.queue.map Prod.snd :=
  settled_settleRequests c.coordinator.queue (.error .shutDown)
    (c := { c with
      coordinator := { c.coordinator with queue := [], isClosed := true }
      coordinatorStage := .stopped }) hp hn

lemma settled_abortRequest (stage : AttemptStage φ) (hp : c.promises.Pending p) :
    (c.abortRequest p stage).settled = c.settled ++ [p] := by
  cases stage with
  | waiting deadline =>
    obtain ⟨pool, schedule, h, -⟩ := leavePool_eq (c.dropAlarms .coordinator)
    simp only [abortRequest, h]
    exact settled_settle (c := { c with pool, schedule }) hp _
  | calling phase deadline =>
    obtain ⟨pool, schedule, h, -⟩ := releaseSlot_eq (c.dropAlarms .coordinator)
    simp only [abortRequest, h]
    exact settled_settle (c := { c with pool, schedule }) hp _
  | pausing => exact settled_settle (c := c.dropAlarms .coordinator) hp _

/-! ## Asking -/

/-- Nothing that was handed out before is settled. -/
def Spares (c c' : Client σ φ) : Prop :=
  ∃ ps, c'.settled = c.settled ++ ps ∧ ∀ p ∈ ps, ¬c.promises.Known p ∧ c'.promises.Known p

lemma spares_of_eq (h : c'.settlements = c.settlements) : c.Spares c' :=
  ⟨[], by rw [settled_congr h, List.append_nil], nofun⟩

lemma spares_newSettled (c : Client σ φ) (o : Outcome Answer) : c.Spares (c.newSettled o).2 := by
  refine ⟨[c.promises.new.1], settled_of_cons rfl, fun p hp => ?_⟩
  rw [List.mem_singleton.1 hp]
  exact ⟨Store.not_known_add _, Store.known_of_outcome (Store.outcome?_newSettled o)⟩

lemma spares_submit (c : Client σ φ) (job : Job) : c.Spares (c.submit job).2 := by
  obtain ⟨e, -, hs⟩ | ⟨pool, schedule, -, hs⟩ := submit_eq c job
  · rw [hs]
    exact spares_newSettled c _
  · rw [hs]
    exact spares_of_eq rfl

/-- The same when something is noted of the promise, and what follows on it is registered. -/
lemma Spares.onSettled {c'' : Client σ φ} (h : c.Spares c')
    (hc : c''.settlements = c'.settlements ∧ c''.promises = c'.promises) (p : Id) (f : Follow) :
    c.Spares (c''.onSettled p f) := by
  obtain ⟨ps, hs, hnew⟩ := h
  obtain ⟨_, _, _, _, hf, -⟩ := onSettled_eq c'' p f
  rw [hf]
  refine ⟨ps, (settled_congr hc.1).trans hs, fun q hq => ⟨(hnew q hq).1, ?_⟩⟩
  rw [Store.known_register, hc.2]
  exact (hnew q hq).2

lemma spares_enqueue (c : Client σ φ) (r : SequencerRequest) : c.Spares (c.enqueue r).2 := by
  unfold enqueue
  dsimp only
  split
  · exact spares_newSettled c _
  · rename_i coordinator _
    obtain ⟨schedule, h⟩ :=
      alertCoordinator_eq { c with promises := c.promises.new.2, coordinator }
    rw [h]
    exact spares_of_eq rfl

/-- Whatever is asked, only a promise that is handed out now may be settled. -/
theorem spares_take (c : Client σ φ) (a : Ask) : c.Spares (c.take a).2 := by
  cases a with
  | fetchBatch n =>
    change c.Spares (c.fetchBatch n).2
    unfold fetchBatch
    split
    · rename_i batches _
      exact spares_newSettled { c with batches } _
    · exact spares_of_eq rfl
    · rename_i batches _
      exact (spares_submit { c with batches } _).onSettled ⟨by rfl, by rfl⟩ _ _
  | findBatch m =>
    change c.Spares (c.findBatch m).2
    unfold findBatch
    split
    · rename_i messageBatches _
      exact spares_newSettled { c with messageBatches } _
    · exact spares_of_eq rfl
    · rename_i messageBatches _
      exact (spares_submit { c with messageBatches } _).onSettled ⟨by rfl, by rfl⟩ _ _
  | batchBlock n =>
    change c.Spares (c.batchBlock n).2
    unfold batchBlock
    split
    · rename_i blocks _
      exact spares_newSettled { c with blocks } _
    · exact spares_of_eq rfl
    · rename_i blocks _
      exact (spares_submit { c with blocks } _).onSettled ⟨by rfl, by rfl⟩ _ _
  | progressMap => exact spares_submit c _
  | count k =>
    change c.Spares (c.count k).2
    unfold count
    split
    · exact spares_newSettled c _
    · split
      · exact spares_of_eq rfl
      · have hsubmit := spares_submit { c with tracker := c.tracker.issue.2 }
        exact (hsubmit _).onSettled ⟨by rfl, by rfl⟩ _ _
  | sequence r => exact spares_enqueue c r
  | errand name delay result => exact spares_submit c _

/-! ## Jobs -/

/-- In a turn of a job at most its own promise is settled. -/
lemma JobEffect.settled {i : Nat} {job : Job} {stage : JobStage φ}
    (h : JobEffect c i job p stage c') (hp : c.promises.Pending p) :
    c'.settled = c.settled ∨ c'.settled = c.settled ++ [p] := by
  cases h with
  | stays => exact .inl rfl
  | works => exact .inl rfl
  | waits => exact .inl rfl
  | pauses => exact .inl rfl
  | drops =>
    rename_i o pool schedule _ _
    exact .inr (settled_settle
      (c := { c with pool, schedule, tasks := c.tasks.set i .finished }) hp o)
  | breaks =>
    rename_i retry node pool schedule _ _
    exact .inr (settled_settle
      (c := { c with node, pool, schedule, tasks := c.tasks.set i .finished }) hp _)
  | answers =>
    rename_i retry result node pool schedule _ _ _
    exact .inr (settled_settle
      (c := { c with
        node, pool, schedule
        tracker := (c.concludeJob job result).2.tracker
        tasks := c.tasks.set i .finished }) hp _)

end Client

namespace Situation

variable {s s' : Situation σ φ} {p : Id}

/-! ## Events -/

/-- The request that an event adds to the queue of the coordinator, if it adds one. -/
def admission (s : Situation σ φ) : Event σ → List (SequencerRequest × Id)
  | .ask (.sequence r) =>
    match s.client.coordinator.enqueue r s.client.promises.new.1 with
    | .ok _ => [(r, s.client.promises.new.1)]
    | .error _ => []
  | _ => []

lemma admission_of_ne {e : Event σ} (he : ∀ r, e ≠ .ask (.sequence r)) : s.admission e = [] := by
  unfold admission
  split
  · exact absurd rfl (he _)
  · rfl

/-- What is admitted is admitted upon a request, with a new promise. -/
lemma mem_admission {e : Event σ} {d : SequencerRequest × Id} (hd : d ∈ s.admission e) :
    e = .ask (.sequence d.1) ∧ d.2 = s.client.promises.new.1 ∧ s.admission e = [d] ∧
      ∃ k, s.client.coordinator.enqueue d.1 s.client.promises.new.1 = .ok k := by
  unfold admission at hd ⊢
  split at hd
  · split at hd
    · rename_i r k hk
      obtain rfl := List.mem_singleton.1 hd
      exact ⟨rfl, rfl, rfl, k, hk⟩
    · cases hd
  · cases hd

lemma isClosed_of_enqueue {k k' : Coordinator} {r : SequencerRequest}
    (h : k.enqueue r p = .ok k') : k.isClosed = false := by
  unfold Coordinator.enqueue at h
  split at h
  · cases h
  · rename_i hopen
    exact Bool.eq_false_iff.2 hopen

/-- A request that is taken is added to the queue; nothing is settled. -/
lemma after_sequence_ok {r : SequencerRequest} {k : Coordinator}
    (h : s.client.coordinator.enqueue r s.client.promises.new.1 = .ok k) :
    ∃ schedule, s.after (.ask (.sequence r)) =
      { s with
        client :=
          { s.client with
            promises := s.client.promises.new.2
            schedule
            coordinator :=
              { s.client.coordinator with
                queue := s.client.coordinator.queue ++ [(r, s.client.promises.new.1)] } }
        asked := (s.client.promises.new.1, .sequence r) :: s.asked } := by
  obtain ⟨schedule, hc⟩ :=
    alertCoordinator_eq { s.client with promises := s.client.promises.new.2, coordinator := k }
  refine ⟨schedule, ?_⟩
  rw [after, take, enqueue]
  dsimp only
  split
  · rename_i e he
    cases h.symm.trans he
  · rename_i k' hk
    cases h.symm.trans hk
    rw [hc, enqueue_ok h]

/-- A request that is not taken is answered at once, and nothing else happens. -/
lemma after_sequence_error {r : SequencerRequest} {e : Failure}
    (h : s.client.coordinator.enqueue r s.client.promises.new.1 = .error e) :
    s.after (.ask (.sequence r)) =
      { s with
        client := (s.client.newSettled (.error e)).2
        asked := (s.client.promises.new.1, .sequence r) :: s.asked } := by
  simp only [after, take, enqueue, h]
  rfl

/-- As long as the coordinator does not go ahead, requests join its queue at most, and nobody may be
left to make more. -/
theorem Owned.coordinator_after (h : s.Owned) {e : Event σ} (he : e ≠ .advance) :
    ∃ isAbandoned, (s.after e).client.coordinator =
      { s.client.coordinator with
        queue := s.client.coordinator.queue ++ s.admission e, isAbandoned } := by
  have hnone : ∀ {k : Coordinator}, k = s.client.coordinator →
      ∃ isAbandoned, k =
        { s.client.coordinator with
          queue := s.client.coordinator.queue ++ [], isAbandoned } := by
    rintro _ rfl
    exact ⟨_, by rw [List.append_nil]⟩
  cases e with
  | ask a =>
    by_cases ha : ∃ r, a = .sequence r
    · obtain ⟨r, rfl⟩ := ha
      cases hk : s.client.coordinator.enqueue r s.client.promises.new.1 with
      | ok k =>
        obtain ⟨schedule, hafter⟩ := after_sequence_ok hk
        simp only [hafter, admission, hk]
        exact ⟨_, rfl⟩
      | error e =>
        simp only [after_sequence_error hk, admission, hk]
        exact hnone rfl
    · have heff := take_effect s.client a
      rw [admission_of_ne fun r he => ha ⟨r, Event.ask.inj he⟩, Situation.after]
      generalize s.client.take a = pc at heff
      obtain ⟨q, c⟩ := pc
      dsimp only at heff ⊢
      cases heff with
      | queues => exact absurd ⟨_, rfl⟩ ha
      | _ => exact hnone rfl
  | order o =>
    obtain ⟨_, _, _, _, isAbandoned, _, _, _, hc, -⟩ := obey_eq s.client o
    have hnot : ∀ r, (.order o : Event σ) ≠ .ask (.sequence r) := by rintro r ⟨⟩
    rw [Situation.after, hc]
    exact ⟨isAbandoned, by rw [admission_of_ne hnot, List.append_nil]⟩
  | job i =>
    have heff := turn_effect i h.no_direct
    rw [Situation.after]
    generalize s.client.turn (.task i) = c at heff
    cases heff with
    | stays => exact hnone rfl
    | @job job q stage _ hi heff =>
      have howes : s.client.Owes i job q := ⟨stage, hi⟩
      obtain ⟨_, _, _, _, _, _, _, _, _, _, rfl, -⟩ :=
        heff.outline (h.jobs_pending i job q howes) (h.jobs_read i job q howes)
      exact hnone rfl
    | service => exact hnone rfl
  | advance => exact absurd rfl he
  | clock schedule => exact hnone rfl
  | node n => exact hnone rfl

/-- An event in which the coordinator does not go ahead settles nothing that it was asked for
before, and nothing at all if it adds a request to the queue. -/
lemma Owned.settled_after (h : s.Owned) {e : Event σ} (he : e ≠ .advance) :
    ∃ ps, (s.after e).client.settled = s.client.settled ++ ps ∧
      (∀ q ∈ ps, (∀ r, (q, Ask.sequence r) ∉ s.asked) ∧ (s.after e).client.promises.Known q) ∧
        (s.admission e = [] ∨ ps = []) := by
  have hnone : ∀ {c : Client σ φ}, c.settlements = s.client.settlements →
      ∃ ps, c.settled = s.client.settled ++ ps ∧
        (∀ q ∈ ps, (∀ r, (q, Ask.sequence r) ∉ s.asked) ∧ c.promises.Known q) ∧
          (s.admission e = [] ∨ ps = []) := fun hc =>
    ⟨[], by rw [settled_congr hc, List.append_nil], nofun, .inr rfl⟩
  cases e with
  | ask a =>
    by_cases hadmits : s.admission (.ask a) = []
    · obtain ⟨ps, hs, hnew⟩ := spares_take s.client a
      refine ⟨ps, hs, fun q hq => ⟨fun r hasked => ?_, (hnew q hq).2⟩, .inl hadmits⟩
      exact (hnew q hq).1 (h.asked_known q r hasked)
    · obtain ⟨d, hd⟩ := List.exists_mem_of_ne_nil _ hadmits
      obtain ⟨he, -, -, k, hk⟩ := mem_admission hd
      obtain ⟨_, hafter⟩ := after_sequence_ok hk
      cases he
      rw [hafter]
      exact hnone rfl
  | order o =>
    obtain ⟨_, _, _, _, _, _, _, _, hc, -⟩ := obey_eq s.client o
    rw [Situation.after, hc]
    exact hnone rfl
  | job i =>
    have hknown := (h.persists_after (.job i)).known
    have heff := turn_effect i h.no_direct
    rw [Situation.after] at hknown ⊢
    generalize s.client.turn (.task i) = c at heff hknown
    cases heff with
    | stays => exact hnone rfl
    | @job job q stage _ hi heff =>
      have howes : s.client.Owes i job q := ⟨stage, hi⟩
      have hpend := h.jobs_pending i job q howes
      obtain hs | hs := heff.settled hpend
      · exact ⟨[], by rw [List.append_nil]; exact hs, nofun, .inr rfl⟩
      · refine ⟨[q], hs, fun q' hq' => ?_, .inl rfl⟩
        rw [List.mem_singleton.1 hq']
        exact ⟨fun r => h.jobs_apart i job q r howes, hknown q hpend.known⟩
    | service => exact hnone rfl
  | advance => exact absurd rfl he
  | clock schedule => exact hnone rfl
  | node n => exact hnone rfl

/-- Requests join the end of what is owed. -/
lemma Owned.duties_after (h : s.Owned) {e : Event σ} (he : e ≠ .advance) :
    (s.after e).duties = s.duties ++ s.admission e := by
  obtain ⟨_, hk⟩ := h.coordinator_after he
  have ha := h.aside_of_ne he
  rw [duties, duties, atHand_congr ha.stance ha.stage, hk, List.append_assoc]

/-! ## Steps of the coordinator -/

/-- Aside of the coordinator its duties can only become more. -/
lemma Aside.duties_prefix (h : s.Aside s') : s.duties <+: s'.duties := by
  rw [duties, duties, atHand_congr h.stance h.stage]
  exact (List.prefix_append_right_inj _).2 h.queue

/-- Some of the duties have been ended, the first ones first. -/
def Ends (s s' : Situation σ φ) (ended : List (SequencerRequest × Id)) : Prop :=
  s.duties = ended ++ s'.duties ∧ s'.client.settled = s.client.settled ++ ended.map Prod.snd

lemma ends_nil (hd : s'.duties = s.duties) (hs : s'.client.settled = s.client.settled) :
    s.Ends s' [] := ⟨hd.symm, by rw [hs, List.map_nil, List.append_nil]⟩

/-- At an attempt nothing ends. -/
lemma TakesUp.ends {r : SequencerRequest} {a : Attempts} {start : Option φ}
    {coordinator : Coordinator} {progress : AttemptProgress σ φ}
    (ht : s.TakesUp r p a start coordinator)
    (heff : AttemptEffect { s.client with coordinator } r p a start progress) :
    s.Ends (attempt { s with client := { s.client with coordinator } } r p progress) [] := by
  have hduties := ht.duties_eq
  cases heff with
  | stays => exact ends_nil hduties.symm rfl
  | fails => exact ends_nil hduties.symm rfl
  | waits => exact ends_nil hduties.symm rfl
  | returns => exact ends_nil hduties.symm rfl

/-- Stopping with nothing at hand ends all duties. -/
lemma ends_stopCoordinator (h : s.Owned) (hat : s.atHand = none) :
    s.Ends { s with client := s.client.stopCoordinator, stance := .resting } s.duties := by
  have hduties := duties_of_none hat
  have hp := h.duties_pending
  have hn := h.duties_nodup
  rw [hduties] at hp hn ⊢
  obtain ⟨_, _, _, _, _, _, hc, -⟩ := stopCoordinator_eq hp hn
  refine ⟨?_, settled_stopCoordinator hp hn⟩
  rw [hduties, hc]
  exact (List.append_nil _).symm

/-- Shutting down in the middle of a request ends all duties. -/
lemma ends_abort (h : s.Owned) {r : SequencerRequest} {a : Attempts} {stage : AttemptStage φ}
    (hs : s.stance = .resting) (hc : s.client.coordinatorStage = .busy r p a stage) :
    s.Ends
      { s with
        client := (s.client.abortRequest p stage).stopCoordinator
        stance := .resting } s.duties := by
  have hduties := duties_of_atHand (atHand_busy hs hc)
  have hpend := h.duties_pending
  have hn := h.duties_nodup
  rw [hduties] at hpend hn ⊢
  rw [List.map_cons, List.nodup_cons] at hn
  have hfirst := hpend (r, p) List.mem_cons_self
  obtain ⟨_, _, _, _, _, _, _, _, hab, -, hset⟩ := abortRequest_eq stage hfirst
  have hqueue : (s.client.abortRequest p stage).coordinator = s.client.coordinator := by rw [hab]
  have hwait : ∀ d ∈ (s.client.abortRequest p stage).coordinator.queue,
      (s.client.abortRequest p stage).promises.Pending d.2 := by
    intro d hmem
    rw [hqueue] at hmem
    have hne : d.2 ∉ [p] := by
      rw [List.mem_singleton]
      exact snd_ne_of_mem hn.1 hmem
    rw [hab]
    exact (hset.pending_of_notMem hne).2 (hpend d (List.mem_cons_of_mem _ hmem))
  rw [← hqueue] at hn
  obtain ⟨_, _, _, _, _, _, hst, -⟩ := stopCoordinator_eq hwait hn.2
  constructor
  · rw [hst, hduties]
    exact (List.append_nil _).symm
  · have hsettled := settled_stopCoordinator hwait hn.2
    rw [settled_abortRequest stage hfirst, hqueue, List.append_assoc] at hsettled
    exact hsettled

/-- Concluding a request ends it. -/
lemma ends_conclude (h : s.Owned) {r : SequencerRequest} {a : Attempts} {o : Outcome Unit}
    (hs : s.stance = .judging r p a o) (o' : Outcome Unit) :
    s.Ends (s.conclude r p o') [(r, p)] := by
  have hpend := h.duties_pending (r, p) (duties_judging hs ▸ List.mem_cons_self)
  obtain ⟨_, _, _, _, _, hc, -⟩ := settle_eq
    (c := { s.client with coordinator := s.client.coordinator.finish r o' })
    hpend (o'.map fun _ => .done)
  refine ⟨?_, settled_settle
    (c := { s.client with coordinator := s.client.coordinator.finish r o' }) hpend _⟩
  rw [duties_judging hs, conclude, settleRequest, hc]
  rfl

/-- Answering a request from what is known ends it. -/
lemma ends_answer (h : s.Owned) {r : SequencerRequest} {queue : List (SequencerRequest × Id)}
    {o : Outcome Unit} {coordinator : Coordinator} (hs : s.stance = .taking)
    (hq : s.client.coordinator.queue = (r, p) :: queue)
    (hans : Coordinator.answerLocally { s.client.coordinator with queue } r =
      (some o, coordinator)) :
    s.Ends { s with client := { s.client with coordinator }.settleRequest p o, stance := .taking }
      [(r, p)] := by
  have hduties : s.duties = s.client.coordinator.queue := duties_taking hs
  have hqueue := queue_answerLocally { s.client.coordinator with queue } r
  rw [hans] at hqueue
  have hpend := h.duties_pending (r, p) (hduties ▸ hq ▸ List.mem_cons_self)
  obtain ⟨_, _, _, _, _, hc, -⟩ := settle_eq (c := { s.client with coordinator }) hpend
    (o.map fun _ => .done)
  refine ⟨?_, settled_settle (c := { s.client with coordinator }) hpend _⟩
  rw [settleRequest, hc, hduties, hq]
  exact congrArg _ hqueue.symm

/-- A step of the coordinator ends some of its duties, the first ones first. -/
theorem Owned.ends_advance (h : s.Owned) : ∃ ended, s.Ends s.advance ended := by
  have hstep := s.proceeds
  generalize s.advance = s' at hstep
  cases hstep with
  | rests => exact ⟨[], ends_nil rfl rfl⟩
  | wakes hs hc =>
    refine ⟨[], ends_nil ?_ rfl⟩
    simp only [duties, atHand, hs, hc]
  | resumes hs hc hd => exact ⟨[], TakesUp.ends (.resumes hs hc hd) (resumeAttempt_effect hc)⟩
  | aborts hs hc => exact ⟨_, ends_abort h hs hc⟩
  | concludes hs => exact ⟨_, ends_conclude h hs _⟩
  | repeats hs hj => exact ⟨[], TakesUp.ends (.repeats hs hj) (beginAttempt_effect _ _ _ _)⟩
  | pauses hs => exact ⟨[], ends_nil (duties_judging hs).symm rfl⟩
  | stops hs =>
    exact ⟨_, ends_stopCoordinator h (atHand_taking hs)⟩
  | idles hs => exact ⟨[], ends_nil (duties_taking hs).symm rfl⟩
  | begins hs hd hq hans =>
    exact ⟨[], TakesUp.ends (.begins hs hd hq hans) (beginAttempt_effect _ _ _ _)⟩
  | answers hs _ hq hans => exact ⟨_, ends_answer h hs hq hans⟩

/-- What a step of the coordinator can mean for a request that it has to end. -/
inductive Fate (s s' : Situation σ φ) (d : SequencerRequest × Id) : Prop
  /-- It has still to be ended. -/
  | stays (h : d ∈ s'.duties)
  /-- It is rejected because the pool is down. -/
  | rejected (hd : s.client.pool.isDown = true)
      (ho : s'.client.promises.outcome? d.2 = some (.error .shutDown))
  /-- It ends after its attempts. -/
  | concluded {a : Attempts} {o : Outcome Unit} (hs : s.stance = .judging d.1 d.2 a o)
      (ho : s'.client.promises.outcome? d.2 = some ((a.conclude d.1 o).map fun _ => .done))
  /-- It is answered without the node. -/
  | answered {queue : List (SequencerRequest × Id)} {o : Outcome Unit} {coordinator : Coordinator}
      (hd : s.client.pool.isDown = false)
      (h : Coordinator.answerLocally { s.client.coordinator with queue } d.1 =
        (some o, coordinator))
      (ho : s'.client.promises.outcome? d.2 = some (o.map fun _ => .done))

/-- A request that has to be ended meets one of these fates. -/
theorem Advances.fate (hadv : Advances s s') {d : SequencerRequest × Id} (hd : d ∈ s.duties) :
    s.Fate s' d := by
  cases hadv with
  | idles hat hc hat' =>
    refine .stays ?_
    rewrite [duties, hat']
    rwa [duties, hat] at hd
  | stops hcond hset _ =>
    obtain hdown | hnone := hcond
    · exact .rejected hdown (hset.outcome d.2 (List.mem_map_of_mem hd))
    · rw [hnone] at hd
      cases hd
  | attempts htake heff =>
    obtain ⟨hsame, -⟩ := htake.ends heff
    rw [hsame] at hd
    exact .stays hd
  | pauses hs hj =>
    rw [duties_judging hs] at hd
    exact .stays hd
  | concludes hs hj hset =>
    rw [duties_judging hs] at hd
    rcases List.mem_cons.1 hd with rfl | hd
    · exact .concluded hs (hset.outcome _ (List.mem_singleton_self _))
    · exact .stays hd
  | answers hs hup hq hans hset =>
    rename_i r p queue o coordinator _ _ _ _ _ _
    have hqueue := queue_answerLocally { s.client.coordinator with queue } r
    rw [hans] at hqueue
    rw [duties_taking hs, hq] at hd
    rcases List.mem_cons.1 hd with rfl | hd
    · exact .answered hup hans (hset.outcome _ (List.mem_singleton_self _))
    · have hsame : coordinator.queue = queue := hqueue
      rw [← hsame] at hd
      exact .stays hd

end Situation

end ConsensusLink
