import ConsensusLink.Proofs.Client.Calls
import ConsensusLink.Proofs.Client.Situation
/-!
# What comes of asking and ordering

Whatever is asked of a client, it hands out one promise: one that it had handed out before, or a new
one that is settled, or that a new job owes, or that the coordinator owes. Nothing else changes but
caches, counts and slots, and no outcome that was known before. Orders change one part of the client
each, and settle nothing.
-/

namespace ConsensusLink

open Promise

variable {σ φ : Type}

/-- Whether a call leaves the log and the lease alone. -/
def Call.isRead : Call → Bool
  | .write .. | .probe => false
  | _ => true

/-- Whether all calls of a job are reads. -/
def Job.Reads (job : Job) : Prop := ∀ call, job.call? = some call → call.isRead = true

namespace Client

variable {c : Client σ φ} {p : Id}

/-- Only the caches are looked at. -/
def Looks (c c' : Client σ φ) : Prop :=
  ∃ batches blocks messageBatches, c' = { c with batches, blocks, messageBatches } ∧
    c.messageBatches.Adds messageBatches fun _ _ => False

/-- What comes of asking a client for something. The promise `p` is handed out. Only who asks for a
count changes what is known of the counts, and has a query made; the cache of message batches
watches only who asks for one, and gets no entry yet. -/
inductive AskEffect (c : Client σ φ) (p : Id) : Ask → Client σ φ → Prop
  /-- The promise had been handed out before. -/
  | reuses {a batches blocks messageBatches} (ha : ∀ r, a ≠ .sequence r)
      (hadds : c.messageBatches.Adds messageBatches fun _ _ => False) :
      AskEffect c p a { c with batches, blocks, messageBatches }
  /-- The promise is new and settled already. -/
  | answers {a o promises settlements batches blocks messageBatches tracker}
      (h : c.promises.HandsOut promises p) (ho : promises.outcome? p = some o)
      (hseq : ∀ r, a = .sequence r → o = .error .shutDown ∨ o = .error .overloaded)
      (ht : (∀ k, a ≠ .count k) → tracker = c.tracker)
      (hadds : c.messageBatches.Adds messageBatches fun _ _ => False)
      (hfinality : tracker.finality = c.tracker.finality) :
      AskEffect c p a
        { c with promises, settlements, batches, blocks, messageBatches, tracker }
  /-- The promise is new and a new job owes it. -/
  | submits {a job promises batches blocks messageBatches tracker pool schedule}
      (ha : ∀ r, a ≠ .sequence r) (h : c.promises.HandsOut promises p) (hp : promises.Pending p)
      (hjob : job.Reads) (hdown : pool.isDown = c.pool.isDown)
      (ht : (∀ k, a ≠ .count k) → tracker = c.tracker ∧ (∀ k t, job ≠ .query k t) ∧
        ∀ k q, .counted k q ∉ promises.continuations p)
      (hadds : c.messageBatches.Adds messageBatches fun _ _ => False)
      (hfinality : tracker.finality = c.tracker.finality)
      (hcached : ∀ m q, .cached (.messageBatch m) q ∈ promises.continuations p →
        job = .read (.findBatch m)) :
      AskEffect c p a
        { c with
          promises, batches, blocks, messageBatches, tracker, pool, schedule
          tasks := c.tasks ++ [.job job p .waiting] }
  /-- The promise is new and the coordinator owes it. -/
  | queues {r promises schedule} (h : c.promises.HandsOut promises p) (hp : promises.Pending p)
      (hwatch : promises.continuations p = []) :
      AskEffect c p (.sequence r)
        { c with
          promises, schedule
          coordinator := { c.coordinator with queue := c.coordinator.queue ++ [(r, p)] } }

lemma newSettled_effect {a : Ask} {c₀ : Client σ φ} (h₀ : c.Looks c₀) (o : Outcome Answer)
    (hseq : ∀ r, a = .sequence r → o = .error .shutDown ∨ o = .error .overloaded) :
    AskEffect c (c₀.newSettled o).1 a (c₀.newSettled o).2 := by
  obtain ⟨_, _, _, rfl, hadds⟩ := h₀
  exact .answers (Store.handsOut_add _) (Store.outcome?_newSettled o) hseq (fun _ => rfl) hadds rfl

lemma looks_refl (c : Client σ φ) : c.Looks c := ⟨_, _, _, rfl, .refl _ _⟩

/-- Asking for what is not known yet: a job is submitted, and its promise is watched by a cache. The
caches may be looked at before, and note the promise before it is watched. -/
lemma submit_effect {a : Ask} {call : Call} {key : CacheKey} {c₀ c₁ : Client σ φ}
    (ha : ∀ r, a ≠ .sequence r) (hcall : call.isRead = true)
    (hkey : ∀ m, key = .messageBatch m → call = .findBatch m) (h₀ : c.Looks c₀)
    (h₁ : (c₀.submit (.read call)).2.Looks c₁) :
    AskEffect c (c₀.submit (.read call)).1 a
      (c₁.onSettled (c₀.submit (.read call)).1 (.cached key (c₀.submit (.read call)).1)) := by
  obtain ⟨_, _, _, tracker, hwatch, ht, hadds⟩ := onSettled_eq c₁ (c₀.submit (.read call)).1
    (.cached key (c₀.submit (.read call)).1)
  rw [hwatch, ht nofun]
  obtain ⟨_, _, _, rfl, hadds₁⟩ := h₁
  obtain ⟨e, he, hs⟩ | ⟨pool, schedule, hdown, hs⟩ := submit_eq c₀ (.read call)
  · rw [hs] at hadds hadds₁ ⊢
    obtain ⟨_, _, _, rfl, hadds₀⟩ := h₀
    have houtcome : ∀ a, (c.newSettled (.error e)).2.promises.outcome? (c.newSettled (.error e)).1 ≠
        some (.ok a) := by
      intro a ho
      cases (Store.outcome?_newSettled (.error e)).symm.trans ho
    refine .answers (o := .error e) ((Store.handsOut_add _).register _) ?_
      (fun r hr => absurd hr (ha r)) (fun _ => rfl) ?_ rfl
    · rw [Store.outcome?_register]
      exact Store.outcome?_newSettled _
    · refine ((hadds₀.trans hadds₁).trans hadds).mono ?_
      rintro m a ((h | h) | h)
      · exact h
      · exact h
      · exact houtcome a h
  · rw [hs] at hadds hadds₁ ⊢
    obtain ⟨_, _, _, rfl, hadds₀⟩ := h₀
    refine .submits ha ((Store.handsOut_add _).register _) (Store.pending_new.register _ _)
      (by rintro _ ⟨⟩; exact hcall) hdown (fun _ => ⟨rfl, nofun, ?_⟩) ?_ rfl ?_
    · intro k q hmem
      rw [Store.continuations_register Store.cell?_new] at hmem
      rcases List.mem_singleton.1 hmem with ⟨⟩
    · refine ((hadds₀.trans hadds₁).trans hadds).mono ?_
      rintro m a ((h | h) | h)
      · exact h
      · exact h
      · cases Store.pending_new.outcome?_eq.symm.trans h
    · intro m q hmem
      rw [Store.continuations_register Store.cell?_new] at hmem
      obtain ⟨rfl, -⟩ := Follow.cached.inj (List.mem_singleton.1 hmem)
      rw [hkey m rfl]

lemma fetchBatch_effect (c : Client σ φ) (n : BatchNumber) :
    AskEffect c (c.fetchBatch n).1 (.fetchBatch n) (c.fetchBatch n).2 := by
  have hlooks : ∀ batches, c.Looks { c with batches } := fun _ => ⟨_, _, _, rfl, .refl _ _⟩
  unfold fetchBatch
  split
  · exact newSettled_effect (hlooks _) _ (by simp)
  · exact .reuses (by simp) (.refl _ _)
  · exact submit_effect (by simp) rfl (by simp) (hlooks _) ⟨_, _, _, rfl, .refl _ _⟩

lemma findBatch_effect (c : Client σ φ) (m : MessageIndex) :
    AskEffect c (c.findBatch m).1 (.findBatch m) (c.findBatch m).2 := by
  have hadds : c.messageBatches.Adds (c.messageBatches.lookup m).2 fun _ _ => False :=
    c.messageBatches.adds_lookup m
  unfold findBatch
  split
  · rename_i hl
    rw [hl] at hadds
    exact newSettled_effect ⟨_, _, _, rfl, hadds⟩ _ (by simp)
  · rename_i hl
    rw [hl] at hadds
    exact .reuses (by simp) hadds
  · rename_i hl
    rw [hl] at hadds
    exact submit_effect (by simp) rfl (by simp) ⟨_, _, _, rfl, hadds⟩
      ⟨_, _, _, rfl, CacheTable.adds_begin _ _ _⟩

lemma batchBlock_effect (c : Client σ φ) (n : BatchNumber) :
    AskEffect c (c.batchBlock n).1 (.batchBlock n) (c.batchBlock n).2 := by
  have hlooks : ∀ blocks, c.Looks { c with blocks } := fun _ => ⟨_, _, _, rfl, .refl _ _⟩
  unfold batchBlock
  split
  · exact newSettled_effect (hlooks _) _ (by simp)
  · exact .reuses (by simp) (.refl _ _)
  · exact submit_effect (by simp) rfl (by simp) (hlooks _) ⟨_, _, _, rfl, .refl _ _⟩

/-- What comes of asking for a count. -/
inductive CountEffect (c : Client σ φ) (k : Counter) (p : Id) : Client σ φ → Prop
  /-- It is served from what was observed. -/
  | serves {value promises settlements} (h : c.promises.HandsOut promises p)
      (ho : promises.outcome? p = some (.ok (.count value)))
      (hvalue : c.tracker.observations.cached? k c.now c.config.sync.countTtlMs.toNat =
        some value) :
      CountEffect c k p { c with promises, settlements }
  /-- Its query is under way. -/
  | joins (h : c.tracker.pending? k = some p) : CountEffect c k p c
  /-- A query is issued, but not admitted to the pool. -/
  | refuses {e promises settlements tracker} (h : c.promises.HandsOut promises p)
      (ho : promises.outcome? p = some (.error e)) (he : e = .overloaded ∨ e = .shutDown)
      (hobs : tracker.observations = c.tracker.observations.issue.2)
      (hfinality : tracker.finality = c.tracker.finality)
      (hunderWay : ∀ k', tracker.pending? k' = c.tracker.pending? k') :
      CountEffect c k p { c with promises, settlements, tracker }
  /-- A query is issued and submitted. -/
  | queries {promises tracker pool schedule} (h : c.promises.HandsOut promises p)
      (hp : promises.Pending p) (hwatch : promises.continuations p = [.counted k p])
      (hfree : c.tracker.pending? k = none)
      (hobs : tracker.observations = c.tracker.observations.issue.2)
      (hfinality : tracker.finality = c.tracker.finality)
      (hself : tracker.pending? k = some p)
      (hothers : ∀ k', k' ≠ k → tracker.pending? k' = c.tracker.pending? k')
      (hdown : pool.isDown = c.pool.isDown) :
      CountEffect c k p
        { c with
          promises, tracker, pool, schedule
          tasks := c.tasks ++ [.job (.query k c.tracker.observations.issue.1) p .waiting] }

theorem count_effect (c : Client σ φ) (k : Counter) :
    CountEffect c k (c.count k).1 (c.count k).2 := by
  unfold count
  split
  · rename_i value hvalue
    exact .serves (Store.handsOut_add _) (Store.outcome?_newSettled _) hvalue
  · split
    · rename_i p hp
      exact .joins hp
    · rename_i hfree
      dsimp only
      obtain ⟨e, he, hs⟩ | ⟨pool, schedule, hdown, hs⟩ := submit_eq
        { c with tracker := c.tracker.issue.2 } (.query k c.tracker.issue.1)
      · rw [hs, onSettled_of_outcome (Store.outcome?_newSettled _)]
        have hclear := frees_clearPending
          (c.tracker.issue.2.setPending k (c.newSettled (.error e)).1) k
          (c.newSettled (.error e)).1
        refine .refuses (Store.handsOut_add _) (Store.outcome?_newSettled _) he
          hclear.observations hclear.finality fun k' => ?_
        exact pending?_clearPending_setPending (t := c.tracker.issue.2) hfree _ k'
      · rw [hs, onSettled_of_pending Store.pending_new]
        refine .queries ((Store.handsOut_add _).register _) (Store.pending_new.register _ _) ?_
          hfree rfl rfl (PerCounter.get_set_self _ _ _)
          (fun k' hk => PerCounter.get_set_of_ne hk _ _) hdown
        rw [Store.continuations_register Store.cell?_new]
        rfl

/-- Asking for a count, as far as others are concerned. -/
lemma CountEffect.ask {k : Counter} {c' : Client σ φ} (h : CountEffect c k p c') :
    AskEffect c p (.count k) c' := by
  have hcount : ∀ {P : Prop}, (∀ k', Ask.count k ≠ .count k') → P := fun hk => absurd rfl (hk k)
  have hadds : c.messageBatches.Adds c.messageBatches fun _ _ => False := .refl _ _
  cases h with
  | serves h ho => exact .answers h ho (by simp) hcount hadds rfl
  | joins h => exact .reuses (by simp) hadds
  | refuses h ho _ _ hfinality => exact .answers h ho (by simp) hcount hadds hfinality
  | queries h hp hwatch _ _ hfinality _ _ hdown =>
    refine .submits (by simp) h hp (by rintro call ⟨⟩; rfl) hdown hcount hadds hfinality ?_
    simp [hwatch]

/-- Asking for a job that nobody watches. -/
lemma submit_alone_effect (c : Client σ φ) {a : Ask} {job : Job} (ha : ∀ r, a ≠ .sequence r)
    (hjob : job.Reads) (hquery : ∀ k t, job ≠ .query k t) :
    AskEffect c (c.submit job).1 a (c.submit job).2 := by
  obtain ⟨e, he, hs⟩ | ⟨pool, schedule, hdown, hs⟩ := submit_eq c job
  · rw [hs]
    exact newSettled_effect (looks_refl c) _ fun r hr => absurd hr (ha r)
  · have hnone : c.promises.new.2.continuations c.promises.new.1 = [] := by
      rw [Store.continuations, Store.cell?_new]
    rw [hs]
    refine .submits ha (Store.handsOut_add _) Store.pending_new hjob hdown
      (fun _ => ⟨rfl, hquery, ?_⟩) (.refl _ _) rfl ?_ <;> simp [hnone]

lemma enqueue_error {k : Coordinator} {r : SequencerRequest} {e : Failure}
    (h : k.enqueue r p = .error e) : e = .shutDown ∨ e = .overloaded := by
  unfold Coordinator.enqueue at h
  split at h
  · cases h
    exact .inl rfl
  · split at h
    · cases h
      exact .inr rfl
    · cases h

lemma enqueue_ok {k k' : Coordinator} {r : SequencerRequest} (h : k.enqueue r p = .ok k') :
    k' = { k with queue := k.queue ++ [(r, p)] } := by
  unfold Coordinator.enqueue at h
  split at h
  · cases h
  · split at h <;> cases h
    rfl

lemma alertCoordinator_eq (c : Client σ φ) :
    ∃ schedule, c.alertCoordinator = { c with schedule } := by
  unfold alertCoordinator
  split <;> exact ⟨_, rfl⟩

lemma enqueue_effect (c : Client σ φ) (r : SequencerRequest) :
    AskEffect c (c.enqueue r).1 (.sequence r) (c.enqueue r).2 := by
  unfold enqueue
  dsimp only
  split
  · rename_i e he
    refine newSettled_effect (looks_refl c) _ fun r' _ => ?_
    rcases enqueue_error he with rfl | rfl
    · exact .inl rfl
    · exact .inr rfl
  · rename_i k hk
    obtain ⟨schedule, h⟩ :=
      alertCoordinator_eq { c with promises := c.promises.new.2, coordinator := k }
    rw [h, enqueue_ok hk]
    refine .queues (Store.handsOut_add _) Store.pending_new ?_
    rw [Store.continuations, Store.cell?_new]

/-- What comes of asking for anything. -/
theorem take_effect (c : Client σ φ) (a : Ask) : AskEffect c (c.take a).1 a (c.take a).2 := by
  cases a with
  | fetchBatch n => exact fetchBatch_effect c n
  | findBatch m => exact findBatch_effect c m
  | batchBlock n => exact batchBlock_effect c n
  | progressMap => exact submit_alone_effect c (by simp) (by rintro call ⟨⟩; rfl) nofun
  | count k => exact (count_effect c k).ask
  | sequence r => exact enqueue_effect c r
  | errand name delay result => exact submit_alone_effect c (by simp) (by rintro call ⟨⟩) nofun

/-- What comes of an order. -/
theorem obey_eq (c : Client σ φ) (o : Order) :
    ∃ batches manualFinality tracker coordinatorStage isAbandoned services pool schedule,
      c.obey o =
          { c with
            batches, manualFinality, tracker, coordinatorStage, pool, schedule
            coordinator := { c.coordinator with isAbandoned }
            tasks := c.tasks ++ services } ∧
        (coordinatorStage = c.coordinatorStage ∨
          c.coordinatorStage = .held ∧ coordinatorStage = .idle) ∧
        (services = [] ∨ services = [.service]) ∧
        (c.pool.isDown = true → pool.isDown = true) ∧
        (o ≠ .newSession → tracker = c.tracker) ∧
        (tracker.finality = c.tracker.finality ∨ tracker.finality = none) ∧
        (manualFinality = c.manualFinality ∨ o = .mark manualFinality) := by
  cases o with
  | forget n =>
    exact ⟨_, _, _, _, _, [], _, _, by rw [List.append_nil]; rfl, .inl rfl, .inl rfl, id,
      fun _ => rfl, .inl rfl, .inl rfl⟩
  | mark finality =>
    exact ⟨_, _, _, _, _, [], _, _, by rw [List.append_nil]; rfl, .inl rfl, .inl rfl, id,
      fun _ => rfl, .inl rfl, .inr rfl⟩
  | newSession =>
    exact ⟨_, _, _, _, _, [], _, _, by rw [List.append_nil]; rfl, .inl rfl, .inl rfl, id,
      fun h => absurd rfl h, .inr rfl, .inl rfl⟩
  | start =>
    simp only [obey, startCoordinator]
    split
    · rename_i hheld
      exact ⟨_, _, _, _, _, [], _, _, by rw [List.append_nil]; rfl, .inr ⟨hheld, rfl⟩, .inl rfl, id,
        fun _ => rfl, .inl rfl, .inl rfl⟩
    · exact ⟨_, _, _, _, _, [], _, _, by rw [List.append_nil], .inl rfl, .inl rfl, id, fun _ => rfl,
        .inl rfl, .inl rfl⟩
  | abandon =>
    obtain ⟨schedule, h⟩ := alertCoordinator_eq
      { c with coordinator := { c.coordinator with isAbandoned := true } }
    exact ⟨_, _, _, _, true, [], _, schedule, by rw [obey, abandonCoordinator, h, List.append_nil],
      .inl rfl, .inl rfl, id, fun _ => rfl, .inl rfl, .inl rfl⟩
  | service =>
    exact ⟨_, _, _, _, _, [.service], _, _, rfl, .inl rfl, .inr rfl, id, fun _ => rfl, .inl rfl,
      .inl rfl⟩
  | shutDown =>
    exact ⟨_, _, _, _, _, [], _, _, by rw [List.append_nil]; rfl, .inl rfl, .inl rfl, fun _ => rfl,
      fun _ => rfl, .inl rfl, .inl rfl⟩

end Client

end ConsensusLink
