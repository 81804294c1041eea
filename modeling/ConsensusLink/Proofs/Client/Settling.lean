import ConsensusLink.Client.Requests
import ConsensusLink.Proofs.Cache.Entries
import ConsensusLink.Proofs.Promise.Pending
/-!
# What settling a promise does to a client

What follows when a promise is settled reaches the caches and the counts and nothing else: the
coordinator, the tasks, the pool, the node and the clock stay as they are. Of the counts only the
queries under way are concerned, and only those that are watched at the promise. The cache of
message batches gets an entry only if it watches the promise, and the message is final.
-/

namespace ConsensusLink.Client

open Promise

variable {σ φ : Type} {c : Client σ φ} {p q : Id}

/-- Queries are noted to be under way no longer if they are among those that end; of the counts
nothing else changes. -/
structure Frees (t t' : Tracker) (ended : Counter → Id → Prop) : Prop where
  observations : t'.observations = t.observations
  finality : t'.finality = t.finality
  pending : ∀ k q, t'.pending? k = some q ↔ t.pending? k = some q ∧ ¬ended k q

lemma Frees.refl (t : Tracker) {ended : Counter → Id → Prop} (h : ∀ k q, ¬ended k q) :
    Frees t t ended :=
  ⟨rfl, rfl, fun k q => (and_iff_left (h k q)).symm⟩

lemma Frees.trans {t t' t'' : Tracker} {ended ended' : Counter → Id → Prop}
    (h : Frees t t' ended) (h' : Frees t' t'' ended') :
    Frees t t'' fun k q => ended k q ∨ ended' k q where
  observations := h'.observations.trans h.observations
  finality := h'.finality.trans h.finality
  pending k q := by rw [h'.pending, h.pending, not_or, and_assoc]

lemma Frees.congr {t t' : Tracker} {ended ended' : Counter → Id → Prop} (h : Frees t t' ended)
    (he : ∀ k q, ended' k q ↔ ended k q) : Frees t t' ended' :=
  ⟨h.observations, h.finality, fun k q => by rw [h.pending, he]⟩

lemma frees_clearPending (t : Tracker) (k : Counter) (q : Id) :
    Frees t (t.clearPending k q) fun k' q' => k' = k ∧ q' = q := by
  unfold Tracker.clearPending
  split
  · rename_i hk
    refine ⟨rfl, rfl, fun k' q' => ?_⟩
    rw [Tracker.pending?]
    by_cases hkk : k' = k
    · subst hkk
      rw [PerCounter.get_set_self, hk]
      simp [eq_comm]
    · rw [PerCounter.get_set_of_ne hkk, Tracker.pending?]
      simp [hkk]
  · rename_i hk
    refine ⟨rfl, rfl, fun k' q' => (and_iff_left_of_imp ?_).symm⟩
    rintro hq ⟨rfl, rfl⟩
    exact hk hq

/-- A query that ends at once was never under way. -/
lemma pending?_clearPending_setPending {t : Tracker} {k : Counter} (h : t.pending? k = none)
    (q : Id) (k' : Counter) :
    ((t.setPending k q).clearPending k q).pending? k' = t.pending? k' := by
  have hset : (t.setPending k q).pending? k = some q := PerCounter.get_set_self _ _ _
  rw [Tracker.clearPending, if_pos hset]
  by_cases hk : k' = k
  · subst hk
    exact (PerCounter.get_set_self _ _ _).trans h.symm
  · exact (PerCounter.get_set_of_ne hk _ _).trans (PerCounter.get_set_of_ne hk _ _)

/-- What is final depends on the finality marks only. -/
lemma isFinal_congr {c' : Client σ φ} (hm : c'.manualFinality = c.manualFinality)
    (ht : c'.tracker.finality = c.tracker.finality) (m : MessageIndex) :
    c'.isFinal m = c.isFinal m := by
  rw [isFinal, finality, hm, ht, isFinal, finality]

lemma follow_eq (c : Client σ φ) (o : Outcome Answer) (f : Follow) :
    ∃ batches blocks messageBatches tracker,
      c.follow o f = { c with batches, blocks, messageBatches, tracker } ∧
        Frees c.tracker tracker (fun k q => f = .counted k q) ∧
        c.messageBatches.Adds messageBatches fun m a =>
          o = .ok a ∧ c.isFinal m = true ∧ ∃ q, f = .cached (.messageBatch m) q := by
  rcases f with ⟨n | n | m, p⟩ | ⟨counter, p⟩
  · exact ⟨_, _, _, _, rfl, .refl _ nofun, .refl _ _⟩
  · exact ⟨_, _, _, _, rfl, .refl _ nofun, .refl _ _⟩
  · refine ⟨_, _, _, _, rfl, .refl _ nofun, ?_⟩
    refine (c.messageBatches.adds_finish m p o fun _ => c.isFinal m).mono ?_
    rintro m' a ⟨rfl, rfl, hfinal⟩
    exact ⟨rfl, hfinal, p, rfl⟩
  · have hfrees := frees_clearPending c.tracker counter p
    refine ⟨_, _, _, _, rfl, hfrees.congr fun k q => ?_, .refl _ _⟩
    rw [Follow.counted.injEq, eq_comm, eq_comm (a := p)]

lemma followAll_eq (o : Outcome Answer) (fs : List Follow) (c : Client σ φ) :
    ∃ batches blocks messageBatches tracker,
      fs.foldl (fun c f => c.follow o f) c =
          { c with batches, blocks, messageBatches, tracker } ∧
        Frees c.tracker tracker (fun k q => .counted k q ∈ fs) ∧
        c.messageBatches.Adds messageBatches fun m a =>
          o = .ok a ∧ c.isFinal m = true ∧ ∃ q, .cached (.messageBatch m) q ∈ fs := by
  induction fs generalizing c with
  | nil => exact ⟨_, _, _, _, rfl, .refl _ (by simp), .refl _ _⟩
  | cons f fs ih =>
    obtain ⟨_, _, _, _, hf, hfree, hadds⟩ := follow_eq c o f
    have hfinal : ∀ m, (c.follow o f).isFinal m = c.isFinal m := by
      intro m
      refine isFinal_congr ?_ ?_ m <;> rw [hf]
      exact hfree.finality
    obtain ⟨b, k, m, t, h, hrest, hadds'⟩ := ih (c.follow o f)
    refine ⟨b, k, m, t, by rw [List.foldl_cons, h, hf], ?_, ?_⟩
    · rw [hf] at hrest
      exact (hfree.trans hrest).congr fun k q => by rw [List.mem_cons, eq_comm]
    · simp only [hfinal] at hadds'
      rw [hf] at hadds'
      refine (hadds.trans hadds').mono ?_
      rintro m a (⟨ho, hm, q, rfl⟩ | ⟨ho, hm, q, hmem⟩)
      · exact ⟨ho, hm, q, List.mem_cons_self⟩
      · exact ⟨ho, hm, q, List.mem_cons_of_mem _ hmem⟩

/-- Settling a promise, whether it is pending or not. -/
lemma settle_frame (c : Client σ φ) (p : Id) (o : Outcome Answer) :
    ∃ promises settlements batches blocks messageBatches tracker,
      c.settle p o =
        { c with promises, settlements, batches, blocks, messageBatches, tracker } := by
  unfold settle
  split
  · exact ⟨_, _, _, _, _, _, rfl⟩
  · rename_i ks promises _
    obtain ⟨_, _, _, _, h, -, -⟩ := followAll_eq o ks
      { c with promises, settlements := (p, c.now) :: c.settlements }
    exact ⟨_, _, _, _, _, _, h⟩

/-- What of a client is concerned when a promise is settled. -/
structure Books where
  /-- The promises. -/
  promises : Store Answer Failure Follow
  /-- The counts. -/
  tracker : Tracker
  /-- Batches by message. -/
  messageBatches : CacheTable MessageIndex Answer
  /-- Whether a message is below the finality mark. -/
  isFinal : MessageIndex → Bool

/-- The books of a client. -/
def books (c : Client σ φ) : Books := ⟨c.promises, c.tracker, c.messageBatches, c.isFinal⟩

/-- How the books change when some promises are settled, all with the same outcome. -/
structure Settling (b b' : Books) (ps : List Id) (o : Outcome Answer) : Prop extends
    b.promises.Settles b'.promises ps o where
  frees : Frees b.tracker b'.tracker fun k q => ∃ p ∈ ps, .counted k q ∈ b.promises.continuations p
  isFinal : b'.isFinal = b.isFinal
  /-- The values of requests that are watched are kept, if their messages are final. -/
  adds : b.messageBatches.Adds b'.messageBatches fun m a =>
    o = .ok a ∧ b.isFinal m = true ∧
      ∃ p ∈ ps, ∃ q, .cached (.messageBatch m) q ∈ b.promises.continuations p

namespace Settling

variable {b b' b'' : Books} {ps qs : List Id} {o : Outcome Answer}

lemma refl (b : Books) (o : Outcome Answer) : Settling b b [] o :=
  { Store.Settles.refl b.promises o with
    frees := .refl _ (by simp)
    isFinal := rfl
    adds := .refl _ _ }

/-- What is watched at a promise that is settled already, has followed. -/
lemma mem_continuations (h : Settling b b' ps o) (p : Id) (f : Follow) :
    f ∈ b'.promises.continuations p ↔ p ∉ ps ∧ f ∈ b.promises.continuations p := by
  by_cases hps : p ∈ ps
  · simp [Store.continuations_of_outcome (h.outcome p hps), hps]
  · rw [Store.continuations, h.others p hps, ← Store.continuations]
    exact (and_iff_right hps).symm

/-- What follows the settling of some promises and then of others. -/
lemma followed_append (h : Settling b b' ps o) (qs : List Id) (f : Follow) :
    ((∃ p ∈ ps, f ∈ b.promises.continuations p) ∨ ∃ p ∈ qs, f ∈ b'.promises.continuations p) ↔
      ∃ p ∈ ps ++ qs, f ∈ b.promises.continuations p := by
  constructor
  · rintro (⟨p, hp, hmem⟩ | ⟨p, hp, hmem⟩)
    · exact ⟨p, List.mem_append_left _ hp, hmem⟩
    · exact ⟨p, List.mem_append_right _ hp, ((h.mem_continuations p f).1 hmem).2⟩
  · rintro ⟨p, hp, hmem⟩
    by_cases hps : p ∈ ps
    · exact .inl ⟨p, hps, hmem⟩
    · have hqs := (List.mem_append.1 hp).resolve_left hps
      exact .inr ⟨p, hqs, (h.mem_continuations p f).2 ⟨hps, hmem⟩⟩

lemma trans (h : Settling b b' ps o) (h' : Settling b' b'' qs o) :
    Settling b b'' (ps ++ qs) o := by
  refine { h.toSettles.trans h'.toSettles with
    frees := (h.frees.trans h'.frees).congr fun k q => (h.followed_append qs _).symm
    isFinal := h'.isFinal.trans h.isFinal
    adds := (h.adds.trans h'.adds).mono ?_ }
  rintro m a (⟨ho, hfinal, p, hp, q, hmem⟩ | ⟨ho, hfinal, p, hp, q, hmem⟩)
  · obtain ⟨p, hp, hmem⟩ := (h.followed_append qs _).1 (.inl ⟨p, hp, hmem⟩)
    exact ⟨ho, hfinal, p, hp, q, hmem⟩
  · obtain ⟨p, hp, hmem⟩ := (h.followed_append qs _).1 (.inr ⟨p, hp, hmem⟩)
    exact ⟨ho, h.isFinal ▸ hfinal, p, hp, q, hmem⟩

end Settling

/-- Settling a pending promise. -/
lemma settle_eq (h : c.promises.Pending p) (o : Outcome Answer) :
    ∃ promises batches blocks messageBatches tracker,
      c.settle p o =
        { c with
          promises, batches, blocks, messageBatches, tracker
          settlements := (p, c.now) :: c.settlements } ∧
      Settling c.books
        (books { c with promises, messageBatches, tracker }) [p] o := by
  obtain ⟨ks, promises, hk, hs⟩ := h.exists_settle? o
  obtain ⟨b, k, m, t, hf, hfree, hadds⟩ := followAll_eq o ks
    { c with promises, settlements := (p, c.now) :: c.settlements }
  have hks : c.promises.continuations p = ks := by rw [Store.continuations, hk]
  have hmark : Client.manualFinality { c with promises, messageBatches := m, tracker := t } =
      c.manualFinality := rfl
  refine ⟨promises, b, k, m, t, ?_, { Store.settles_of_settle? hs with
    frees := hfree.congr fun k q => ?_
    isFinal := funext (isFinal_congr hmark hfree.finality)
    adds := hadds.mono ?_ }⟩
  · rw [settle, hs]
    exact hf
  · simp [books, hks]
  · rintro m' a ⟨ho, hfinal, q, hmem⟩
    exact ⟨ho, hfinal, p, List.mem_singleton_self p, q, hks.symm ▸ hmem⟩

/-- Registering what follows on a promise leaves all outcomes as they are. -/
lemma onSettled_eq (c : Client σ φ) (p : Id) (f : Follow) :
    ∃ batches blocks messageBatches tracker,
      c.onSettled p f =
          { c with
            promises := (c.promises.register p f).2
            batches, blocks, messageBatches, tracker } ∧
        ((∀ k q, f ≠ .counted k q) → tracker = c.tracker) ∧
        c.messageBatches.Adds messageBatches fun _ a => c.promises.outcome? p = some (.ok a) := by
  have houtcome := c.promises.register_fst p f
  unfold onSettled
  generalize c.promises.register p f = r at houtcome ⊢
  obtain ⟨o, promises⟩ := r
  obtain rfl : o = c.promises.outcome? p := houtcome
  cases ho : c.promises.outcome? p with
  | none => exact ⟨_, _, _, _, rfl, fun _ => rfl, .refl _ _⟩
  | some o =>
    obtain ⟨b, k, m, t, hf, -, hadds⟩ := follow_eq { c with promises } o f
    refine ⟨b, k, m, t, hf, fun h => ?_, hadds.mono ?_⟩
    · -- only a query that ends changes the counts
      rcases f with ⟨n | n | m', q⟩ | ⟨counter, q⟩
      · exact (congrArg Client.tracker hf).symm
      · exact (congrArg Client.tracker hf).symm
      · exact (congrArg Client.tracker hf).symm
      · exact absurd rfl (h counter q)
    · rintro m' a ⟨rfl, -, -⟩
      rfl

lemma onSettled_of_outcome {o : Outcome Answer} (h : c.promises.outcome? p = some o) (f : Follow) :
    c.onSettled p f = c.follow o f := by
  rw [onSettled, Store.register_of_outcome h]

lemma onSettled_of_pending (h : c.promises.Pending p) (f : Follow) :
    c.onSettled p f = { c with promises := (c.promises.register p f).2 } := by
  have hnone := (c.promises.register_fst p f).trans h.outcome?_eq
  unfold onSettled
  generalize c.promises.register p f = r at hnone
  obtain ⟨o, promises⟩ := r
  cases hnone
  rfl

lemma isDown_enter {p p' : Pool TaskId} (h : p.enter = .ok p') : p'.isDown = p.isDown := by
  unfold Pool.enter at h
  split at h
  · cases h
  · split at h
    · cases h
    · cases h
      rfl

lemma enter_error {p : Pool TaskId} {e : Failure} (h : p.enter = .error e) :
    e = .overloaded ∨ e = .shutDown ∧ p.isDown = true := by
  unfold Pool.enter at h
  split at h
  · rename_i hd
    cases h
    exact .inr ⟨rfl, hd⟩
  · split at h
    · cases h
      exact .inl rfl
    · cases h

/-- Submitting a job: a new promise is handed out, which is settled at once or which a new task
owes. -/
lemma submit_eq (c : Client σ φ) (job : Job) :
    (∃ e, (e = .overloaded ∨ e = .shutDown) ∧ c.submit job = c.newSettled (.error e)) ∨
      ∃ pool schedule,
        pool.isDown = c.pool.isDown ∧
        c.submit job =
          (c.promises.new.1,
            { c with
              pool, schedule
              promises := c.promises.new.2
              tasks := c.tasks ++ [.job job c.promises.new.1 .waiting] }) := by
  unfold submit
  cases h : c.pool.enter with
  | error e => exact .inl ⟨e, (enter_error h).imp_right And.left, rfl⟩
  | ok pool => exact .inr ⟨pool, _, isDown_enter h, rfl⟩

end ConsensusLink.Client
