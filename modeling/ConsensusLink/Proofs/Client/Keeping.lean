import ConsensusLink.Proofs.Cache.SingleFlight
import ConsensusLink.Proofs.Client.Settlements
import ConsensusLink.Proofs.Progress.Observing
/-!
# What lasts along runs

Of its promises a client writes down which were settled, and which of them its caches and counts
expect the end of. All it does to them is made of a few operations: it hands a promise out, settled
or not, settles one, and watches one that is noted in a cache or among the counts. A property that
each of these operations keeps, lasts along every run. When nothing is asked or ordered, promises
are settled and nothing else, so that less is to be shown of what is kept meanwhile.
-/

namespace ConsensusLink

open Promise Relation

variable {σ φ : Type}

/-- The promise at which something follows. -/
def Follow.promise : Follow → Id
  | .cached _ p => p
  | .counted _ p => p

namespace Client

variable {c c' : Client σ φ} {i : Nat} {job : Job} {p : Id} {stage : JobStage φ}

/-! ## What is written down -/

/-- A cache, or the counts, have noted a request that is under way, and expect its end. -/
def Expects (c : Client σ φ) : Follow → Prop
  | .cached (.batch n) p => c.batches.pending? n = some p
  | .cached (.block n) p => c.blocks.pending? n = some p
  | .cached (.messageBatch m) p => c.messageBatches.pending? m = some p
  | .counted k p => c.tracker.pending? k = some p

/-- Who was told is not expecting any more; others are not concerned. -/
lemma expects_follow (c : Client σ φ) (o : Outcome Answer) (f g : Follow) :
    (c.follow o f).Expects g ↔ c.Expects g ∧ g ≠ f := by
  rcases f with ⟨n | n | m, p⟩ | ⟨k, p⟩ <;> rcases g with ⟨n' | n' | m', q⟩ | ⟨k', q⟩
  case cached.batch.cached.batch | cached.block.cached.block |
      cached.messageBatch.cached.messageBatch =>
    refine (CacheTable.pending?_finish ..).trans (and_congr_right fun _ => ?_)
    simp
  case counted.counted =>
    refine ((frees_clearPending c.tracker k p).pending k' q).trans (and_congr_right fun _ => ?_)
    simp
  all_goals exact ⟨fun h => ⟨h, by simp⟩, And.left⟩

lemma expects_followAll (o : Outcome Answer) (fs : List Follow) (c : Client σ φ) (g : Follow) :
    (fs.foldl (fun c f => c.follow o f) c).Expects g ↔ c.Expects g ∧ g ∉ fs := by
  induction fs generalizing c with
  | nil => simp
  | cons f fs ih => rw [List.foldl_cons, ih, expects_follow, List.mem_cons, not_or, and_assoc]

/-- What is settled already is not settled again. -/
lemma settle_of_not_pending (h : ¬c.promises.Pending p) (o : Outcome Answer) :
    c.settle p o = c := by
  unfold settle
  split
  · rfl
  · rename_i hs
    exact absurd ⟨_, Store.cell?_of_settle? hs⟩ h

/-- A request that is noted in a table takes the place of the one before. -/
lemma eq_or_pending?_of_begin {κ : Type} [DecidableEq κ] {t : CacheTable κ Answer} {k k' : κ}
    {q : Id} (h : (t.begin k p).pending? k' = some q) :
    k' = k ∧ q = p ∨ t.pending? k' = some q := by
  by_cases hk : k' = k
  · subst hk
    rw [CacheTable.pending?_begin_self] at h
    exact .inl ⟨rfl, (Option.some.inj h).symm⟩
  · rw [CacheTable.pending?_begin_of_ne hk] at h
    exact .inr h

/-- Nothing changes of what is written down of promises, but that less may be expected. -/
structure Alike (c c' : Client σ φ) : Prop where
  promises : c'.promises = c.promises
  settlements : c'.settlements = c.settlements
  expects : ∀ f, c'.Expects f → c.Expects f

lemma expects_of_eq (hb : c'.batches.pending = c.batches.pending)
    (hk : c'.blocks.pending = c.blocks.pending)
    (hm : c'.messageBatches.pending = c.messageBatches.pending)
    (ht : c'.tracker.inFlight = c.tracker.inFlight) (f : Follow) (h : c'.Expects f) :
    c.Expects f := by
  rcases f with ⟨_ | _ | _, q⟩ | ⟨k, q⟩ <;>
    simpa only [Expects, CacheTable.pending?, Tracker.pending?, hb, hk, hm, ht] using h

lemma alike_of_eq (hp : c'.promises = c.promises) (hs : c'.settlements = c.settlements)
    (hb : c'.batches.pending = c.batches.pending) (hk : c'.blocks.pending = c.blocks.pending)
    (hm : c'.messageBatches.pending = c.messageBatches.pending)
    (ht : c'.tracker.inFlight = c.tracker.inFlight) : c.Alike c' :=
  ⟨hp, hs, expects_of_eq hb hk hm ht⟩

lemma inFlight_concludeJob (c : Client σ φ) (job : Job) (o : Outcome Answer) :
    (c.concludeJob job o).2.tracker.inFlight = c.tracker.inFlight := by
  unfold concludeJob
  split
  · exact Tracker.inFlight_answer
  · rfl
  · rfl

/-- Nothing changes of what is written down of promises, and nothing in the caches. -/
structure Still (c c' : Client σ φ) : Prop where
  promises : c'.promises = c.promises
  settlements : c'.settlements = c.settlements
  batches : c'.batches = c.batches
  blocks : c'.blocks = c.blocks
  messageBatches : c'.messageBatches = c.messageBatches
  inFlight : c'.tracker.inFlight = c.tracker.inFlight

lemma Still.alike (h : c.Still c') : c.Alike c' :=
  alike_of_eq h.promises h.settlements (congrArg _ h.batches) (congrArg _ h.blocks)
    (congrArg _ h.messageBatches) h.inFlight

/-- In a turn of a job at most its own promise is settled. -/
lemma JobEffect.settles (h : JobEffect c i job p stage c') :
    c.Still c' ∨ ∃ (c₀ : Client σ φ) (o : Outcome Answer), c.Still c₀ ∧ c' = c₀.settle p o := by
  cases h with
  | stays => exact .inl ⟨rfl, rfl, rfl, rfl, rfl, rfl⟩
  | works => exact .inl ⟨rfl, rfl, rfl, rfl, rfl, rfl⟩
  | waits => exact .inl ⟨rfl, rfl, rfl, rfl, rfl, rfl⟩
  | pauses => exact .inl ⟨rfl, rfl, rfl, rfl, rfl, rfl⟩
  | drops =>
    refine .inr ⟨_, _, ?_, rfl⟩
    exact ⟨rfl, rfl, rfl, rfl, rfl, rfl⟩
  | breaks =>
    refine .inr ⟨_, _, ?_, rfl⟩
    exact ⟨rfl, rfl, rfl, rfl, rfl, rfl⟩
  | answers =>
    refine .inr ⟨_, _, ?_, rfl⟩
    exact ⟨rfl, rfl, rfl, rfl, rfl, inFlight_concludeJob c job _⟩

/-! ## What settling keeps -/

/-- A property that is kept when promises are settled. -/
structure Steady (P : Client σ φ → Prop) : Prop where
  still : ∀ {c c' : Client σ φ}, P c → c.Still c' → P c'
  settle : ∀ {c : Client σ φ} p o, P c → P (c.settle p o)

namespace Steady

variable {P : Client σ φ → Prop} {s : Situation σ φ}

lemma stopCoordinator (h : Steady P) (hc : P c) : P c.stopCoordinator := by
  unfold Client.stopCoordinator
  refine List.foldlRecOn _ _ (motive := P) ?_ ?_
  · exact h.still hc ⟨rfl, rfl, rfl, rfl, rfl, rfl⟩
  · rintro c' hc' ⟨r, p⟩ -
    exact h.settle p _ hc'

lemma abortRequest (h : Steady P) (hc : P c) (p : Id) (stage : AttemptStage φ) :
    P (c.abortRequest p stage) := by
  refine h.settle p _ ?_
  cases stage with
  | waiting deadline =>
    obtain ⟨pool, schedule, hs, -⟩ := leavePool_eq (c.dropAlarms .coordinator)
    simp only [hs]
    exact h.still hc ⟨rfl, rfl, rfl, rfl, rfl, rfl⟩
  | calling phase deadline =>
    obtain ⟨pool, schedule, hs, -⟩ := releaseSlot_eq (c.dropAlarms .coordinator)
    simp only [hs]
    exact h.still hc ⟨rfl, rfl, rfl, rfl, rfl, rfl⟩
  | pausing => exact h.still hc ⟨rfl, rfl, rfl, rfl, rfl, rfl⟩

/-- At an attempt nothing is settled. -/
lemma attempt {coordinator : Coordinator} {r : SequencerRequest} {p : Id} {a : Attempts}
    {start : Option φ} {progress : AttemptProgress σ φ} (h : Steady P) (hs : P s.client)
    (heff : AttemptEffect { s.client with coordinator } r p a start progress) :
    P (s.attempt r p progress).client := by
  obtain ⟨_, _, _, _, hclient, -⟩ := heff.client_eq
  rw [Situation.client_attempt, hclient]
  exact h.still hs ⟨rfl, rfl, rfl, rfl, rfl, rfl⟩

lemma advance (h : Steady P) (hs : P s.client) : P s.advance.client := by
  have hstep := s.proceeds
  generalize s.advance = s' at hstep
  cases hstep with
  | rests => exact hs
  | wakes => exact hs
  | resumes _ hc => exact h.attempt hs (resumeAttempt_effect hc)
  | aborts => exact h.stopCoordinator (h.abortRequest hs _ _)
  | concludes =>
    refine h.settle _ _ ?_
    exact h.still hs ⟨rfl, rfl, rfl, rfl, rfl, rfl⟩
  | repeats => exact h.attempt hs (beginAttempt_effect ..)
  | pauses => exact h.still hs ⟨rfl, rfl, rfl, rfl, rfl, rfl⟩
  | stops => exact h.stopCoordinator hs
  | idles => exact h.still hs ⟨rfl, rfl, rfl, rfl, rfl, rfl⟩
  | begins =>
    exact h.attempt (s := { s with client := { s.client with coordinator := _ } })
      (h.still hs ⟨rfl, rfl, rfl, rfl, rfl, rfl⟩) (beginAttempt_effect ..)
  | answers =>
    refine h.settle _ _ ?_
    exact h.still hs ⟨rfl, rfl, rfl, rfl, rfl, rfl⟩

/-- Whatever happens, if nothing is asked and nothing is ordered. -/
lemma after (h : Steady P) (howned : s.Owned) (hs : P s.client) {e : Event σ}
    (hask : ∀ a, e ≠ .ask a) (horder : ∀ o, e ≠ .order o) : P (s.after e).client := by
  cases e with
  | ask a => exact absurd rfl (hask a)
  | order o => exact absurd rfl (horder o)
  | job i =>
    have heff := turn_effect i howned.no_direct
    rw [Situation.after]
    generalize s.client.turn (.task i) = c at heff
    cases heff with
    | stays => exact hs
    | job _ heff =>
      obtain hstill | ⟨c₀, o, hstill, rfl⟩ := heff.settles
      · exact h.still hs hstill
      · exact h.settle _ o (h.still hs hstill)
    | service => exact h.still hs ⟨rfl, rfl, rfl, rfl, rfl, rfl⟩
  | advance => exact h.advance hs
  | clock schedule => exact h.still hs ⟨rfl, rfl, rfl, rfl, rfl, rfl⟩
  | node n => exact h.still hs ⟨rfl, rfl, rfl, rfl, rfl, rfl⟩

end Steady

/-! ## What each operation keeps -/

/-- A property that every operation on promises keeps. -/
structure Lasting (P : Client σ φ → Prop) : Prop where
  alike : ∀ {c c' : Client σ φ}, P c → c.Alike c' → P c'
  new : ∀ {c : Client σ φ}, P c → P { c with promises := c.promises.new.2 }
  newSettled : ∀ {c : Client σ φ} o, P c → P (c.newSettled o).2
  settle : ∀ {c : Client σ φ} p o, P c → P (c.settle p o)
  /-- A request is noted, and what follows on its promise is registered. -/
  watch : ∀ {c c' : Client σ φ} f, P c → c'.promises = c.promises →
    c'.settlements = c.settlements → (∀ g, c'.Expects g → g = f ∨ c.Expects g) →
    c.promises.Known f.promise → P (c'.onSettled f.promise f)

namespace Lasting

variable {P : Client σ φ → Prop}

lemma of_eq (h : Lasting P) (hc : P c) (hp : c'.promises = c.promises)
    (hs : c'.settlements = c.settlements) (hb : c'.batches.pending = c.batches.pending)
    (hk : c'.blocks.pending = c.blocks.pending)
    (hm : c'.messageBatches.pending = c.messageBatches.pending)
    (ht : c'.tracker.inFlight = c.tracker.inFlight) : P c' :=
  h.alike hc (alike_of_eq hp hs hb hk hm ht)

lemma submit (h : Lasting P) (hc : P c) (job : Job) :
    P (c.submit job).2 ∧ (c.submit job).2.promises.Known (c.submit job).1 := by
  obtain ⟨e, -, hs⟩ | ⟨pool, schedule, -, hs⟩ := submit_eq c job
  · rw [hs]
    exact ⟨h.newSettled _ hc, Store.known_of_outcome (Store.outcome?_newSettled _)⟩
  · rw [hs]
    exact ⟨h.of_eq (h.new hc) rfl rfl rfl rfl rfl rfl, Store.pending_new.known⟩

/-- What is asked of a cache or the counts and is not there, is submitted, noted and watched. -/
lemma submit_watched {c₁ : Client σ φ} (h : Lasting P) (hc : P c) (job : Job) (f : Follow)
    (hf : f.promise = (c.submit job).1) (hp : c₁.promises = (c.submit job).2.promises)
    (hs : c₁.settlements = (c.submit job).2.settlements)
    (he : ∀ g, c₁.Expects g → g = f ∨ (c.submit job).2.Expects g) :
    P (c₁.onSettled (c.submit job).1 f) := by
  obtain ⟨hsubmit, hknown⟩ := h.submit hc job
  rw [← hf] at hknown ⊢
  exact h.watch f hsubmit hp hs he hknown

lemma fetchBatch (h : Lasting P) (hc : P c) (n : BatchNumber) : P (c.fetchBatch n).2 := by
  have hlook : P { c with batches := (c.batches.lookup n).2 } :=
    h.of_eq hc rfl rfl (CacheTable.pending_lookup ..) rfl rfl rfl
  unfold Client.fetchBatch
  split <;> rename_i hl <;> rw [hl] at hlook
  · exact h.newSettled _ hlook
  · exact hlook
  · refine h.submit_watched hlook (.read (.fetchBatch n)) _ rfl rfl rfl ?_
    rintro (⟨n' | _ | _, q⟩ | _) hg
    case cached.batch =>
      obtain ⟨rfl, rfl⟩ | hq := eq_or_pending?_of_begin hg
      · exact .inl rfl
      · exact .inr hq
    all_goals exact .inr hg

lemma findBatch (h : Lasting P) (hc : P c) (m : MessageIndex) : P (c.findBatch m).2 := by
  have hlook : P { c with messageBatches := (c.messageBatches.lookup m).2 } :=
    h.of_eq hc rfl rfl rfl rfl (CacheTable.pending_lookup ..) rfl
  unfold Client.findBatch
  split <;> rename_i hl <;> rw [hl] at hlook
  · exact h.newSettled _ hlook
  · exact hlook
  · refine h.submit_watched hlook (.read (.findBatch m)) _ rfl rfl rfl ?_
    rintro (⟨_ | _ | m', q⟩ | _) hg
    case cached.messageBatch =>
      obtain ⟨rfl, rfl⟩ | hq := eq_or_pending?_of_begin hg
      · exact .inl rfl
      · exact .inr hq
    all_goals exact .inr hg

lemma batchBlock (h : Lasting P) (hc : P c) (n : BatchNumber) : P (c.batchBlock n).2 := by
  have hlook : P { c with blocks := (c.blocks.lookup n).2 } :=
    h.of_eq hc rfl rfl rfl (CacheTable.pending_lookup ..) rfl rfl
  unfold Client.batchBlock
  split <;> rename_i hl <;> rw [hl] at hlook
  · exact h.newSettled _ hlook
  · exact hlook
  · refine h.submit_watched hlook (.read (.batchBlock n)) _ rfl rfl rfl ?_
    rintro (⟨_ | n' | _, q⟩ | _) hg
    case cached.block =>
      obtain ⟨rfl, rfl⟩ | hq := eq_or_pending?_of_begin hg
      · exact .inl rfl
      · exact .inr hq
    all_goals exact .inr hg

lemma count (h : Lasting P) (hc : P c) (k : Counter) : P (c.count k).2 := by
  unfold Client.count
  split
  · exact h.newSettled _ hc
  · split
    · exact hc
    · have hissue : P { c with tracker := c.tracker.issue.2 } := h.of_eq hc rfl rfl rfl rfl rfl rfl
      refine h.submit_watched hissue (.query k c.tracker.issue.1) _ rfl rfl rfl ?_
      rintro (⟨_ | _ | _, q⟩ | ⟨k', q⟩) hg
      case counted =>
        by_cases hk : k' = k
        · subst hk
          cases (PerCounter.get_set_self _ _ _).symm.trans hg
          exact .inl rfl
        · exact .inr ((PerCounter.get_set_of_ne hk _ _).symm.trans hg)
      all_goals exact .inr hg

lemma enqueue (h : Lasting P) (hc : P c) (r : SequencerRequest) : P (c.enqueue r).2 := by
  unfold Client.enqueue
  dsimp only
  split
  · exact h.newSettled _ hc
  · rename_i coordinator _
    obtain ⟨_, hs⟩ := alertCoordinator_eq { c with promises := c.promises.new.2, coordinator }
    rw [hs]
    exact h.of_eq (h.new hc) rfl rfl rfl rfl rfl rfl

lemma take (h : Lasting P) (hc : P c) (a : Ask) : P (c.take a).2 := by
  cases a with
  | fetchBatch n => exact h.fetchBatch hc n
  | findBatch m => exact h.findBatch hc m
  | batchBlock n => exact h.batchBlock hc n
  | progressMap => exact (h.submit hc _).1
  | count k => exact h.count hc k
  | sequence r => exact h.enqueue hc r
  | errand name delay result => exact (h.submit hc _).1

lemma obey (h : Lasting P) (hc : P c) (o : Order) : P (c.obey o) := by
  cases o with
  | forget n =>
    refine h.alike hc ⟨rfl, rfl, ?_⟩
    rintro (⟨n' | _ | _, q⟩ | _) hg
    case cached.batch =>
      have hq : (c.batches.purge n).pending? n' = some q := hg
      rw [CacheTable.pending?_purge] at hq
      split at hq
      · cases hq
      · exact hq
    all_goals exact hg
  | newSession =>
    refine h.alike hc ⟨rfl, rfl, ?_⟩
    rintro (⟨_ | _ | _, q⟩ | ⟨_ | _ | _, q⟩) hg
    case counted.finalized | counted.safe | counted.syncTarget => cases hg
    all_goals exact hg
  | start =>
    rw [Client.obey, startCoordinator]
    split
    · exact h.of_eq hc rfl rfl rfl rfl rfl rfl
    · exact hc
  | abandon =>
    obtain ⟨_, hs⟩ := alertCoordinator_eq
      { c with coordinator := { c.coordinator with isAbandoned := true } }
    rw [Client.obey, abandonCoordinator, hs]
    exact h.of_eq hc rfl rfl rfl rfl rfl rfl
  | _ => exact h.of_eq hc rfl rfl rfl rfl rfl rfl

/-! ## Runs -/

variable {s : Situation σ φ}

lemma steady (h : Lasting P) : Steady P where
  still hc hstill := h.alike hc hstill.alike
  settle p o := h.settle p o

lemma after (h : Lasting P) (howned : s.Owned) (hs : P s.client) (e : Event σ) :
    P (s.after e).client := by
  cases e with
  | ask a => exact h.take hs a
  | order o => exact h.obey hs o
  | _ => exact h.steady.after howned hs nofun nofun

/-- Along every run a lasting property holds, if it holds at first. -/
theorem of_runs {config : ClientConfig} {remote : Remote σ φ} {node : σ} {moves : σ → σ → Prop}
    (h : Lasting P) (hfresh : P (ofConfig config remote node))
    (hr : Situation.Runs moves (.fresh config remote node) s) : P s.client := by
  induction hr with
  | refl => exact hfresh
  | tail hr hstep ih =>
    obtain ⟨e, -, rfl⟩ := hstep
    exact h.after (Situation.owned_of_runs hr) ih e

end Lasting

end Client

end ConsensusLink
