import ConsensusLink.Proofs.Progress.Queries
/-!
# What events bring into the cache of lookups

The batch of a message is kept only when a lookup of this message ends with an answer, in its turn,
and while the message is below the finality mark. The mark itself is moved by hand, or by a query of
the finalized count that ends with an answer. `Gains` says this of one event, whatever the node
answers, and `Owned.gains` proves it of every event.
-/

namespace ConsensusLink

open Promise Client

variable {σ φ : Type}

/-- A finality mark that the client has: the one that is set by hand, or the one that follows the
counts. -/
def Client.Marked (c : Client σ φ) (mark : MessageIndex) : Prop :=
  c.manualFinality = some (some mark) ∨ c.tracker.finality = some mark

/-- What is final is below a mark. -/
lemma Client.exists_marked {c : Client σ φ} {m : MessageIndex} (h : c.isFinal m = true) :
    ∃ mark, c.Marked mark ∧ m < mark := by
  unfold isFinal at h
  split at h
  · rename_i mark hmark
    refine ⟨mark, ?_, of_decide_eq_true h⟩
    unfold finality at hmark
    cases hmanual : c.manualFinality with
    | none =>
      rw [hmanual] at hmark
      exact .inr hmark
    | some finality =>
      rw [hmanual] at hmark
      exact .inl (hmanual.trans (congrArg some hmark))
  · cases h

namespace Situation

variable {s s' : Situation σ φ} {e : Event σ} {p : Id}

/-- In its turn a task is given an answer of the node to its lookup of a message. -/
def Finds (s : Situation σ φ) (i : Nat) (m : MessageIndex) (a : Answer) : Prop :=
  ∃ p stage retry node, s.client.tasks[i]? = some (.job (.read (.findBatch m)) p stage) ∧
    s.client.JobTries (.read (.findBatch m)) stage retry (.ends (.ok a)) node

/-- Where the cache of lookups waits for a message, a lookup of the message is under way. -/
def Filed (s : Situation σ φ) : Prop :=
  ∀ p m q, Follow.cached (.messageBatch m) q ∈ s.client.promises.continuations p →
    ∃ i, s.client.Owes i (.read (.findBatch m)) p

/-- What an event may bring in. -/
structure Gains (s s' : Situation σ φ) (e : Event σ) : Prop where
  filed : s'.Filed
  /-- The answer of a lookup, of a message that is final. -/
  entries : s.client.messageBatches.Adds s'.client.messageBatches fun m a =>
    s.client.isFinal m = true ∧ ∃ i, e = .job i ∧ s.Finds i m a
  /-- A mark that is set by hand, or the answer of a query. -/
  marks : ∀ mark, s'.client.Marked mark → s.client.Marked mark ∨
    e = .order (.mark (some (some mark))) ∨
      ∃ i t, e = .job i ∧ s.Hears i .finalized t (.ok (.count mark))

lemma filed_fresh (config : ClientConfig) (remote : Remote σ φ) (node : σ) :
    Filed (fresh config remote node) := by
  intro p m q hmem
  cases hmem

/-! ## Nothing is settled -/

/-- Promises and marks stay, and what is served was there. -/
lemma Gains.of_same (hf : s.Filed) (hpromises : s'.client.promises = s.client.promises)
    (hadds : s.client.messageBatches.Adds s'.client.messageBatches fun _ _ => False)
    (hmarks : ∀ mark, s'.client.Marked mark → s.client.Marked mark)
    (howes : ∀ i job p, s.client.Owes i job p → s'.client.Owes i job p) : s.Gains s' e where
  filed p m q hmem := by
    rw [hpromises] at hmem
    obtain ⟨i, ho⟩ := hf p m q hmem
    exact ⟨i, howes i _ p ho⟩
  entries := hadds.mono fun _ _ => False.elim
  marks mark hmark := .inl (hmarks mark hmark)

/-- A promise is handed out; where the cache waits for it, a lookup owes it. -/
lemma Gains.of_handsOut (hf : s.Filed)
    (hout : s.client.promises.HandsOut s'.client.promises p)
    (hp : ∀ m q, Follow.cached (.messageBatch m) q ∈ s'.client.promises.continuations p →
      ∃ i, s'.client.Owes i (.read (.findBatch m)) p)
    (hadds : s.client.messageBatches.Adds s'.client.messageBatches fun _ _ => False)
    (hmarks : ∀ mark, s'.client.Marked mark → s.client.Marked mark)
    (howes : ∀ i job p, s.client.Owes i job p → s'.client.Owes i job p) : s.Gains s' e where
  filed r m q hmem := by
    by_cases hr : r = p
    · subst hr
      exact hp m q hmem
    · have hknown := ((hout.known r).1 (Store.known_of_mem_continuations hmem)).resolve_right hr
      rw [Store.continuations, hout.cells r hknown] at hmem
      obtain ⟨i, ho⟩ := hf r m q hmem
      exact ⟨i, howes i _ r ho⟩
  entries := hadds.mono fun _ _ => False.elim
  marks mark hmark := .inl (hmarks mark hmark)

lemma gains_ask (hf : s.Filed) (a : Ask) : s.Gains (s.after (.ask a)) (.ask a) := by
  have heff := take_effect s.client a
  rw [after]
  generalize s.client.take a = pc at heff
  obtain ⟨p, c⟩ := pc
  dsimp only at heff ⊢
  cases heff with
  | reuses ha hadds => exact .of_same hf rfl hadds (fun _ => id) fun _ _ _ => id
  | answers h ho hseq ht hadds hfinality =>
    refine .of_handsOut hf h ?_ hadds (fun mark => ?_) fun _ _ _ => id
    · rw [Store.continuations_of_outcome ho]
      rintro m q ⟨⟩
    · simp only [Marked, hfinality]
      exact id
  | submits ha h hp hjob hdown ht hadds hfinality hcached =>
    refine .of_handsOut hf h (fun m q hmem => ?_) hadds (fun mark => ?_) fun i job q ho =>
      ho.append rfl
    · -- the lookup is the job that is added now
      obtain rfl := hcached m q hmem
      exact ⟨s.client.tasks.length, .waiting, List.getElem?_concat_length⟩
    · simp only [Marked, hfinality]
      exact id
  | queues h hp hwatch =>
    refine .of_handsOut hf h ?_ (.refl _ _) (fun _ => id) fun _ _ _ => id
    rw [hwatch]
    rintro m q ⟨⟩

lemma gains_order (hf : s.Filed) (o : Order) : s.Gains (s.after (.order o)) (.order o) := by
  obtain ⟨_, manualFinality, tracker, _, _, services, _, _, hc, -, -, -, -, hfinality, hmanual⟩ :=
    obey_eq s.client o
  rw [after, hc]
  constructor
  · intro p m q hmem
    obtain ⟨i, ho⟩ := hf p m q hmem
    exact ⟨i, ho.append rfl⟩
  · exact .refl _ _
  · rintro mark (hmark | hmark)
    · -- the mark that is set by hand stays, or the order is to set it
      obtain rfl | rfl := hmanual
      · exact .inl (.inl hmark)
      · have hmark : manualFinality = some (some mark) := hmark
        exact .inr (.inl (by rw [hmark]))
    · -- the mark that follows the counts stays, or a new session takes it away
      have hmark : tracker.finality = some mark := hmark
      rcases hfinality with hfinality | hfinality
      · exact .inl (.inr (hfinality.symm.trans hmark))
      · cases hfinality.symm.trans hmark

/-! ## Promises are settled -/

/-- Promises are settled. Where a lookup owes one of them, it has ended with the outcome as its
answer, and the counts have not changed before. -/
lemma Gains.of_settling (hf : s.Filed) {t : Tracker} {ps : List Id} {o : Outcome Answer}
    (hset : Settling (books { s.client with tracker := t }) s'.client.books ps o)
    (hmanual : s'.client.manualFinality = s.client.manualFinality)
    (hfinality : ∀ mark, t.finality = some mark → s.client.tracker.finality = some mark ∨
      ∃ i t, e = .job i ∧ s.Hears i .finalized t (.ok (.count mark)))
    (howes : ∀ i job p, p ∉ ps → s.client.Owes i job p → s'.client.Owes i job p)
    (hfinds : ∀ p ∈ ps, ∀ i m a, s.client.Owes i (.read (.findBatch m)) p → o = .ok a →
      t = s.client.tracker ∧ e = .job i ∧ s.Finds i m a) : s.Gains s' e where
  filed p m q hmem := by
    obtain ⟨hps, hmem⟩ := (hset.mem_continuations p _).1 hmem
    obtain ⟨i, ho⟩ := hf p m q hmem
    exact ⟨i, howes i _ p hps ho⟩
  entries := by
    refine hset.adds.mono ?_
    rintro m a ⟨ho, hfinal, p, hp, q, hmem⟩
    -- the cache waits for the promise, so that a lookup owes it
    obtain ⟨i, howed⟩ := hf p m q hmem
    obtain ⟨rfl, he, hfound⟩ := hfinds p hp i m a howed ho
    exact ⟨hfinal, i, he, hfound⟩
  marks := by
    rintro mark (hmark | hmark)
    · exact .inl (.inl (hmanual.symm.trans hmark))
    · have hbefore : t.finality = some mark := hset.frees.finality.symm.trans hmark
      obtain hmark | hears := hfinality mark hbefore
      · exact .inl (.inr hmark)
      · exact .inr (.inr hears)

/-- A step of the coordinator. -/
lemma Owned.gains_advances (h : s.Owned) (hf : s.Filed) (hadv : Advances s s') :
    s.Gains s' e := by
  obtain ⟨htasks, -, hmanual, ps, o, hset, hps⟩ := h.advances_outline hadv
  refine .of_settling hf hset hmanual (fun _ => .inl) (fun i job p _ ho => ?_) ?_
  · rwa [Owes, htasks]
  · intro p hp i m a ho
    exact absurd ho ((hps p hp).2 i _)

/-! ## Turns of jobs -/

/-- The finality mark after a job has concluded: it is as before, or a query of the finalized count
has ended with an answer. -/
lemma finality_concludeJob (c : Client σ φ) (job : Job) (result : Outcome Answer)
    {mark : MessageIndex} (h : (c.concludeJob job result).2.tracker.finality = some mark) :
    c.tracker.finality = some mark ∨
      ∃ t, job = .query .finalized t ∧ result = .ok (.count mark) := by
  obtain ⟨k, t, v, rfl, rfl, -, ht⟩ | ⟨ht, -⟩ := concludeJob_cases c job result
  · -- of the answers of queries only those that pass move the mark
    rw [ht] at h
    obtain ⟨-, -, -, hfinality⟩ | ⟨-, he⟩ | ⟨-, -, _, he⟩ := c.tracker.answer_cases k v t c.now
    · rw [hfinality] at h
      split at h
      · rename_i hk
        cases h
        exact .inr ⟨t, by rw [hk], rfl⟩
      · exact .inl h
    · rw [he] at h
      exact .inl h
    · rw [he] at h
      exact .inl h
  · rw [ht] at h
    exact .inl h

/-- A job settles its promise and is done. -/
lemma Owned.gains_ending (h : s.Owned) (hf : s.Filed) {i : Nat} {job : Job} {t : Tracker}
    {o : Outcome Answer} (ho : s.client.Owes i job p)
    (hset : Settling (books { s.client with tracker := t }) s'.client.books [p] o)
    (hmanual : s'.client.manualFinality = s.client.manualFinality)
    (htasks : s'.client.tasks = s.client.tasks.set i .finished)
    (hfinality : ∀ mark, t.finality = some mark → s.client.tracker.finality = some mark ∨
      ∃ t, s.Hears i .finalized t (.ok (.count mark)))
    (hfinds : ∀ m a, job = .read (.findBatch m) → o = .ok a →
      t = s.client.tracker ∧ s.Finds i m a) : s.Gains s' (.job i) := by
  refine .of_settling hf hset hmanual (fun mark hmark => ?_) (fun j job' q hq ho' => ?_) ?_
  · refine (hfinality mark hmark).imp_right ?_
    rintro ⟨t, hears⟩
    exact ⟨i, t, rfl, hears⟩
  · refine ho'.set_finished ?_ htasks
    rintro rfl
    obtain ⟨_, hi⟩ := ho
    obtain ⟨_, hj⟩ := ho'
    cases hi.symm.trans hj
    exact hq (List.mem_singleton_self _)
  · intro q hq j m a ho' hoa
    obtain rfl := List.mem_singleton.1 hq
    -- the lookup that owes the promise is the job that has its turn
    obtain rfl := h.jobs_once j i _ job q ho' ho
    obtain ⟨_, hi⟩ := ho
    obtain ⟨_, hj⟩ := ho'
    cases hi.symm.trans hj
    obtain ⟨ht, hfound⟩ := hfinds m a rfl hoa
    exact ⟨ht, rfl, hfound⟩

/-- A turn of a job. -/
lemma Owned.gains_turn (h : s.Owned) (hf : s.Filed) {i : Nat} {job : Job} {stage : JobStage φ}
    {c : Client σ φ} (hi : s.client.tasks[i]? = some (.job job p stage))
    (heff : JobEffect s.client i job p stage c) : s.Gains { s with client := c } (.job i) := by
  have ho : s.client.Owes i job p := ⟨stage, hi⟩
  obtain ⟨_, _, _, _, _, _, _, tasks, _, _, rfl, -, -, hcase⟩ :=
    heff.outline (h.jobs_pending i job p ho) (h.jobs_read i job p ho)
  obtain ⟨rfl, rfl, rfl, htasks⟩ | ⟨rfl, t, o, hends, hset⟩ := hcase
  · -- the job goes on
    refine .of_same hf rfl (.refl _ _) (fun _ => id) fun j job' q hq => ?_
    obtain rfl | ⟨stage', rfl⟩ := htasks
    · exact hq
    · exact hq.set_job ho rfl
  · cases hends with
    | drops hdrop =>
      refine h.gains_ending hf ho hset rfl rfl (fun _ => .inl) ?_
      rintro m a rfl rfl
      obtain hoa | hoa | hcall := hdrop
      · cases hoa
      · cases hoa
      · cases hcall
    | @answers retry result node htries =>
      refine h.gains_ending hf ho hset rfl rfl (fun mark hmark => ?_) ?_
      · refine (finality_concludeJob s.client job result hmark).imp_right ?_
        rintro ⟨t, rfl, rfl⟩
        exact ⟨t, p, stage, retry, node, hi, htries⟩
      · rintro m a rfl hoa
        cases result with
        | error e => cases hoa
        | ok b =>
          cases hoa
          exact ⟨rfl, p, stage, retry, node, hi, htries⟩

/-- A turn of a task. -/
lemma Owned.gains_job (h : s.Owned) (hf : s.Filed) (i : Nat) :
    s.Gains (s.after (.job i)) (.job i) := by
  have heff := turn_effect i h.no_direct
  rw [Situation.after]
  generalize s.client.turn (.task i) = c at heff
  cases heff with
  | stays => exact .of_same hf rfl (.refl _ _) (fun _ => id) fun _ _ _ => id
  | job hi heff => exact h.gains_turn hf hi heff
  | service hi =>
    refine .of_same hf rfl (.refl _ _) (fun _ => id) fun j job q ho => ?_
    exact (owes_set_service rfl hi).2 ho

/-- What every event may bring in, whatever the node answers. -/
theorem Owned.gains (h : s.Owned) (hf : s.Filed) (e : Event σ) : s.Gains (s.after e) e := by
  cases e with
  | ask a => exact gains_ask hf a
  | order o => exact gains_order hf o
  | job i => exact h.gains_job hf i
  | advance => exact h.gains_advances hf h.advances
  | clock schedule => exact .of_same hf rfl (.refl _ _) (fun _ => id) fun _ _ _ => id
  | node n => exact .of_same hf rfl (.refl _ _) (fun _ => id) fun _ _ _ => id

end Situation

end ConsensusLink
