import ConsensusLink.Proofs.Cache.Lookups
import Mathlib.Computability.Primrec.List
import Mathlib.Data.List.Permutation
/-!
# Which answers of lookups are final

A node may move a message from one batch to another until the message is final. A lookup is answered
with the batch of some moment between its start and its end, and the finality mark is a count that
the node had at some moment. The answer is kept if the message is below the mark when the lookup
*ends*, so that it may have been taken while the message was not final yet. `retained_final_iff`
says when what is kept is right nevertheless.
-/

namespace ConsensusLink

open Promise Relation Client

variable {σ φ : Type}

/-- What a node says of its messages from one moment to the next. -/
structure Chronicle where
  /-- How many messages are final. -/
  finalized : Nat → MessageIndex
  /-- The batch that contains a message, if there is one. -/
  batchOf : Nat → MessageIndex → Option BatchNumber
  /-- A message that is final stays in its batch. -/
  stays : ∀ m t t', t ≤ t' → m < finalized t → batchOf t' m = batchOf t m

/-- The final batch of a message. -/
def Chronicle.Final (n : Chronicle) (m : MessageIndex) (b : BatchNumber) : Prop :=
  ∃ u, m < n.finalized u ∧ ∀ t, u ≤ t → n.batchOf t m = some b

/-- Once a message is final, its final batch is the one it is in. -/
lemma Chronicle.final_iff {n : Chronicle} {m : MessageIndex} {b : BatchNumber} {u t : Nat}
    (hfinal : m < n.finalized u) (hle : u ≤ t) : n.Final m b ↔ n.batchOf t m = some b := by
  have hstays : ∀ t', u ≤ t' → n.batchOf t' m = n.batchOf u m := fun t' ht' =>
    n.stays m u t' ht' hfinal
  constructor
  · rintro ⟨u', -, hb⟩
    -- at the later one of the two moments the message is in the batch `b`
    have hlater := hb (max u' t) (Nat.le_max_left _ _)
    rw [hstays _ (Nat.le_trans hle (Nat.le_max_right _ _))] at hlater
    rw [hstays t hle, hlater]
  · intro hb
    refine ⟨u, hfinal, fun t' ht' => ?_⟩
    rw [hstays t' ht', ← hstays t hle, hb]

/-- A client, and a node that lives through one moment after the other. -/
structure Archive (σ φ : Type) where
  /-- The client. -/
  situation : Situation σ φ
  /-- How many moments have passed. -/
  moment : Nat := 0
  /-- The moment at which a task was started. -/
  started : Nat → Nat := fun _ => 0

namespace Archive

/-- The archive after an event. No moment passes during the event. -/
def after (w : Archive σ φ) (e : Event σ) : Archive σ φ where
  situation := w.situation.after e
  moment := w.moment
  started i := if i < w.situation.client.tasks.length then w.started i else w.moment

/-- The batch that is kept for a message. -/
def retained? (w : Archive σ φ) (m : MessageIndex) : Option Answer :=
  w.situation.client.messageBatches.ready.peek? m

/-- In a turn of the task `i` the node answers a lookup with the batch that the message was in at
some moment since the task was started, and a query of the finalized count with a count that it had
at some moment. -/
structure Honest (n : Chronicle) (w : Archive σ φ) (i : Nat) : Prop where
  batch : ∀ m a, w.situation.Finds i m a → ∃ t b, w.started i ≤ t ∧ t ≤ w.moment ∧
    n.batchOf t m = some b ∧ a = .batchNumber b
  finalized : ∀ t v, w.situation.Hears i .finalized t (.ok (.count v)) →
    ∃ u ≤ w.moment, v = n.finalized u

/-- What can happen to a client of a node: a moment passes, or something happens to the client, and
what the node answers is honest. A mark that is set by hand is a finalized count that the node had.
-/
inductive Step (n : Chronicle) (w : Archive σ φ) : Archive σ φ → Prop
  | passes : Step n w { w with moment := w.moment + 1 }
  | happens {e : Event σ} (hhonest : ∀ i, e = .job i → w.Honest n i)
      (hmark : ∀ v, e = .order (.mark (some (some v))) → ∃ u ≤ w.moment, v = n.finalized u) :
      Step n w (w.after e)

/-- A run, with the moments that pass. -/
def Runs (n : Chronicle) : Archive σ φ → Archive σ φ → Prop := ReflTransGen (Step n)

/-- A client that has done nothing yet, at the first moment. -/
def fresh (config : ClientConfig) (remote : Remote σ φ) (node : σ) : Archive σ φ where
  situation := .fresh config remote node

variable {n : Chronicle} {w w' : Archive σ φ} {m : MessageIndex} {a : Answer} {b : BatchNumber}
variable {config : ClientConfig} {remote : Remote σ φ} {node : σ}

/-- How the marks stand to the moments: each is a finalized count that the node had. -/
structure Dated (n : Chronicle) (w : Archive σ φ) : Prop where
  owned : w.situation.Owned
  filed : w.situation.Filed
  marks : ∀ v, w.situation.client.Marked v → ∃ u ≤ w.moment, v = n.finalized u

lemma dated_fresh (n : Chronicle) (config : ClientConfig) (remote : Remote σ φ) (node : σ) :
    Dated n (fresh config remote node) where
  owned := Situation.owned_fresh config remote node
  filed := Situation.filed_fresh config remote node
  marks := by rintro v (h | h) <;> cases h

/-- A step of a run: more moments have passed, or the event has brought in what it may. -/
lemma Dated.step (h : w.Dated n) (hstep : Step n w w') : w'.Dated n := by
  cases hstep with
  | passes =>
    refine ⟨h.owned, h.filed, fun v hv => ?_⟩
    obtain ⟨u, hu, hv⟩ := h.marks v hv
    exact ⟨u, Nat.le_succ_of_le hu, hv⟩
  | @happens e hhonest hmark =>
    have hgains := h.owned.gains h.filed e
    refine ⟨h.owned.after e, hgains.filed, fun v hv => ?_⟩
    obtain hv | he | ⟨i, t, he, hears⟩ := hgains.marks v hv
    · exact h.marks v hv
    · exact hmark v he
    · exact (hhonest i he).finalized t v hears

/-- Along every run. -/
lemma dated_of_runs (h : Runs n (fresh config remote node) w) : w.Dated n := by
  induction h with
  | refl => exact dated_fresh n config remote node
  | tail _ hstep ih => exact ih.step hstep

/-- What is final for the client, is final for the node. -/
lemma Dated.exists_finalized (h : w.Dated n) (hfinal : w.situation.client.isFinal m = true) :
    ∃ u ≤ w.moment, m < n.finalized u := by
  obtain ⟨mark, hmark, hlt⟩ := exists_marked hfinal
  obtain ⟨u, hu, rfl⟩ := h.marks mark hmark
  exact ⟨u, hu, hlt⟩

/-- In its turn the lookup `i` ends with the answer `a`, which is kept. -/
structure Retains (n : Chronicle) (w : Archive σ φ) (i : Nat) (m : MessageIndex) (a : Answer) :
    Prop where
  honest : w.Honest n i
  finds : w.situation.Finds i m a
  isFinal : w.situation.client.isFinal m = true

/-- What is kept was given as an answer in an earlier turn. The induction is on the run: in its last
step the answer has been kept now, or it was there before. -/
lemma exists_retains (h : Runs n (fresh config remote node) w) (ha : w.retained? m = some a) :
    ∃ w₀ i, Runs n (fresh config remote node) w₀ ∧ w₀.Retains n i m a ∧
      Runs n (w₀.after (.job i)) w := by
  induction h with
  | refl => cases ha
  | @tail w w' hruns hstep ih =>
    have hearlier : w.retained? m = some a → ∃ w₀ i, Runs n (fresh config remote node) w₀ ∧
        w₀.Retains n i m a ∧ Runs n (w₀.after (.job i)) w' := by
      intro hw
      obtain ⟨w₀, i, hruns₀, hretains, hrest⟩ := ih hw
      exact ⟨w₀, i, hruns₀, hretains, hrest.tail hstep⟩
    cases hstep with
    | passes => exact hearlier ha
    | @happens e hhonest hmark =>
      have hdated := dated_of_runs hruns
      have hgains := hdated.owned.gains hdated.filed e
      obtain hw | ⟨hfinal, i, rfl, hfinds⟩ := hgains.entries m a ha
      · exact hearlier hw
      · exact ⟨w, i, hruns, ⟨hhonest i rfl, hfinds, hfinal⟩, .refl⟩

/-- **Retained lookups and finality.** Whatever is kept for a message, was handed over to a lookup
of it in some turn, and is the batch that the message was in at some moment since this lookup was
started. It is the final batch of the message if and only if the message was still in this batch at
the moment of the turn; in particular, if the message was final when the lookup was started. -/
theorem retained_final_iff (h : Runs n (fresh config remote node) w)
    (ha : w.retained? m = some a) :
    ∃ w₀ i b, a = .batchNumber b ∧ Runs n (fresh config remote node) w₀ ∧
      w₀.situation.Finds i m a ∧ Runs n (w₀.after (.job i)) w ∧
      (∃ t, w₀.started i ≤ t ∧ t ≤ w₀.moment ∧ n.batchOf t m = some b) ∧
      (n.Final m b ↔ n.batchOf w₀.moment m = some b) ∧
      (m < n.finalized (w₀.started i) → n.Final m b) := by
  obtain ⟨w₀, i, hruns, hretains, hrest⟩ := exists_retains h ha
  -- the answer was taken while the lookup was under way, and the message was final by its end
  obtain ⟨t, b, hstart, hend, hsample, rfl⟩ := hretains.honest.batch m a hretains.finds
  obtain ⟨u, hu, hfinal⟩ := (dated_of_runs hruns).exists_finalized hretains.isFinal
  refine ⟨w₀, i, b, rfl, hruns, hretains.finds, hrest, ⟨t, hstart, hend, hsample⟩,
    Chronicle.final_iff hfinal hu, fun hstarted => ?_⟩
  exact (Chronicle.final_iff hstarted hstart).2 hsample

/-! ## A message that is moved while it is looked up -/

/-- A node that takes its answer when it is asked and hands it over later. Its state is the
moment. -/
def slow (n : Chronicle) : Remote Nat Answer where
  begin call _ t :=
    match call with
    | .findBatch m =>
      match n.batchOf t m with
      | some b => (.waits 20 (.batchNumber b), t)
      | none => (.ends (.error .timeout), t)
    | .count _ => (.waits 1 (.count (n.finalized t)), t)
    | _ => (.ends (.error .timeout), t)
  resume _ a _ t := (.ends (.ok a), t)

/-- Who begins a call is not answered in the same turn. -/
lemma slow_begin {call : Call} {now t t' : Nat} :
    (slow n).begin call now t ≠ (.ends (.ok a), t') := by
  unfold slow
  dsimp only
  split
  · split <;> simp
  · simp
  · simp

/-- The answer that is given in a turn was taken before. -/
lemma slow_tries {policy : Retry.Policy Failure} {call : Call} {now : Nat}
    {retry₀ retry : Retry.State} {start : Option Answer} {t t' : Nat}
    (h : (slow n).Tries policy call now retry₀ start t retry (.ends (.ok a)) t') :
    start = some a := by
  cases h with
  | first h =>
    cases h with
    | begun h => exact absurd h slow_begin
    | resumed h =>
      cases h
      rfl
  | again _ _ h =>
    cases h with
    | begun h => exact absurd h slow_begin

/-- Such a node is honest if what it has taken was true at a moment since the task was started. -/
lemma honest_slow {w : Archive Nat Answer} {i : Nat} {job : Job} {p : Id} {stage : JobStage Answer}
    (hremote : w.situation.client.remote = slow n)
    (hi : w.situation.client.tasks[i]? = some (.job job p stage))
    (hbatch : ∀ m a, job = .read (.findBatch m) → stage.phase? = some a → ∃ t b,
      w.started i ≤ t ∧ t ≤ w.moment ∧ n.batchOf t m = some b ∧ a = .batchNumber b)
    (hcount : ∀ k t v, job = .query k t → stage.phase? = some (.count v) →
      ∃ u ≤ w.moment, v = n.finalized u) : w.Honest n i := by
  constructor
  · rintro m a ⟨p', stage', retry, node, hi', call, hcall, htries⟩
    cases hi.symm.trans hi'
    rw [hremote] at htries
    exact hbatch m a rfl (slow_tries htries)
  · rintro t v ⟨p', stage', retry, node, hi', call, hcall, htries⟩
    cases hi.symm.trans hi'
    rw [hremote] at htries
    exact hcount .finalized t v rfl (slow_tries htries)

/-- All messages are moved from the batch 7 to the batch 0; then five of them are final. -/
def moving : Chronicle where
  finalized t := if t = 0 then .ofNat 0 else .ofNat 5
  batchOf t _ := if t = 0 then some (.ofNat 7) else some (.ofNat 0)
  stays m t t' hle hlt := by
    by_cases ht : t = 0
    · subst ht
      exact absurd hlt (Nat.not_lt_zero _)
    · have ht' : t' ≠ 0 := by omega
      rw [if_neg ht, if_neg ht']

/-- A message is looked up, and the answer is taken. -/
def looking : Archive Nat Answer :=
  ((fresh {} (slow moving) 0).after (.ask (.findBatch (.ofNat 2)))).after (.job 0)

/-- A moment later the finalized count is asked for, and its answer arrives first. -/
def moved : Archive Nat Answer :=
  [.node 1, .ask (.count .finalized), .job 1, .clock { now := 1 }, .job 1, .job 0].foldl
    after { looking with moment := 1 }

lemma runs_moved : Runs moving (fresh {} (slow moving) 0) moved := by
  have hlooking : Runs moving (fresh {} (slow moving) 0) looking := by
    refine .head (.happens (e := .ask (.findBatch (.ofNat 2))) nofun nofun) ?_
    refine .single (.happens (Event.forall_eq_job ?_) nofun)
    refine honest_slow rfl rfl ?_ ?_
    · rintro _ _ - ⟨⟩
    · rintro _ _ _ ⟨⟩
  have hmoment : Runs moving looking { looking with moment := 1 } := .single .passes
  have hclock (w : Archive Nat Answer) : Step moving w (w.after (.clock { now := 1 })) :=
    .happens nofun nofun
  refine (hlooking.trans hmoment).trans ?_
  refine .head (.happens (e := .node 1) nofun nofun) ?_
  refine .head (.happens (e := .ask (.count .finalized)) nofun nofun) ?_
  refine .head (.happens (e := .job 1) (Event.forall_eq_job ?_) nofun) ?_
  · -- `cbv` looks up with the equations of `List.lookup` in `Mathlib.Computability.Primrec.List`
    refine honest_slow (by cbv)
      (show _ = some (Task.job (.query .finalized ⟨0, 1⟩) ⟨1⟩ .waiting) by cbv) ?_ ?_
    · rintro _ _ ⟨⟩
    · rintro _ _ _ - ⟨⟩
  refine .head (hclock _) ?_
  refine .head (.happens (e := .job 1) (Event.forall_eq_job ?_) nofun)
    (.single (.happens (Event.forall_eq_job ?_) nofun))
  · -- the count that was taken at this moment
    refine honest_slow (by cbv) (by cbv) ?_ ?_
    · rintro _ _ ⟨⟩
    · rintro _ _ _ - ⟨⟩
      exact ⟨1, by cbv, rfl⟩
  · -- the batch that was taken at the moment before
    refine honest_slow (by cbv) (by cbv) ?_ ?_
    · rintro _ _ ⟨⟩ ⟨⟩
      exact ⟨0, _, by cbv, by cbv, rfl, rfl⟩
    · rintro _ _ _ ⟨⟩

lemma retained?_moved : moved.retained? (.ofNat 2) = some (.batchNumber (.ofNat 7)) := by
  cbv

/-- What is kept was the batch of the message when the lookup was started, but was not any more when
it was handed over. -/
theorem retained_final_iff_moved :
    moved.retained? (.ofNat 2) = some (.batchNumber (.ofNat 7)) ∧
      ∃ w₀ i b, Answer.batchNumber (.ofNat 7) = .batchNumber b ∧
        Runs moving (fresh {} (slow moving) 0) w₀ ∧
        w₀.situation.Finds i (.ofNat 2) (.batchNumber (.ofNat 7)) ∧
        Runs moving (w₀.after (.job i)) moved ∧
        (∃ t, w₀.started i ≤ t ∧ t ≤ w₀.moment ∧ moving.batchOf t (.ofNat 2) = some b) ∧
        (moving.Final (.ofNat 2) b ↔ moving.batchOf w₀.moment (.ofNat 2) = some b) ∧
        (.ofNat 2 < moving.finalized (w₀.started i) → moving.Final (.ofNat 2) b) :=
  ⟨retained?_moved, retained_final_iff runs_moved retained?_moved⟩

/-- What is kept for a message need not be its final batch, even if the node is honest. -/
theorem not_retained_final :
    ¬∀ (n : Chronicle) (w : Archive Nat Answer) (m : MessageIndex) (a : Answer),
      Runs n (fresh {} (slow n) 0) w → w.retained? m = some a →
      ∃ b, a = .batchNumber b ∧ n.Final m b := by
  intro h
  obtain ⟨b, hb, hfinal⟩ := h _ _ _ _ runs_moved retained?_moved
  cases hb
  -- the message is final at the second moment, and in another batch
  have hmoment : MessageIndex.ofNat 2 < moving.finalized 1 := by decide
  have hbatch := (Chronicle.final_iff hmoment (Nat.le_refl 1)).1 hfinal
  exact absurd hbatch (by decide)

end Archive

end ConsensusLink
