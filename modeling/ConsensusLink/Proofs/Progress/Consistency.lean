import ConsensusLink.Proofs.Node.Contract
import ConsensusLink.Proofs.Progress.Sessions
/-!
# Consistent nodes are not accused

The node has three counts at every moment. It is consistent if they are ordered at every moment and
do not decrease while a session lasts, and if it answers each query with a count that it had at some
moment since the query was issued. A `Watch` is a client whose node lives through such moments,
which pass between any two events. `Timely` compares the observations with the moments of the node.
Together with what holds of the queries by themselves it shows that no answer gives rise to an
accusation.
-/

namespace ConsensusLink

open Promise Relation Client

variable {σ φ : Type}

/-! ## Moments -/

/-- A client, and a node that lives through one moment after the other. -/
structure Watch (σ φ : Type) where
  /-- The client. -/
  situation : Situation σ φ
  /-- How many moments have passed. -/
  moment : Nat := 0
  /-- The moment at which the clock of the observations got to a value. -/
  reached : Nat → Nat := fun _ => 0

namespace Watch

/-- The watch after an event. No moment passes during the event. -/
def after (w : Watch σ φ) (e : Event σ) : Watch σ φ where
  situation := w.situation.after e
  moment := w.moment
  reached n := if n ≤ w.situation.observations.clock then w.reached n else w.moment

/-- In a turn of the task `i` the node answers queries with counts that it had at some moment
between the issue of the query and now. It may fail, but none of its failures is an accusation. -/
structure Honest (counts : Nat → MessageCounts) (w : Watch σ φ) (i : Nat) : Prop where
  sample : ∀ k t v, w.situation.Hears i k t (.ok (.count v)) →
    ∃ m, w.reached t.issued ≤ m ∧ m ≤ w.moment ∧ v = (counts m).get k
  fine : ∀ k t e, w.situation.Hears i k t (.error e) → ¬e.Accuses

/-- What can happen to a client of a node that has the counts `counts m` at the moment `m`: a moment
passes in which the counts do not decrease; a new session is started, and the counts may be any; or
something else happens, and the answers that are heard are honest. -/
inductive Step (counts : Nat → MessageCounts) (w : Watch σ φ) : Watch σ φ → Prop
  | passes (h : ∀ k, (counts w.moment).get k ≤ (counts (w.moment + 1)).get k) :
      Step counts w { w with moment := w.moment + 1 }
  | restarts :
      Step counts w
        { w with situation := w.situation.after (.order .newSession), moment := w.moment + 1 }
  | happens {e : Event σ} (he : e ≠ .order .newSession)
      (h : ∀ i, e = .job i → w.Honest counts i) : Step counts w (w.after e)

/-- A run, with the moments that pass. -/
def Runs (counts : Nat → MessageCounts) : Watch σ φ → Watch σ φ → Prop :=
  ReflTransGen (Step counts)

/-- A client that has done nothing yet, at the first moment. -/
def fresh (config : ClientConfig) (remote : Remote σ φ) (node : σ) : Watch σ φ where
  situation := .fresh config remote node

variable {counts : Nat → MessageCounts} {w w' : Watch σ φ}

/-- How the observations stand to the moments. -/
structure Timely (counts : Nat → MessageCounts) (w : Watch σ φ) : Prop where
  /-- The clock got where it is at moments that have come. -/
  reached : ∀ n, n ≤ w.situation.observations.clock → w.reached n ≤ w.moment
  /-- What was observed is not above the counts of now. -/
  current : ∀ k o, w.situation.observations.latest.get k = some o →
    o.value ≤ (counts w.moment).get k
  /-- Since a query of this session was issued the counts have not decreased. -/
  increasing : ∀ i k t p, w.situation.client.Owes i (.query k t) p →
    t.session = w.situation.observations.session → ∀ m, w.reached t.issued ≤ m → m ≤ w.moment →
    ∀ d, (counts m).get d ≤ (counts w.moment).get d
  /-- And what was recorded before it was issued has not been above them. -/
  bounded : ∀ i k t p, w.situation.client.Owes i (.query k t) p →
    t.session = w.situation.observations.session → ∀ m, w.reached t.issued ≤ m → m ≤ w.moment →
    ∀ d o, w.situation.observations.latest.get d = some o → o.recorded < t.issued →
      o.value ≤ (counts m).get d

lemma reached_after {n : Nat} (h : n ≤ w.situation.observations.clock) (e : Event σ) :
    (w.after e).reached n = w.reached n := if_pos h

namespace Timely

lemma fresh (counts : Nat → MessageCounts) (config : ClientConfig) (remote : Remote σ φ)
    (node : σ) : Timely counts (fresh config remote node) where
  reached _ _ := Nat.le_refl _
  current := by rintro (_ | _ | _) o ⟨⟩
  increasing := by rintro i k t p ⟨stage, h⟩; cases h
  bounded := by rintro i k t p ⟨stage, h⟩; cases h

/-- A moment passes. -/
lemma passes (h : w.Timely counts)
    (hstep : ∀ k, (counts w.moment).get k ≤ (counts (w.moment + 1)).get k) :
    Timely counts { w with moment := w.moment + 1 } where
  reached n hn := Nat.le_succ_of_le (h.reached n hn)
  current k o ho := Nat.le_trans (h.current k o ho) (hstep k)
  increasing i k t p ho hs m hm hle d := by
    rcases Nat.le_succ_iff.1 hle with hle | rfl
    · exact Nat.le_trans (h.increasing i k t p ho hs m hm hle d) (hstep d)
    · exact Nat.le_refl _
  bounded i k t p ho hs m hm hle d o hl hprec := by
    rcases Nat.le_succ_iff.1 hle with hle | rfl
    · exact h.bounded i k t p ho hs m hm hle d o hl hprec
    · exact Nat.le_trans (h.current d o hl) (hstep d)

/-- A new session starts: nothing is observed yet, and there are no queries. -/
lemma restarts (h : w.Timely counts) (horder : w.situation.Orderly) :
    Timely counts
      { w with situation := w.situation.after (.order .newSession), moment := w.moment + 1 } where
  reached n hn := Nat.le_succ_of_le (h.reached n hn)
  current := by rintro (_ | _ | _) o ⟨⟩
  increasing i k t p ho hs := by
    have hle := horder.session i k t p ho
    rw [show t.session = w.situation.observations.session + 1 from hs] at hle
    exact absurd hle (Nat.not_succ_le_self _)
  bounded i k t p ho hs m hm hle := by rintro (_ | _ | _) o ⟨⟩

variable {e : Event σ}

/-- The moments of what the clock got to before an event. -/
lemma reached_after_le (h : w.Timely counts) (n : Nat) : (w.after e).reached n ≤ w.moment := by
  by_cases hn : n ≤ w.situation.observations.clock
  · rw [reached_after hn]
    exact h.reached n hn
  · exact Nat.le_of_eq (if_neg hn)

lemma quiet (h : w.Timely counts) (horder : w.situation.Orderly) {turn : Option Nat}
    (hq : w.situation.Quiet (w.situation.after e) turn) : Timely counts (w.after e) where
  reached n _ := h.reached_after_le n
  current k o ho := h.current k o (hq.latest ▸ ho)
  increasing i k t p ho hs m hm hle d := by
    have ho' := hq.queries i k t p ho
    rw [reached_after (horder.issued i k t p ho')] at hm
    exact h.increasing i k t p ho' (hs.trans hq.session) m hm hle d
  bounded i k t p ho hs m hm hle d o hl := by
    have ho' := hq.queries i k t p ho
    rw [reached_after (horder.issued i k t p ho')] at hm
    exact h.bounded i k t p ho' (hs.trans hq.session) m hm hle d o (hq.latest ▸ hl)

/-- The query that is issued now has seen this moment only. -/
lemma issues (h : w.Timely counts) (horder : w.situation.Orderly) {k : Counter} {p : Id}
    (hi : w.situation.Issues (w.situation.after e) k p) : Timely counts (w.after e) := by
  have hlatest : (w.after e).situation.observations.latest = w.situation.observations.latest := by
    rw [after, hi.observations]
    rfl
  have hsession : (w.after e).situation.observations.session =
      w.situation.observations.session := by
    rw [after, hi.observations]
    rfl
  have hnow : ∀ {m}, (w.after e).reached w.situation.observations.issue.1.issued ≤ m →
      m ≤ w.moment → m = w.moment := by
    intro m hm hle
    rw [show (w.after e).reached w.situation.observations.issue.1.issued = w.moment from
      if_neg (Nat.not_succ_le_self _)] at hm
    exact Nat.le_antisymm hle hm
  refine
    { reached := fun n _ => h.reached_after_le n
      current := fun k o ho => h.current k o (hlatest ▸ ho)
      increasing := fun i k' t q ho hs m hm hle d => ?_
      bounded := fun i k' t q ho hs m hm hle d o hl hprec => ?_ }
  · obtain ho' | ⟨-, rfl, -⟩ := hi.queries i k' t q ho
    · rw [reached_after (horder.issued i k' t q ho')] at hm
      exact h.increasing i k' t q ho' (hs.trans hsession) m hm hle d
    · rw [hnow hm hle]
      exact Nat.le_refl _
  · rw [hlatest] at hl
    obtain ho' | ⟨-, rfl, -⟩ := hi.queries i k' t q ho
    · rw [reached_after (horder.issued i k' t q ho')] at hm
      exact h.bounded i k' t q ho' (hs.trans hsession) m hm hle d o hl hprec
    · rw [hnow hm hle]
      exact h.current d o hl

/-- The answer that is recorded now is not above the counts of now, and was not recorded before any
query that is still there was issued. -/
lemma records (h : w.Timely counts) (horder : w.situation.Orderly) {i : Nat} {k : Counter}
    {t : Ticket} {p : Id} {v : MessageIndex}
    (hr : w.situation.Records (w.situation.after e) i k t v)
    (howes : w.situation.client.Owes i (.query k t) p)
    (hv : ∃ m, w.reached t.issued ≤ m ∧ m ≤ w.moment ∧ v = (counts m).get k) :
    Timely counts (w.after e) := by
  have hs := hr.passes.session
  have hsession : (w.after e).situation.observations.session =
      w.situation.observations.session := by
    rw [after, hr.observations]
    rfl
  have hlatest : ∀ {d o}, (w.after e).situation.observations.latest.get d = some o →
      (d = k ∧ o.value = v ∧ o.recorded = w.situation.observations.clock + 1) ∨
        w.situation.observations.latest.get d = some o := by
    intro d o ho
    rw [after, hr.observations] at ho
    by_cases hd : d = k
    · subst hd
      cases Observations.latest_record_self.symm.trans ho
      exact .inl ⟨rfl, rfl, rfl⟩
    · rw [Observations.latest_record_of_ne hd] at ho
      exact .inr ho
  refine
    { reached := fun n _ => h.reached_after_le n
      current := fun d o ho => ?_
      increasing := fun j k' t' q ho hs' m hm hle d => ?_
      bounded := fun j k' t' q ho hs' m hm hle d o hl hprec => ?_ }
  · obtain ⟨rfl, rfl, -⟩ | ho := hlatest ho
    · obtain ⟨m, hm, hle, hv⟩ := hv
      rw [hv]
      exact h.increasing i d t p howes hs m hm hle d
    · exact h.current d o ho
  · obtain ⟨ho', -⟩ := hr.queries j k' t' q ho
    rw [reached_after (horder.issued j k' t' q ho')] at hm
    exact h.increasing j k' t' q ho' (hs'.trans hsession) m hm hle d
  · obtain ⟨ho', -⟩ := hr.queries j k' t' q ho
    have hissued := horder.issued j k' t' q ho'
    rw [reached_after hissued] at hm
    obtain ⟨-, -, hrec⟩ | hl := hlatest hl
    · exact absurd hissued (by omega)
    · exact h.bounded j k' t' q ho' (hs'.trans hsession) m hm hle d o hl hprec

end Timely

/-- Honest answers are consistent with what was observed. -/
lemma Honest.consistent (hordered : ∀ m, (counts m).isOrdered = true) {i : Nat}
    (h : w.Honest counts i) (horder : w.situation.Orderly) (htimely : w.Timely counts) :
    w.situation.Consistent i where
  fine := h.fine
  admits k t p v ho hs hears := by
    obtain ⟨m, hm, hle, hv⟩ := h.sample k t v hears
    exact ⟨counts m, hordered m, hv, fun o => horder.own i k t p o ho hs,
      htimely.bounded i k t p ho hs m hm hle⟩

/-- Every step of a watch is a step of the client, or none. -/
lemma Step.step (h : Step counts w w') :
    w'.situation = w.situation ∨ Situation.Step (fun _ _ => True) w.situation w'.situation := by
  cases h with
  | passes => exact .inl rfl
  | restarts => exact .inr ⟨.order .newSession, trivial, rfl⟩
  | @happens e he _ =>
    refine .inr ⟨e, ?_, rfl⟩
    cases e <;> trivial

lemma runs_situation {config : ClientConfig} {remote : Remote σ φ} {node : σ}
    (h : Runs counts (fresh config remote node) w) :
    Situation.Runs (fun _ _ => True) (.fresh config remote node) w.situation := by
  induction h with
  | refl => exact .refl
  | tail _ hstep ih =>
    obtain he | hs := hstep.step
    · rw [he]
      exact ih
    · exact ih.tail hs

/-- Whoever asked for a count is handed a promise that accuses nobody. -/
def Fair (w : Watch σ φ) : Prop :=
  ∀ p k, (p, Ask.count k) ∈ w.situation.asked → w.situation.Fair p

lemma Fair.tidy (h : w.Fair) (horder : w.situation.Orderly) {e : Event σ} {turn : Option Nat}
    (ht : w.situation.Tidy (w.situation.after e) turn)
    (hconsistent : ∀ i, turn = some i → w.situation.Consistent i) : (w.after e).Fair := by
  intro p k hp
  obtain hp | hp | hp := ht.asked p k hp
  · exact ht.fair hconsistent (h p k hp)
  · exact hp
  · -- the promise is that of the query under way
    obtain ⟨i, t, ho, -⟩ := horder.pending k p hp
    exact ht.fair hconsistent (.inl ⟨i, k, t, ho⟩)

/-- Along every run. -/
lemma fair_of_runs (hordered : ∀ m, (counts m).isOrdered = true) {config : ClientConfig}
    {remote : Remote σ φ} {node : σ} (h : Runs counts (fresh config remote node) w) :
    w.Timely counts ∧ w.Fair := by
  induction h with
  | refl => exact ⟨.fresh counts config remote node, fun _ _ h => nomatch h⟩
  | @tail w _ hruns hstep ih =>
    obtain ⟨htimely, hfair⟩ := ih
    have hruns := runs_situation hruns
    have howned := Situation.owned_of_runs hruns
    have horder := Situation.orderly_of_runs hruns
    cases hstep with
    | passes hle => exact ⟨htimely.passes hle, hfair⟩
    | restarts => exact ⟨htimely.restarts horder, hfair⟩
    | @happens e he hhonest =>
      -- what is honest now is consistent with all that was observed before
      have hconsistent : ∀ i, e.turn? = some i → w.situation.Consistent i := by
        intro i hi
        refine (hhonest i ?_).consistent hordered horder htimely
        cases e <;> cases hi
        rfl
      have hpolls := howned.polls horder.watched he
      refine ⟨?_, hfair.tidy horder hpolls.tidy hconsistent⟩
      cases hpolls with
      | quiet hq => exact htimely.quiet horder hq
      | issues hi => exact htimely.issues horder hi
      | @records i k t p v hr howes hears =>
        exact htimely.records horder hr howes ((hhonest i rfl).sample k t v hears)

/-- **Consistent nodes are not accused.** Let the counts of the node be ordered at every moment, not
decrease while a session lasts, and let it answer queries with counts that it had since they were
issued. Then the promise of a count is never rejected because the count went backwards, or because
it is below a count that it dominates. -/
theorem consistent_node_not_accused (hordered : ∀ m, (counts m).isOrdered = true)
    {config : ClientConfig} {remote : Remote σ φ} {node : σ}
    (h : Runs counts (fresh config remote node) w) {p : Id} {k : Counter}
    (hp : (p, Ask.count k) ∈ w.situation.asked) :
    (∀ c previous observed, w.situation.client.promises.outcome? p ≠
        some (.error (.nonMonotonic c previous observed))) ∧
      ∀ c observed d bound, w.situation.client.promises.outcome? p ≠
        some (.error (.orderViolation c observed d bound)) := by
  have hfair := (fair_of_runs hordered h).2 p k hp
  have howned := Situation.owned_of_runs (runs_situation h)
  -- a promise of a count is pending, or settled with what is no accusation
  have hfine : ∀ e, w.situation.client.promises.outcome? p = some (.error e) → ¬e.Accuses := by
    intro e ho
    obtain ⟨i, c, t, howes⟩ | ⟨o, ho', hfine⟩ := hfair
    · cases (howned.jobs_pending i _ p howes).outcome?_eq.symm.trans ho
    · cases ho'.symm.trans ho
      exact hfine e rfl
  exact ⟨fun _ _ _ ho => hfine _ ho trivial, fun _ _ _ _ ho => hfine _ ho trivial⟩

/-! ## Answers that overtake each other -/

/-- A node, known by its counts, that takes its answer when it is asked and hands it over later. -/
def tardy : Remote MessageCounts MessageIndex where
  begin call _ n :=
    match call with
    | .count k => (.waits 1 (n.get k), n)
    | _ => (.ends (.error .timeout), n)
  resume _ v _ n := (.ends (.ok (.count v)), n)

/-- In a turn a query is given the answer that was taken before, or waits for one. -/
lemma tardy_tries {policy : Retry.Policy Failure} {k : Counter} {now : Nat}
    {retry₀ retry : Retry.State} {start : Option MessageIndex} {n n' : MessageCounts}
    {progress : CallProgress MessageIndex}
    (h : tardy.Tries policy (.count k) now retry₀ start n retry progress n') :
    (∃ ms v, progress = .waits ms v) ∨ ∃ v, start = some v ∧ progress = .ends (.ok (.count v)) := by
  induction h with
  | first h =>
    cases h with
    | begun h =>
      cases h
      exact .inl ⟨_, _, rfl⟩
    | resumed h =>
      cases h
      exact .inr ⟨_, rfl, rfl⟩
  | again _ hj _ ih =>
    obtain ⟨_, _, he⟩ | ⟨v, -, he⟩ := ih
    · cases he
    · cases he
      obtain ⟨_, he, -⟩ := judge_again hj
      cases he

/-- Such a node is honest if its answers were true at moments since the query was issued. -/
lemma honest_tardy {w : Watch MessageCounts MessageIndex} {i : Nat} {k : Counter} {t : Ticket}
    {p : Id} {stage : JobStage MessageIndex} (hremote : w.situation.client.remote = tardy)
    (hi : w.situation.client.tasks[i]? = some (.job (.query k t) p stage))
    (hstage : ∀ v, stage.phase? = some v →
      ∃ m, w.reached t.issued ≤ m ∧ m ≤ w.moment ∧ v = (counts m).get k) :
    w.Honest counts i := by
  have hheard : ∀ {k' t' result}, w.situation.Hears i k' t' result →
      k' = k ∧ t' = t ∧ ∃ v, stage.phase? = some v ∧ result = .ok (.count v) := by
    rintro k' t' result ⟨p', stage', retry, node, hi', call, hcall, htries⟩
    cases hi.symm.trans hi'
    cases hcall
    rw [hremote] at htries
    obtain ⟨_, _, he⟩ | ⟨v, hv, he⟩ := tardy_tries htries
    · cases he
    · cases he
      exact ⟨rfl, rfl, v, hv, rfl⟩
  constructor
  · intro k' t' v hears
    obtain ⟨rfl, rfl, _, hv, he⟩ := hheard hears
    cases he
    exact hstage v hv
  · intro k' t' e hears
    obtain ⟨-, -, _, -, he⟩ := hheard hears
    cases he

/-- The finalized count grows beyond what the safe count was before. -/
def growing (m : Nat) : MessageCounts :=
  if m = 0 then ⟨.ofNat 5, .ofNat 7, .ofNat 9⟩ else ⟨.ofNat 8, .ofNat 8, .ofNat 9⟩

/-- The safe count is asked for, and its answer is taken. -/
def overtaking : Watch MessageCounts MessageIndex :=
  ((fresh {} tardy (growing 0)).after (.ask (.count .safe))).after (.job 0)

/-- A moment later the finalized count is asked for, and its answer arrives first. -/
def overtaken : Watch MessageCounts MessageIndex :=
  [.node (growing 1), .ask (.count .finalized), .job 1, .clock { now := 1 }, .job 1, .job 0].foldl
    after { overtaking with moment := 1 }

lemma runs_overtaken : Runs growing (fresh {} tardy (growing 0)) overtaken := by
  have hmoment : Runs growing overtaking { overtaking with moment := 1 } :=
    .single (.passes fun k => by cases k <;> decide)
  have hsafe : Runs growing (fresh {} tardy (growing 0)) overtaking := by
    refine .head (.happens (e := .ask (.count .safe)) nofun nofun) ?_
    refine .single (.happens nofun (Event.forall_eq_job ?_))
    refine honest_tardy rfl rfl ?_
    rintro v ⟨⟩
  have hclock (w : Watch MessageCounts MessageIndex) :
      Step growing w (w.after (.clock { now := 1 })) := .happens nofun nofun
  refine (hsafe.trans hmoment).trans ?_
  refine .head (.happens (e := .node (growing 1)) nofun nofun) ?_
  refine .head (.happens (e := .ask (.count .finalized)) nofun nofun) ?_
  refine .head (.happens (e := .job 1) nofun (Event.forall_eq_job ?_)) ?_
  · refine honest_tardy (by cbv)
      (show _ = some (Task.job (.query .finalized ⟨0, 2⟩) ⟨1⟩ .waiting) by cbv) ?_
    rintro v ⟨⟩
  refine .head (hclock _) ?_
  refine .head (.happens (e := .job 1) nofun (Event.forall_eq_job ?_))
    (.single (.happens nofun (Event.forall_eq_job ?_)))
  · -- the answer that was taken at this moment
    refine honest_tardy (by cbv) (by cbv) ?_
    rintro v ⟨⟩
    exact ⟨1, by cbv, by cbv, rfl⟩
  · -- the answer that was taken at the moment before
    refine honest_tardy (by cbv) (by cbv) ?_
    rintro v ⟨⟩
    exact ⟨0, by cbv, by cbv, rfl⟩

/-- The safe count comes after a finalized count that is larger, and nobody is accused. -/
theorem consistent_node_not_accused_overtaken :
    (overtaken.situation.client.promises.outcome? ⟨1⟩ = some (.ok (.count (.ofNat 8))) ∧
      overtaken.situation.client.promises.outcome? ⟨0⟩ = some (.ok (.count (.ofNat 7)))) ∧
    (∀ c previous observed, overtaken.situation.client.promises.outcome? ⟨0⟩ ≠
        some (.error (.nonMonotonic c previous observed))) ∧
      ∀ c observed d bound, overtaken.situation.client.promises.outcome? ⟨0⟩ ≠
        some (.error (.orderViolation c observed d bound)) := by
  have hordered : ∀ m, (growing m).isOrdered = true := by
    intro m
    unfold growing
    split <;> rfl
  have hp : (⟨0⟩, Ask.count .safe) ∈ overtaken.situation.asked :=
    List.mem_of_getElem? (i := 1) (by cbv)
  exact ⟨⟨by cbv, by cbv⟩, consistent_node_not_accused hordered runs_overtaken hp⟩

end Watch

end ConsensusLink
