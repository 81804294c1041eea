import ConsensusLink.Proofs.Sequencing.Order
/-!
# The published status

The coordinator publishes what it last learned about its role. A write that is under way is
published as such, and when a request has ended it is published how: with the tail of the log if it
was accepted, with the failure otherwise. A request that is rejected because the client is shut down
is not published. So what stands there is true, with one exception: when the client is shut down in
the middle of a write, this write remains published as under way, although nobody is at it any more.
-/

namespace ConsensusLink

open Promise Relation Client Situation Monitored

variable {σ φ : Type}

/-! ## What stands there -/

/-- The published status says how a request has ended. -/
inductive Coordinator.Reports (k : Coordinator) (r : SequencerRequest) : Outcome Answer → Prop
  | accepted (h : k.status = .confirmed k.view.tail) : k.Reports r (.ok .done)
  | refused {e} (h : k.status = .rejected r.pos? e) : k.Reports r (.error e)

/-- What is answered without the node is published. -/
lemma Coordinator.publish_of_answerLocally {k k' : Coordinator} {r : SequencerRequest}
    {o : Outcome Unit} (h : k.answerLocally r = (some o, k')) :
    ∃ k₀ : Coordinator, k' = k₀.publish r.pos? o := by
  cases r with
  | write pos msg =>
    rw [answerLocally] at h
    split at h <;> cases h
    exact ⟨_, rfl⟩
  | probe => cases h

lemma Coordinator.reports_publish (k : Coordinator) (r : SequencerRequest) (o : Outcome Unit) :
    (k.publish r.pos? o).Reports r (o.map fun _ => .done) := by
  cases o with
  | ok => exact .accepted rfl
  | error => exact .refused rfl

namespace Situation

/-- The last that the coordinator has done was to be at an attempt of a request. -/
def LastAt (s : Situation σ φ) (r : SequencerRequest) (p : Id) : Prop :=
  ∃ before after result, s.journal.head? = some (.attempted r p before after result)

/-- The coordinator has stopped, and the last that it has done was to be at an attempt of a
write. -/
structure CutShort (s : Situation σ φ) (pos : MessageIndex) (msg : Message) (p : Id) : Prop where
  stopped : s.client.coordinatorStage = .stopped
  lastAt : s.LastAt (.write pos msg) p

/-- No write is being handled. -/
def WritesNothing (s : Situation σ φ) : Prop :=
  ∀ pos msg p, s.atHand ≠ some (.write pos msg, p)

lemma writesNothing_of_none {s : Situation σ φ} (h : s.atHand = none) : s.WritesNothing := by
  intro pos msg p he
  cases h.symm.trans he

lemma lastAt_attempt (s : Situation σ φ) (r : SequencerRequest) (p : Id)
    (progress : AttemptProgress σ φ) : (s.attempt r p progress).LastAt r p := by
  cases progress <;> exact ⟨_, _, _, rfl⟩

/-- At an attempt its request is at hand. -/
lemma atHand_attempt {s : Situation σ φ} {r : SequencerRequest} {p : Id} {a : Attempts}
    {start : Option φ} {progress : AttemptProgress σ φ}
    (heff : AttemptEffect s.client r p a start progress) :
    (s.attempt r p progress).atHand = some (r, p) := by
  cases heff <;> rfl

lemma coordinator_attempt {s : Situation σ φ} {r : SequencerRequest} {p : Id} {a : Attempts}
    {start : Option φ} {progress : AttemptProgress σ φ}
    (heff : AttemptEffect s.client r p a start progress) :
    (s.attempt r p progress).client.coordinator = s.client.coordinator := by
  obtain ⟨_, _, _, _, hclient, -⟩ := heff.client_eq
  rw [client_attempt, hclient]

lemma lastAt_congr {s s' : Situation σ φ} (h : s'.journal = s.journal) {r : SequencerRequest}
    {p : Id} : s'.LastAt r p ↔ s.LastAt r p := by
  rw [LastAt, LastAt, h]

lemma LastAt.eq_of_lastAt {s : Situation σ φ} {r r' : SequencerRequest} {p p' : Id}
    (h : s.LastAt r p) (h' : s.LastAt r' p') : (r, p) = (r', p') := by
  obtain ⟨_, _, _, he⟩ := h
  obtain ⟨_, _, _, he'⟩ := h'
  cases he.symm.trans he'
  rfl

/-- What is at hand is taken up again; otherwise a request is taken up from the queue. -/
lemma TakesUp.atHand_or {s : Situation σ φ} {r : SequencerRequest} {p : Id} {a : Attempts}
    {start : Option φ} {coordinator : Coordinator} (h : s.TakesUp r p a start coordinator) :
    s.atHand = some (r, p) ∧ coordinator = s.client.coordinator ∨
      s.atHand = none ∧ ∃ queue k, coordinator = Coordinator.startCalls k r ∧
        Coordinator.answerLocally { s.client.coordinator with queue } r = (none, k) := by
  cases h with
  | resumes hs hc => exact .inl ⟨atHand_busy hs hc, rfl⟩
  | repeats hs => exact .inl ⟨atHand_judging hs, rfl⟩
  | begins hs hd hq hans => exact .inr ⟨atHand_taking hs, _, _, rfl, hans⟩

lemma TakesUp.not_stopped {s : Situation σ φ} {r : SequencerRequest} {p : Id} {a : Attempts}
    {start : Option φ} {coordinator : Coordinator} (h : s.TakesUp r p a start coordinator)
    (hrest : s.client.coordinatorStage = .stopped → s.stance = .resting) :
    s.client.coordinatorStage ≠ .stopped := by
  intro hstopped
  cases h with
  | resumes hs hc => cases hc.symm.trans hstopped
  | repeats hs => cases hs.symm.trans (hrest hstopped)
  | begins hs => cases hs.symm.trans (hrest hstopped)

/-- The published status says how the last request has ended that has ended so far, unless it was
rejected because of a shutdown. -/
structure Reported (s : Situation σ φ) (ended : List (SequencerRequest × Id)) : Prop where
  untouched : ended = [] → s.client.coordinator.status = .notSequencer
  reports : ∀ a ∈ ended.getLast?, ∃ o, s.client.promises.outcome? a.2 = some o ∧
    (o = .error .shutDown ∨ s.client.coordinator.Reports a.1 o)

/-- What the published status stands for. -/
inductive Standing (s : Situation σ φ) (ended : List (SequencerRequest × Id)) : Prop
  /-- A write is being handled, and published as under way. -/
  | writing {pos msg p} (hat : s.atHand = some (.write pos msg, p))
      (hlast : s.LastAt (.write pos msg) p)
      (hstatus : s.client.coordinator.status = .attemptingWrite pos)
  /-- No write is being handled, and the last one that was has ended. -/
  | reporting (hfree : s.WritesNothing) (hlast : ∀ pos msg p, ¬s.LastAt (.write pos msg) p)
      (hstatus : ∀ pos, s.client.coordinator.status ≠ .attemptingWrite pos)
      (hreported : s.Reported ended)
  /-- The client was shut down in the middle of a write. -/
  | cut {pos msg p} (hcut : s.CutShort pos msg p) (hfree : s.WritesNothing)
      (hstatus : s.client.coordinator.status = .attemptingWrite pos)
      (hdown : s.client.pool.isDown = true)
      (hout : s.client.promises.outcome? p = some (.error .shutDown)) (hended : ended ≠ [])
      (hrejected : ∀ a ∈ ended.getLast?,
        s.client.promises.outcome? a.2 = some (.error .shutDown))

variable {s s' : Situation σ φ} {ended now : List (SequencerRequest × Id)}

lemma standing_fresh (config : ClientConfig) (remote : Remote σ φ) (node : σ) :
    Standing (fresh config remote node) [] :=
  .reporting nofun nofun nofun ⟨fun _ => rfl, nofun⟩

/-! ## Beside the coordinator -/

lemma Reported.of_same (h : s.Reported ended)
    (hstatus : s'.client.coordinator.status = s.client.coordinator.status)
    (hview : s'.client.coordinator.view = s.client.coordinator.view)
    (hpersists : s.client.promises.Persists s'.client.promises) : s'.Reported ended where
  untouched he := hstatus.trans (h.untouched he)
  reports a ha := by
    obtain ⟨o, ho, hreports⟩ := h.reports a ha
    refine ⟨o, hpersists.outcome _ _ ho, hreports.imp_right fun hreports => ?_⟩
    cases hreports with
    | accepted he => exact .accepted (hstatus.trans (he.trans (by rw [hview])))
    | refused he => exact .refused (hstatus.trans he)

lemma Standing.after_aside (h : s.Standing ended) (howned : s.Owned) {e : Event σ}
    (he : e ≠ .advance) : (s.after e).Standing ended := by
  have ha := howned.aside_of_ne he
  have hpersists := howned.persists_after e
  have hstatus : (s.after e).client.coordinator.status = s.client.coordinator.status := by
    obtain ⟨_, hk⟩ := howned.coordinator_after he
    rw [hk]
  generalize s.after e = s' at ha hpersists hstatus
  have hat : s'.atHand = s.atHand := atHand_congr ha.stance ha.stage
  have hfree' : s.WritesNothing → s'.WritesNothing := fun hfree pos msg p => hat ▸ hfree pos msg p
  cases h with
  | writing hwrite hlast hattempts =>
    exact .writing (hat.trans hwrite) ((lastAt_congr ha.journal).2 hlast) (hstatus.trans hattempts)
  | reporting hfree hlast hother hreported =>
    refine .reporting (hfree' hfree) (fun pos msg p => ?_) (fun pos => hstatus ▸ hother pos)
      (hreported.of_same hstatus ha.view hpersists)
    rw [lastAt_congr ha.journal]
    exact hlast pos msg p
  | cut hcut hfree hattempts hdown hout hended hrejected =>
    -- a coordinator that has stopped is not started again
    have hstopped : s'.client.coordinatorStage = .stopped := by
      obtain hsame | ⟨hheld, -⟩ := ha.stage
      · exact hsame.trans hcut.stopped
      · cases hheld.symm.trans hcut.stopped
    exact .cut ⟨hstopped, (lastAt_congr ha.journal).2 hcut.lastAt⟩ (hfree' hfree)
      (hstatus.trans hattempts) (ha.isDown hdown) (hpersists.outcome _ _ hout) hended
      fun a ha => hpersists.outcome _ _ (hrejected a ha)

/-! ## Steps of the coordinator -/

/-- At an attempt of a write, the write is published as under way; at one of a probe, nothing is
published. -/
lemma Standing.attempt (h : s.Standing ended)
    (hrest : s.client.coordinatorStage = .stopped → s.stance = .resting) {r : SequencerRequest}
    {p : Id} {a : Attempts} {start : Option φ} {coordinator : Coordinator}
    {progress : AttemptProgress σ φ} (htake : s.TakesUp r p a start coordinator)
    (heff : AttemptEffect { s.client with coordinator } r p a start progress) :
    Standing (Situation.attempt { s with client := { s.client with coordinator } } r p progress)
      ended := by
  have hat := atHand_attempt (s := { s with client := { s.client with coordinator } }) heff
  have hlast := lastAt_attempt { s with client := { s.client with coordinator } } r p progress
  have hk := coordinator_attempt (s := { s with client := { s.client with coordinator } }) heff
  have hpromises : (Situation.attempt { s with client := { s.client with coordinator } } r p
      progress).client.promises = s.client.promises := by
    obtain ⟨_, _, _, _, hclient, -⟩ := heff.client_eq
    rw [client_attempt, hclient]
  generalize Situation.attempt _ r p progress = s' at hat hlast hk hpromises ⊢
  change s'.client.coordinator = coordinator at hk
  cases r with
  | write pos msg =>
    refine .writing hat hlast (hk ▸ ?_)
    obtain ⟨hhand, rfl⟩ | ⟨-, _, k, rfl, -⟩ := htake.atHand_or
    · cases h with
      | writing hwrite _ hstatus =>
        cases hwrite.symm.trans hhand
        exact hstatus
      | reporting hfree => exact absurd hhand (hfree _ _ _)
      | cut _ hfree => exact absurd hhand (hfree _ _ _)
    · rfl
  | probe =>
    have hsame : coordinator.status = s.client.coordinator.status ∧
        coordinator.view = s.client.coordinator.view := by
      obtain ⟨-, rfl⟩ | ⟨-, _, k, rfl, hans⟩ := htake.atHand_or
      · exact ⟨rfl, rfl⟩
      · cases hans
        exact ⟨rfl, rfl⟩
    rw [← hk] at hsame
    cases h with
    | writing hwrite =>
      obtain ⟨hhand, -⟩ | ⟨hhand, -⟩ := htake.atHand_or <;> cases hwrite.symm.trans hhand
    | reporting hfree _ hstatus hreported =>
      refine .reporting (fun pos msg q hw => ?_) (fun pos msg q hl => ?_)
        (fun pos => hsame.1 ▸ hstatus pos) (hreported.of_same hsame.1 hsame.2 (hpromises ▸ .refl _))
      · cases hat.symm.trans hw
      · cases hl.eq_of_lastAt hlast
    | cut hcut => exact absurd hcut.stopped (htake.not_stopped hrest)

/-- When a request has ended after its calls or without any, this is published. -/
lemma standing_published {r : SequencerRequest} {p : Id} {o : Outcome Unit} {k : Coordinator}
    (hstance : s'.stance = .taking) (hk : s'.client.coordinator = k.publish r.pos? o)
    (hout : s'.client.promises.outcome? p = some (o.map fun _ => .done))
    (hlast : ∀ pos msg q, ¬s'.LastAt (.write pos msg) q) : s'.Standing (ended ++ [(r, p)]) := by
  refine .reporting (fun pos msg q hat => ?_) hlast (fun pos hw => ?_) ⟨by simp, fun a ha => ?_⟩
  · rw [atHand, hstance] at hat
    cases hat
  · rw [hk] at hw
    cases o <;> cases hw
  · rw [List.getLast?_concat] at ha
    cases ha
    exact ⟨_, hout, .inr (hk ▸ k.reports_publish r o)⟩

/-- Without a write at hand, what was published last says how the last request has ended, unless a
shutdown came in between. -/
lemma Standing.of_writesNothing (h : s.Standing ended) (hfree : s.WritesNothing)
    (hrunning : s.client.coordinatorStage ≠ .stopped) :
    (∀ pos msg p, ¬s.LastAt (.write pos msg) p) ∧
      (∀ pos, s.client.coordinator.status ≠ .attemptingWrite pos) ∧ s.Reported ended := by
  cases h with
  | writing hat => exact absurd hat (hfree _ _ _)
  | reporting _ hlast hstatus hreported => exact ⟨hlast, hstatus, hreported⟩
  | cut hcut => exact absurd hcut.stopped hrunning

/-- What is rejected last is the last that has ended. -/
lemma rejected_getLast {o : Outcome Answer}
    (h : ∀ a ∈ now, s'.client.promises.outcome? a.2 = some o) (hne : now ≠ []) :
    ∀ a ∈ (ended ++ now).getLast?, s'.client.promises.outcome? a.2 = some o := by
  intro a ha
  rw [List.getLast?_append, List.getLast?_eq_some_getLast hne, Option.some_or] at ha
  exact h a (List.mem_of_getLast? ((List.getLast?_eq_some_getLast hne).trans ha))

lemma Standing.advance (h : s.Standing ended) (howned : s.Owned)
    (hrest : s.client.coordinatorStage = .stopped → s.stance = .resting)
    (hnow : s.duties = now ++ s.advance.duties) : s.advance.Standing (ended ++ now) := by
  -- a coordinator that has stopped makes no more steps
  by_cases hstopped : s.client.coordinatorStage = .stopped
  · have hsame : s.advance = s := by
      simp only [Situation.advance, hrest hstopped, hstopped]
    rw [hsame] at hnow ⊢
    rwa [List.self_eq_append_left.1 hnow, List.append_nil]
  have hadv := howned.advances
  have hpersists := howned.persists_after .advance
  rw [Situation.after] at hpersists
  generalize s.advance = s' at hadv hpersists hnow ⊢
  cases hadv with
  | idles hat hc hat' =>
    rw [duties, duties, hat, hat'] at hnow
    rw [List.self_eq_append_left.1 hnow, List.append_nil]
    obtain ⟨hlast, hstatus, hreported⟩ := h.of_writesNothing (writesNothing_of_none hat) hstopped
    refine .reporting (writesNothing_of_none hat') hlast hstatus ?_
    exact hreported.of_same rfl rfl hpersists
  | stops hcond hset hd =>
    obtain rfl : s.duties = now := hnow.trans (List.append_nil _)
    rename_i promises settlements batches blocks messageBatches tracker pool schedule
    have hrejected : ∀ a ∈ s.duties, promises.outcome? a.2 = some (.error .shutDown) :=
      fun a ha => hset.outcome a.2 (List.mem_map_of_mem ha)
    cases h with
    | @writing pos msg p hat hlast hstatus =>
      -- the coordinator stops in the middle of a write because the pool is down
      have hmem : (.write pos msg, p) ∈ s.duties := mem_duties_of_atHand hat
      have hne : s.duties ≠ [] := List.ne_nil_of_mem hmem
      have hdown : pool.isDown = true := hd.trans (hcond.resolve_right hne)
      have hout : promises.outcome? p = some (.error .shutDown) := hrejected _ hmem
      have hended : ended ++ s.duties ≠ [] := fun h => hne (List.append_eq_nil_iff.1 h).2
      exact .cut ⟨rfl, hlast⟩ (writesNothing_of_none rfl) hstatus hdown hout hended
        (rejected_getLast hrejected hne)
    | reporting hfree hlast hstatus hreported =>
      refine .reporting (writesNothing_of_none rfl) hlast hstatus ?_
      by_cases hne : s.duties = []
      · rw [hne, List.append_nil]
        exact hreported.of_same rfl rfl hpersists
      · refine ⟨fun he => absurd (List.append_eq_nil_iff.1 he).2 hne, fun a ha => ?_⟩
        exact ⟨_, rejected_getLast hrejected hne a ha, .inl rfl⟩
    | cut hcut => exact absurd hcut.stopped hstopped
  | attempts htake heff =>
    obtain ⟨hsame, -⟩ := htake.ends heff
    rw [List.nil_append] at hsame
    rw [hsame] at hnow
    rw [List.self_eq_append_left.1 hnow, List.append_nil]
    exact h.attempt hrest htake heff
  | concludes hs hj hset =>
    rename_i r p a o _ _ _ _ _ _
    rw [duties_judging hs] at hnow
    obtain rfl : [(r, p)] = now := List.append_cancel_right hnow
    refine standing_published rfl rfl (hset.outcome p (List.mem_singleton_self p)) ?_
    rintro _ _ _ ⟨_, _, _, ⟨⟩⟩
  | pauses hs hj =>
    rename_i r p a o delay next schedule
    have hat := atHand_judging hs
    rw [duties_judging hs] at hnow
    rw [List.self_eq_append_left.1 hnow, List.append_nil]
    cases h with
    | writing hwrite hlast hstatus =>
      refine .writing ?_ hlast hstatus
      rw [← hwrite, hat]
      rfl
    | reporting hfree hlast hstatus hreported =>
      refine .reporting (fun pos msg q hw => ?_) hlast hstatus (hreported.of_same rfl rfl hpersists)
      exact hfree pos msg q (hat.trans hw)
    | cut hcut => exact absurd hcut.stopped hstopped
  | answers hs hup hq hans hset =>
    rename_i r p queue o coordinator _ _ _ _ _ _
    obtain ⟨k, rfl⟩ := Coordinator.publish_of_answerLocally hans
    have hqueue := queue_answerLocally { s.client.coordinator with queue } r
    rw [hans] at hqueue
    have hduties : s.duties = (r, p) :: queue := (duties_taking hs).trans hq
    have hduties' : (r, p) :: queue = now ++ queue := by
      rw [← hduties, hnow]
      exact congrArg _ hqueue
    obtain rfl : [(r, p)] = now := List.append_cancel_right hduties'
    have hnone := writesNothing_of_none (atHand_taking hs)
    obtain ⟨hlast, -, -⟩ := h.of_writesNothing hnone hstopped
    exact standing_published rfl rfl (hset.outcome p (List.mem_singleton_self p)) hlast

end Situation

/-! ## Along runs -/

namespace Docket

variable {d : Docket σ φ} {moves : σ → σ → Prop}

theorem standing_of_runs {config : ClientConfig} {remote : Remote σ φ} {node : σ}
    (h : Runs moves (fresh config remote node) d) :
    ∃ ended, d.Kept ended ∧ d.situation.Standing ended := by
  induction h with
  | refl => exact ⟨[], kept_fresh config remote node, Situation.standing_fresh config remote node⟩
  | tail _ hstep ih =>
    obtain ⟨ended, hkept, hstanding⟩ := ih
    obtain ⟨e, -, rfl⟩ := hstep
    by_cases he : e = .advance
    · subst he
      obtain ⟨now, hnow, hkept'⟩ := hkept.after_advance
      refine ⟨ended ++ now, hkept', hstanding.advance hkept.owned (fun hs => ?_) hnow⟩
      exact (hkept.stopped hs).1
    · exact ⟨ended, hkept.after_aside he, hstanding.after_aside hkept.owned he⟩

/-- The last that was settled is the last that has ended. -/
lemma Kept.getLast?_settled {ended : List (SequencerRequest × Id)} (h : d.Kept ended)
    {r : SequencerRequest} {p : Id} (hmem : (r, p) ∈ d.admitted)
    (hlast : d.settled.getLast? = some p) : ended.getLast? = some (r, p) := by
  rw [h.settled, List.getLast?_map, Option.map_eq_some_iff] at hlast
  obtain ⟨⟨r', p'⟩, hlast, rfl⟩ := hlast
  have hmem' : (r', p') ∈ d.admitted := by
    rw [h.split]
    exact List.mem_append_left _ (List.mem_of_getLast? hlast)
  cases h.owned.asked_once p' _ _ (h.asked _ hmem') (h.asked _ hmem)
  exact hlast

/-- **What is published is true, but for a write that a shutdown has cut short.** Whatever is asked
by whom, however the node answers, and whenever the client is shut down: as long as no write is
being handled, a write is published as under way exactly if the coordinator has stopped in the
middle of it. Its promise is then rejected with the shutdown. Otherwise the published status says
how the last request has ended, unless this was rejected with a shutdown, too. -/
theorem published_truthfully {config : ClientConfig} {remote : Remote σ φ} {node : σ}
    (h : Runs moves (fresh config remote node) d) (hfree : d.situation.WritesNothing) :
    (∀ pos, d.situation.client.coordinator.status = .attemptingWrite pos ↔
        ∃ msg p, d.situation.CutShort pos msg p) ∧
      (∀ pos msg p, d.situation.CutShort pos msg p → d.situation.client.pool.isDown = true ∧
        d.situation.client.promises.outcome? p = some (.error .shutDown)) ∧
      (d.settled = [] → d.situation.client.coordinator.status = .notSequencer) ∧
      ∀ r p o, (r, p) ∈ d.admitted → d.settled.getLast? = some p →
        d.situation.client.promises.outcome? p = some o → o ≠ .error .shutDown →
        d.situation.client.coordinator.Reports r o := by
  obtain ⟨ended, hkept, hstanding⟩ := standing_of_runs h
  have hnone : d.settled = [] → ended = [] := fun he =>
    List.map_eq_nil_iff.1 (hkept.settled.symm.trans he)
  cases hstanding with
  | writing hat => exact absurd hat (hfree _ _ _)
  | reporting _ hlast hstatus hreported =>
    refine ⟨fun pos => iff_of_false (hstatus pos) ?_, ?_, ?_, ?_⟩
    · rintro ⟨msg, p, hcut⟩
      exact hlast pos msg p hcut.lastAt
    · exact fun pos msg p hcut => absurd hcut.lastAt (hlast pos msg p)
    · exact fun he => hreported.untouched (hnone he)
    · intro r p o hmem hsettled ho hdown
      obtain ⟨o', ho', hreports⟩ := hreported.reports _ (hkept.getLast?_settled hmem hsettled)
      cases ho'.symm.trans ho
      exact hreports.resolve_left hdown
  | @cut pos msg p hcut _ hstatus hdown hout hended hrejected =>
    refine ⟨fun pos' => ⟨fun he => ?_, ?_⟩, ?_, ?_, ?_⟩
    · cases hstatus.symm.trans he
      exact ⟨msg, p, hcut⟩
    · rintro ⟨msg', p', hcut'⟩
      cases hcut.lastAt.eq_of_lastAt hcut'.lastAt
      exact hstatus
    · intro pos' msg' p' hcut'
      cases hcut.lastAt.eq_of_lastAt hcut'.lastAt
      exact ⟨hdown, hout⟩
    · exact fun he => absurd (hnone he) hended
    · intro r q o hmem hsettled ho hne
      have hlast := hrejected _ (hkept.getLast?_settled hmem hsettled)
      exact absurd (Option.some.inj (ho.symm.trans hlast)) hne

/-! ## A write that a shutdown has cut short -/

/-- A node that accepts one write at once and takes its time for the next. -/
def unhurried : ScriptedNode where
  node := { leaseHeld := true }
  scripts := [(.write, [⟨0, .proceed⟩, ⟨50, .proceed⟩])]

/-- A client with room for two requests, before it did anything. -/
def narrow : Docket (Monitored ScriptedNode) ScriptedNode.Phase :=
  fresh { sequencer := { queueCapacity := 2 } } ScriptedNode.remote.monitored ⟨unhurried, []⟩

/-- Two writes are asked for, and a probe for which there is no room; after the first write has
ended there is room for another one. Then the client is shut down in the middle of the second
write. -/
def cutShort : Docket (Monitored ScriptedNode) ScriptedNode.Phase :=
  narrow.afterAll
    [.order .start, .ask (.sequence (.write (.ofNat 0) (.sample 0))),
      .ask (.sequence (.write (.ofNat 1) (.sample 1))), .ask (.sequence .probe), .advance, .advance,
      .advance, .ask (.sequence .probe), .advance, .order .shutDown, .advance]

lemma runs_cutShort : Runs Uncalled narrow cutShort :=
  Situation.reflTransGen_own rfl (fun e h _ => ⟨e, h _ _, rfl⟩) narrow

/-- The published status may say that a write is under way when no write is being handled. -/
theorem not_truthful_of_shutDown :
    ¬∀ (config : ClientConfig) (node : Monitored ScriptedNode)
      (d : Docket (Monitored ScriptedNode) ScriptedNode.Phase),
      Runs Uncalled (fresh config ScriptedNode.remote.monitored node) d →
      d.situation.WritesNothing →
      ∀ pos, d.situation.client.coordinator.status ≠ .attemptingWrite pos := by
  intro hclaim
  exact hclaim _ _ cutShort runs_cutShort nofun (.ofNat 1) rfl

/-- Here the coordinator has stopped in the middle of the second write, which is still published as
under way although it is rejected. -/
theorem published_truthfully_cutShort :
    cutShort.situation.WritesNothing ∧
      cutShort.situation.client.coordinator.status = .attemptingWrite (.ofNat 1) ∧
      ∃ msg p, cutShort.situation.CutShort (.ofNat 1) msg p ∧
        cutShort.situation.client.promises.outcome? p = some (.error .shutDown) := by
  have hfree : cutShort.situation.WritesNothing := nofun
  obtain ⟨hattempts, hcut, -⟩ := published_truthfully runs_cutShort hfree
  have hstatus : cutShort.situation.client.coordinator.status = .attemptingWrite (.ofNat 1) := rfl
  obtain ⟨msg, p, hshort⟩ := (hattempts _).1 hstatus
  exact ⟨hfree, hstatus, msg, p, hshort, (hcut _ _ _ hshort).2⟩

end Docket

end ConsensusLink
