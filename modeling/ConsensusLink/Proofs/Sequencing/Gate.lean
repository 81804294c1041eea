import ConsensusLink.Proofs.Client.Settlements
import ConsensusLink.Proofs.Node.Monitored
import ConsensusLink.Proofs.Sequencing.Writing
/-!
# The gate after a doubtful write

When a write ends and nobody knows whether it was applied, the coordinator closes a gate: until a
probe has confirmed the lease it sends nothing but probes to the node. `Gated` is what it keeps in
mind meanwhile, and `Owned.gate_step` says that every event leaves the gate closed, unless it ends a
probe that succeeds. The tail is forgotten when the gate closes. Opening the gate does not bring it
back: it is known again only when the node has accepted a write or has told where the log ends.
-/

namespace ConsensusLink

open Promise Relation Client Monitored

variable {σ φ : Type}

/-! ## What a view does while the lease must be confirmed -/

namespace LogView

variable {v v' : LogView} {pos : MessageIndex} {msg : Message} {o : Outcome Unit}

/-- The gate comes before everything else that is known, recent writes included. -/
lemma check_of_probeRequired (h : v.probeRequired = true) (pos : MessageIndex) (msg : Message) :
    v.check pos msg = (some (.error .probeRequired), v) := by
  rw [check, if_pos h]

/-- A view does not answer that it does not know. -/
lemma check_ne_outcomeUnknown (h : v.check pos msg = (some o, v')) (q : MessageIndex) :
    o ≠ .error (.outcomeUnknown q) := by
  unfold check at h
  split at h
  · cases h
    nofun
  · split at h
    · cases h
      split <;> nofun
    · split at h
      · cases h
      · split at h
        · cases h
          nofun
        · cases h

/-- A probe that fails does not open the gate, not even if the lease turns out to be lost. -/
lemma probeRequired_afterProbe (v : LogView) (e : Failure) :
    (v.afterProbe (.error e)).probeRequired = v.probeRequired := by
  unfold afterProbe
  split
  · rename_i he
    cases he
  · rfl
  · rfl

/-- Probes tell nothing of the tail. -/
lemma tail_afterProbe (h : v.tail = none) (o : Outcome Unit) : (v.afterProbe o).tail = none := by
  unfold afterProbe
  split
  · exact h
  · rfl
  · exact h

/-- The outcomes of a write that tell something of the tail: the node has accepted a position, or
has reported the one that it expects. -/
def Locates (o : Outcome Unit) : Prop :=
  o = .ok () ∨ ∃ expected got, o = .error (.outOfOrder (some expected) got)

lemma tail_afterWrite (h : (v.afterWrite pos msg o).tail ≠ none) : v.tail ≠ none ∨ Locates o := by
  unfold afterWrite at h
  split at h
  · exact .inr (.inl rfl)
  · exact absurd rfl h
  · rename_i expected got
    cases expected with
    | none => exact absurd rfl h
    | some e => exact .inr (.inr ⟨e, got, rfl⟩)
  · exact absurd rfl h
  · exact .inl h

end LogView

/-- What tells something of the tail is what the last attempt of the write has come to. -/
lemma LogView.Locates.of_conclude {a : Attempts} {r : SequencerRequest} {o : Outcome Unit}
    (h : LogView.Locates (a.conclude r o)) : LogView.Locates o := by
  unfold Attempts.conclude at h
  split at h
  · split at h
    · obtain ⟨⟨⟩⟩ | ⟨_, _, ⟨⟩⟩ := h
    · exact h
  · exact h

namespace Situation

variable {s s' t : Situation σ φ} {moves : σ → σ → Prop} {p : Id}

/-! ## Events -/

/-- An event is a step of the coordinator, or leaves alone what it knows and has published. -/
lemma Owned.step_cases (h : s.Owned) (hstep : Step moves s s') :
    Advances s s' ∨
      s.Aside s' ∧ s'.client.coordinator.status = s.client.coordinator.status ∧
        (s.client.remote.Browses s.client.node s'.client.node ∨
          moves s.client.node s'.client.node) := by
  obtain ⟨e, hallowed, rfl⟩ := hstep
  by_cases he : e = .advance
  · subst he
    exact .inl h.advances
  · -- only steps of the coordinator publish a status
    obtain ⟨_, hk⟩ := h.coordinator_after he
    obtain ⟨ha, hn⟩ := h.aside_after he hallowed
    exact .inr ⟨ha, by rw [hk], hn⟩

/-! ## Probes that succeed -/

/-- A probe has succeeded in the meantime. -/
def Probed (s s' : Situation σ φ) : Prop :=
  ∃ p a, (p, Ask.sequence .probe) ∈ s'.asked ∧ s.client.promises.outcome? p = none ∧
    s'.client.promises.outcome? p = some (.ok a)

lemma not_probed_of_settles {ps : List Id} {e : Failure}
    (hset : s.client.promises.Settles s'.client.promises ps (.error e)) : ¬s.Probed s' := by
  rintro ⟨p, a, -, hnone, hok⟩
  by_cases hp : p ∈ ps
  · cases (hset.outcome p hp).symm.trans hok
  · cases ((hset.outcome?_of_notMem hp).trans hnone).symm.trans hok

lemma not_probed_of_eq (h : s'.client.promises = s.client.promises) : ¬s.Probed s' := by
  have hset : s.client.promises.Settles s'.client.promises [] (.error .shutDown) := h ▸ .refl _ _
  exact not_probed_of_settles hset

lemma Aside.not_probed (ha : s.Aside s') : ¬s.Probed s' := by
  rintro ⟨p, a, hp, hnone, hok⟩
  rcases ha.refused p _ _ hp hok with hold | he | he
  · cases ((ha.outcomes p _ hold).trans hnone).symm.trans hok
  · cases he
  · cases he

/-- A probe that succeeds in the course of a run has succeeded at its end. -/
lemma Probed.of_runs_right (h : s.Probed t) (howned : t.Owned) (hr : Runs moves t s') :
    s.Probed s' := by
  obtain ⟨p, a, hp, hnone, hok⟩ := h
  exact ⟨p, a, howned.asked_of_runs hr hp, hnone, (howned.persists_of_runs hr).outcome p _ hok⟩

lemma Probed.of_runs_left (h : t.Probed s') (howned : s.Owned) (hr : Runs moves s t) :
    s.Probed s' := by
  obtain ⟨p, a, hp, hnone, hok⟩ := h
  refine ⟨p, a, hp, ?_, hok⟩
  cases ho : s.client.promises.outcome? p with
  | none => rfl
  | some o => cases hnone.symm.trans ((howned.persists_of_runs hr).outcome p o ho)

lemma not_probed_before (hno : ¬s.Probed s') (howned : t.Owned) (hstep : Step moves t s') :
    ¬s.Probed t :=
  fun hp => hno (hp.of_runs_right howned (.single hstep))

/-! ## The gate -/

/-- The gate is closed: the lease must be confirmed, no tail is known, the status does not say that
the lease is held, and no write is at hand. -/
structure Gated (s : Situation σ φ) : Prop where
  probeRequired : s.client.coordinator.view.probeRequired = true
  tail : s.client.coordinator.view.tail = none
  status : s.client.coordinator.status.isConfirmed = false
  atHand : ∀ pos msg p, s.atHand ≠ some (.write pos msg, p)

/-- The gate was opened just now: the status says that the lease is held, with no tail. -/
structure Lifted (s : Situation σ φ) : Prop where
  probeRequired : s.client.coordinator.view.probeRequired = false
  tail : s.client.coordinator.view.tail = none
  status : s.client.coordinator.status = .confirmed none

/-- The gate closes with the event in which a write ends that may have been applied. -/
lemma Owned.gated_of_unknown (h : s.Owned) (hstep : Step moves s s') {pos q : MessageIndex}
    {msg : Message} (hp : (p, Ask.sequence (.write pos msg)) ∈ s'.asked)
    (hwait : s.client.promises.outcome? p = none)
    (hdoubt : s'.client.promises.outcome? p = some (.error (.outcomeUnknown q))) :
    s'.Gated ∧ s'.stance = .taking := by
  obtain hadv | ⟨ha, -⟩ := h.step_cases hstep
  · cases hadv with
    | idles => cases hwait.symm.trans hdoubt
    | stops _ hset =>
      by_cases hmem : p ∈ s.duties.map Prod.snd
      · cases (hset.outcome p hmem).symm.trans hdoubt
      · cases ((hset.outcome?_of_notMem hmem).trans hwait).symm.trans hdoubt
    | attempts htake heff =>
      obtain ⟨_, _, _, _, hclient, -⟩ := heff.client_eq
      rw [client_attempt, hclient] at hdoubt
      cases hwait.symm.trans hdoubt
    | pauses => cases hwait.symm.trans hdoubt
    | concludes hs hj hset =>
      rename_i r p' a o _ _ _ _ _ _
      by_cases hmem : p ∈ [p']
      · -- the write is the one that ends here, and its outcome is what the view is told
        obtain rfl := List.mem_singleton.1 hmem
        obtain rfl := h.request_eq (duties_judging hs ▸ List.mem_cons_self) hp
        have ho : a.conclude (.write pos msg) o = .error (.outcomeUnknown q) := by
          have ho := Option.some.inj ((hset.outcome p hmem).symm.trans hdoubt)
          generalize a.conclude (.write pos msg) o = o' at ho
          cases o' with
          | ok u => cases ho
          | error e =>
            cases ho
            rfl
        refine ⟨⟨?_, ?_, ?_, by rintro _ _ _ ⟨⟩⟩, rfl⟩ <;>
          simp only [Coordinator.finish, ho] <;> rfl
      · cases ((hset.outcome?_of_notMem hmem).trans hwait).symm.trans hdoubt
    | answers hs hd hq hans hset =>
      rename_i r p' queue o coordinator _ _ _ _ _ _
      by_cases hmem : p ∈ [p']
      · -- what is answered without the node is never doubtful
        obtain ⟨pos', msg', rfl, hcheck⟩ := answerLocally_some hans
        have ho := Option.some.inj ((hset.outcome p hmem).symm.trans hdoubt)
        cases o with
        | ok u => cases ho
        | error e =>
          cases ho
          exact absurd rfl (LogView.check_ne_outcomeUnknown hcheck q)
      · cases ((hset.outcome?_of_notMem hmem).trans hwait).symm.trans hdoubt
  · rcases ha.refused p _ _ hp hdoubt with hold | he | he
    · cases ((ha.outcomes p _ hold).trans hwait).symm.trans hdoubt
    · cases he
    · cases he

/-- Behind the gate every write is rejected without the node. -/
lemma Gated.answerLocally (h : s.Gated) (queue : List (SequencerRequest × Id)) (pos : MessageIndex)
    (msg : Message) :
    Coordinator.answerLocally { s.client.coordinator with queue } (.write pos msg) =
      (some (.error .probeRequired),
        { s.client.coordinator with queue }.publish (some pos) (.error .probeRequired)) := by
  rw [Coordinator.answerLocally]
  simp only [LogView.check_of_probeRequired h.probeRequired]

/-- Behind the gate only probes are taken up. -/
lemma Gated.takesUp (h : s.Gated) {r : SequencerRequest} {a : Attempts} {start : Option φ}
    {coordinator : Coordinator} (ht : s.TakesUp r p a start coordinator) :
    r = .probe ∧ coordinator.view = s.client.coordinator.view ∧
      coordinator.status = s.client.coordinator.status := by
  have hview := ht.view_eq
  have hprobe : s.atHand = some (r, p) → r = .probe := by
    intro hat
    cases r with
    | probe => rfl
    | write pos msg => exact absurd hat (h.atHand pos msg p)
  cases ht with
  | resumes hs hc hd => exact ⟨hprobe (by simp only [Situation.atHand, hs, hc]), hview, rfl⟩
  | repeats hs hj => exact ⟨hprobe (by simp only [Situation.atHand, hs]), hview, rfl⟩
  | begins hs hd hq hans =>
    cases r with
    | probe =>
      cases hans
      exact ⟨rfl, hview, rfl⟩
    | write pos msg =>
      rw [h.answerLocally] at hans
      cases hans

/-- At an attempt of a probe the gate stays closed. -/
lemma Gated.attempt (h : s.Gated) {r : SequencerRequest} {a : Attempts} {start : Option φ}
    {coordinator : Coordinator} {progress : AttemptProgress σ φ}
    (ht : s.TakesUp r p a start coordinator)
    (heff : AttemptEffect { s.client with coordinator } r p a start progress) :
    Gated (Situation.attempt { s with client := { s.client with coordinator } } r p progress) := by
  obtain ⟨rfl, hview, hstatus⟩ := h.takesUp ht
  have hclosed := h.probeRequired
  have htail := h.tail
  have hconfirmed := h.status
  rw [← hview] at hclosed htail
  rw [← hstatus] at hconfirmed
  cases heff with
  | stays => exact ⟨hclosed, htail, hconfirmed, by rintro _ _ _ ⟨⟩⟩
  | fails => exact ⟨hclosed, htail, hconfirmed, by rintro _ _ _ ⟨⟩⟩
  | waits => exact ⟨hclosed, htail, hconfirmed, by rintro _ _ _ ⟨⟩⟩
  | returns => exact ⟨hclosed, htail, hconfirmed, by rintro _ _ _ ⟨⟩⟩

/-- Every event leaves the gate closed, or ends a probe that succeeds and opens it. -/
theorem Owned.gate_step (howned : s.Owned) (h : s.Gated) (hstep : Step moves s s') :
    s'.Gated ∧ ¬s.Probed s' ∨ s'.Lifted ∧ s.Probed s' := by
  obtain hadv | ⟨ha, hstatus, -⟩ := howned.step_cases hstep
  · cases hadv with
    | idles hat hc hat' =>
      refine .inl ⟨⟨h.probeRequired, h.tail, h.status, ?_⟩, not_probed_of_eq rfl⟩
      intro pos msg p hp
      cases hat'.symm.trans hp
    | stops _ hset =>
      exact .inl ⟨⟨h.probeRequired, h.tail, h.status, by rintro _ _ _ ⟨⟩⟩,
        not_probed_of_settles hset.toSettles⟩
    | attempts htake heff =>
      -- an attempt settles nothing; its result is judged in a step of its own
      refine .inl ⟨h.attempt htake heff, not_probed_of_eq ?_⟩
      obtain ⟨_, _, _, _, hclient, -⟩ := heff.client_eq
      rw [client_attempt, hclient]
    | pauses hs hj =>
      rename_i r p a o _ _ _
      refine .inl ⟨⟨h.probeRequired, h.tail, h.status, ?_⟩, not_probed_of_eq rfl⟩
      intro pos msg q hq
      have hat : s.atHand = some (r, p) := by simp only [Situation.atHand, hs]
      exact h.atHand pos msg q (hat.trans hq)
    | concludes hs hj hset =>
      rename_i r p a o _ _ _ _ _ _
      have hat : s.atHand = some (r, p) := by simp only [Situation.atHand, hs]
      cases r with
      | write pos msg => exact absurd hat (h.atHand pos msg p)
      | probe =>
        have hduty : (SequencerRequest.probe, p) ∈ s.duties :=
          duties_judging hs ▸ List.mem_cons_self
        cases o with
        | ok u =>
          -- the probe succeeds, which is what opens the gate
          refine .inr ⟨⟨rfl, h.tail, congrArg SequencerStatus.confirmed h.tail⟩, p, .done,
            howned.duties_asked _ hduty, (howned.duties_pending _ hduty).outcome?_eq, ?_⟩
          exact hset.outcome p (List.mem_singleton_self p)
        | error e =>
          -- that the lease is lost makes the view forget what it knows, but not the gate
          refine .inl ⟨⟨?_, LogView.tail_afterProbe h.tail _, rfl, by rintro _ _ _ ⟨⟩⟩,
            not_probed_of_settles hset.toSettles⟩
          exact (LogView.probeRequired_afterProbe _ e).trans h.probeRequired
    | answers hs hd hq hans hset =>
      obtain ⟨pos, msg, rfl, -⟩ := answerLocally_some hans
      rw [h.answerLocally] at hans
      cases hans
      exact .inl ⟨⟨h.probeRequired, h.tail, rfl, by rintro _ _ _ ⟨⟩⟩,
        not_probed_of_settles hset.toSettles⟩
  · refine .inl ⟨⟨?_, ?_, ?_, ?_⟩, ha.not_probed⟩
    · rw [ha.view, h.probeRequired]
    · rw [ha.view, h.tail]
    · rw [hstatus, h.status]
    · rw [atHand_congr ha.stance ha.stage]
      exact h.atHand

/-- The gate stays closed until a probe succeeds. -/
theorem Owned.gated_of_runs (howned : s.Owned) (h : s.Gated) (hr : Runs moves s s')
    (hno : ¬s.Probed s') : s'.Gated := by
  induction hr with
  | refl => exact h
  | tail hr hstep ih =>
    rename_i t s'
    have htowned := howned.of_runs hr
    have hbefore := not_probed_before hno htowned hstep
    obtain ⟨hg, -⟩ | ⟨-, hp⟩ := htowned.gate_step (ih hbefore) hstep
    · exact hg
    · exact absurd (hp.of_runs_left howned hr) hno

/-! ## What reaches the node, and what becomes of writes -/

/-- A write waits, or it is rejected because the lease must be confirmed. When the pool is down, it
may have been rejected for that. -/
def Rejects (s : Situation σ φ) (pos : MessageIndex) (msg : Message) (p : Id) : Prop :=
  (.write pos msg, p) ∈ s.duties ∨
    s.client.promises.outcome? p = some (.error .probeRequired) ∨
    s.client.promises.outcome? p = some (.error .shutDown) ∧ s.client.pool.isDown = true

variable {pos : MessageIndex} {msg : Message}

/-- Behind the gate no write that waits is forgotten or given another answer. -/
lemma Gated.rejects_step (h : s.Gated) (howned : s.Owned) (hstep : Step moves s s')
    (hmem : (.write pos msg, p) ∈ s.duties) : s'.Rejects pos msg p := by
  obtain hadv | ⟨ha, -⟩ := howned.step_cases hstep
  · cases hadv.fate hmem with
    | stays hmem' => exact .inl hmem'
    | rejected hd ho => exact .inr (.inr ⟨ho, hadv.isDown.trans hd⟩)
    -- a write whose attempt is judged would be at hand
    | concluded hs => exact absurd (by simp only [Situation.atHand, hs]) (h.atHand pos msg p)
    | answered hd hans ho =>
      rw [h.answerLocally] at hans
      cases hans
      exact .inr (.inl ho)
  · exact .inl (ha.duties_prefix.subset hmem)

lemma Rejects.step (hw : s.Rejects pos msg p) (h : s.Gated) (howned : s.Owned)
    (hstep : Step moves s s') : s'.Rejects pos msg p := by
  have hstays : ∀ {o}, s.client.promises.outcome? p = some o →
      s'.client.promises.outcome? p = some o :=
    (howned.persists_of_runs (.single hstep)).outcome p _
  obtain hmem | ho | ⟨ho, hdown⟩ := hw
  · exact h.rejects_step howned hstep hmem
  · exact .inr (.inl (hstays ho))
  · exact .inr (.inr ⟨hstays ho, howned.isDown_of_runs (.single hstep) hdown⟩)

/-- Behind the gate the next write is rejected at once. -/
lemma Gated.rejects_next (h : s.Gated) (howned : s.Owned) (hs : s.stance = .taking)
    (hd : s.client.pool.isDown = false) {queue : List (SequencerRequest × Id)}
    (hq : s.client.coordinator.queue = (.write pos msg, p) :: queue) :
    s.advance.client.promises.outcome? p = some (.error .probeRequired) := by
  have hpend : s.client.promises.Pending p :=
    howned.duties_pending (_, p) ((duties_taking hs).trans hq ▸ List.mem_cons_self)
  have hsettle : ∀ coordinator,
      (settleRequest { s.client with coordinator } p (.error .probeRequired)).promises.outcome? p =
        some (.error .probeRequired) := fun coordinator =>
    outcome?_settle (c := { s.client with coordinator }) hpend _
  rw [advance_taking hs hd, takeUp_answered hq (h.answerLocally queue pos msg)]
  exact hsettle _

section

variable {remote : Remote σ φ} {s s' : Situation (Monitored σ) φ}

/-- Behind the gate the node gets nothing but probes. -/
lemma Gated.commands_step (h : s.Gated) (howned : s.Owned)
    (hremote : s.client.remote = remote.monitored) (hstep : Step Uncalled s s') :
    s'.client.node.commands = s.client.node.commands ∨
      s'.client.node.commands = .probe :: s.client.node.commands := by
  obtain hadv | ⟨-, -, hn | hn⟩ := howned.step_cases hstep
  · cases hadv with
    | attempts htake heff =>
      obtain ⟨rfl, -⟩ := h.takesUp htake
      rw [client_attempt]
      exact (heff.calls hremote).imp commands_eq fun hc => commands_cons hc rfl
    | _ => exact .inl rfl
  · rw [hremote] at hn
    exact .inl (commands_browses hn)
  · exact .inl (commands_eq hn)

end

/-! ## What is known of the tail -/

/-- Whatever is known of the tail, or is about to be learnt, was told by an attempt of a write among
the latest entries of the journal. -/
structure Informed (s : Situation σ φ) (latest : List (Entry σ)) : Prop where
  judged : ∀ r p a o, s.stance = .judging r p a o →
    ∃ n n', .attempted r p n n' (some o) ∈ latest
  tail : s.client.coordinator.view.tail ≠ none →
    ∃ pos msg p n n' o, .attempted (.write pos msg) p n n' (some o) ∈ latest ∧ LogView.Locates o

section

variable {latest : List (Entry σ)}

lemma Informed.mono (h : s.Informed latest) (new : List (Entry σ))
    (hs : ∀ r p a o, s'.stance = .judging r p a o → s.stance = .judging r p a o)
    (ht : s'.client.coordinator.view.tail ≠ none → s.client.coordinator.view.tail ≠ none) :
    s'.Informed (new ++ latest) where
  judged r p a o hj := by
    obtain ⟨n, n', he⟩ := h.judged r p a o (hs r p a o hj)
    exact ⟨n, n', List.mem_append_right _ he⟩
  tail htail := by
    obtain ⟨pos, msg, p, n, n', o, he, ho⟩ := h.tail (ht htail)
    exact ⟨pos, msg, p, n, n', o, List.mem_append_right _ he, ho⟩

/-- An attempt that ends notes its result before it is judged. -/
lemma Informed.attempt (h : s.Informed latest) {r : SequencerRequest} {a : Attempts}
    {start : Option φ} {coordinator : Coordinator} {progress : AttemptProgress σ φ}
    (ht : s.TakesUp r p a start coordinator)
    (heff : AttemptEffect { s.client with coordinator } r p a start progress) :
    ∃ e, (Situation.attempt { s with client := { s.client with coordinator } } r p
        progress).journal = e :: s.journal ∧
      Informed (Situation.attempt { s with client := { s.client with coordinator } } r p progress)
        (e :: latest) := by
  have htail : (Situation.attempt { s with client := { s.client with coordinator } } r p
      progress).client.coordinator.view.tail ≠ none → s.client.coordinator.view.tail ≠ none := by
    rw [client_attempt, ht.view_attempt heff]
    exact id
  cases progress with
  | pending c => exact ⟨_, rfl, h.mono [_] (by rintro _ _ _ _ ⟨⟩) htail⟩
  | result a' o c =>
    refine ⟨_, rfl, ?_, fun hne => ?_⟩
    · rintro _ _ _ _ ⟨⟩
      exact ⟨_, _, List.mem_cons_self⟩
    · obtain ⟨pos, msg, q, n, n', o', he, ho⟩ := h.tail (htail hne)
      exact ⟨pos, msg, q, n, n', o', List.mem_cons_of_mem _ he, ho⟩

/-- A step of the coordinator learns of the tail only what it judges. -/
lemma Informed.advances (h : s.Informed latest) (hadv : Advances s s') :
    ∃ new, s'.journal = new ++ s.journal ∧ s'.Informed (new ++ latest) := by
  cases hadv with
  | idles hat hc hat' =>
    refine ⟨[], rfl, h.mono [] ?_ id⟩
    intro r p a o hs
    dsimp only at hs
    subst hs
    cases hat'
  | stops => exact ⟨[], rfl, h.mono [] (by rintro _ _ _ _ ⟨⟩) id⟩
  | attempts htake heff =>
    obtain ⟨e, hj, hi⟩ := h.attempt htake heff
    exact ⟨[e], hj, hi⟩
  | pauses => exact ⟨[], rfl, h.mono [] (by rintro _ _ _ _ ⟨⟩) id⟩
  | concludes hs hj hset =>
    rename_i r p a o _ _ _ _ _ _
    refine ⟨[_], rfl, by rintro _ _ _ _ ⟨⟩, fun hne => ?_⟩
    have htold : s.client.coordinator.view.tail ≠ none ∨
        ∃ pos msg, r = .write pos msg ∧ LogView.Locates o := by
      cases r with
      | write pos msg =>
        exact (LogView.tail_afterWrite hne).imp_right fun ho => ⟨pos, msg, rfl, ho.of_conclude⟩
      | probe => exact .inl fun hnone => hne (LogView.tail_afterProbe hnone _)
    obtain hold | ⟨pos, msg, rfl, ho⟩ := htold
    · obtain ⟨pos, msg, q, n, n', o', he, ho⟩ := h.tail hold
      exact ⟨pos, msg, q, n, n', o', List.mem_append_right _ he, ho⟩
    · -- the result that is judged is the one that was noted
      obtain ⟨n, n', hnoted⟩ := h.judged _ p a o hs
      exact ⟨pos, msg, p, n, n', o, List.mem_append_right _ hnoted, ho⟩
  | answers hs hd hq hans hset =>
    obtain ⟨pos, msg, rfl, hcheck⟩ := answerLocally_some hans
    refine ⟨[], rfl, h.mono [] (by rintro _ _ _ _ ⟨⟩) fun hne => ?_⟩
    rwa [LogView.tail_check hcheck] at hne

/-- Along a run the journal grows, and so does what the coordinator is informed of. -/
lemma Owned.informed_of_runs (howned : s.Owned) (h : s.Informed []) (hr : Runs moves s s') :
    ∃ latest, s'.journal = latest ++ s.journal ∧ s'.Informed latest := by
  induction hr with
  | refl => exact ⟨[], rfl, h⟩
  | tail hr hstep ih =>
    obtain ⟨latest, hj, hi⟩ := ih
    obtain hadv | ⟨ha, -⟩ := (howned.of_runs hr).step_cases hstep
    · obtain ⟨new, hj', hi'⟩ := hi.advances hadv
      exact ⟨new ++ latest, by rw [hj', hj, List.append_assoc], hi'⟩
    · refine ⟨latest, ha.journal.trans hj, hi.mono [] ?_ ?_⟩
      · intro r p a o hs
        exact ha.stance.symm.trans hs
      · rw [ha.view]
        exact id

end

/-! ## From a doubtful write to the next probe that succeeds -/

/-- What holds from a situation right after a doubtful write to a later one, as long as no probe has
succeeded. -/
structure Barred (s s' : Situation (Monitored σ) φ) : Prop where
  /-- Nothing but probes has reached the node. -/
  commands : ∃ latest, s'.client.node.commands = latest ++ s.client.node.commands ∧
    ∀ call ∈ latest, call = .probe
  /-- The status does not say that the lease is held. -/
  status : s'.client.coordinator.status.isConfirmed = false
  /-- Every write that has waited at any moment since waits on or is rejected. -/
  writes : ∀ t, Runs Uncalled s t → Runs Uncalled t s' → ∀ pos msg p,
    (.write pos msg, p) ∈ t.duties → s'.Rejects pos msg p
  /-- The next write is rejected as soon as the coordinator gets to it. -/
  next : ∀ pos msg p queue, s'.stance = .taking → s'.client.pool.isDown = false →
    s'.client.coordinator.queue = (.write pos msg, p) :: queue →
    s'.advance.client.promises.outcome? p = some (.error .probeRequired)
  /-- The event that ends a probe that succeeds is the one that opens the gate. -/
  lifts : ∀ t, Step Uncalled s' t → s'.Probed t → t.Lifted

section

variable {remote : Remote σ φ} {s s' s'' : Situation (Monitored σ) φ}

lemma Owned.rejects_of_runs (howned : s.Owned) (h : s.Gated) (hr : Runs Uncalled s s')
    (hno : ¬s.Probed s') (hmem : (.write pos msg, p) ∈ s.duties) : s'.Rejects pos msg p := by
  induction hr with
  | refl => exact .inl hmem
  | tail hr hstep ih =>
    have htowned := howned.of_runs hr
    have hbefore := not_probed_before hno htowned hstep
    exact (ih hbefore).step (howned.gated_of_runs h hr hbefore) htowned hstep

lemma Owned.commands_of_runs (howned : s.Owned) (h : s.Gated)
    (hremote : s.client.remote = remote.monitored) (hr : Runs Uncalled s s')
    (hno : ¬s.Probed s') : ∃ latest,
      s'.client.node.commands = latest ++ s.client.node.commands ∧
        ∀ call ∈ latest, call = .probe := by
  induction hr with
  | refl => exact ⟨[], rfl, nofun⟩
  | tail hr hstep ih =>
    have htowned := howned.of_runs hr
    have hbefore := not_probed_before hno htowned hstep
    have htremote := (howned.remote_of_runs hr).trans hremote
    obtain ⟨latest, hl, hall⟩ := ih hbefore
    obtain hc | hc := (howned.gated_of_runs h hr hbefore).commands_step htowned htremote hstep
    · exact ⟨latest, hc.trans hl, hall⟩
    · refine ⟨.probe :: latest, by rw [hc, hl, List.cons_append], ?_⟩
      rintro call (_ | ⟨_, hmem⟩)
      · rfl
      · exact hall call hmem

/-- **The gate after a doubtful write.** Let a write end and leave it open whether it was applied.
Until a probe succeeds nothing but probes reaches the node, every write is rejected because the
lease must be confirmed, and the status does not say that the lease is held; whatever else happens,
the gate opens only when a probe succeeds. From then on no tail is known until an attempt of a write
was accepted by the node, or was told by it which position is expected. -/
theorem barred_until_probed {config : ClientConfig} {node : Monitored σ}
    (h : Runs Uncalled (fresh config remote.monitored node) s) (hstep : Step Uncalled s s')
    {q : MessageIndex} (hp : (p, Ask.sequence (.write pos msg)) ∈ s'.asked)
    (hwait : s.client.promises.outcome? p = none)
    (hdoubt : s'.client.promises.outcome? p = some (.error (.outcomeUnknown q)))
    (hr : Runs Uncalled s' s'') :
    (¬s'.Probed s'' → s'.Barred s'') ∧
      ∃ latest, s''.journal = latest ++ s'.journal ∧
        (s''.client.coordinator.view.tail ≠ none →
          ∃ pos msg p n n' o, .attempted (.write pos msg) p n n' (some o) ∈ latest ∧
            LogView.Locates o) := by
  have hrun := h.tail hstep
  have howned := owned_of_runs hrun
  obtain ⟨hgated, hs⟩ := (owned_of_runs h).gated_of_unknown hstep hp hwait hdoubt
  constructor
  · intro hno
    have hgated'' := howned.gated_of_runs hgated hr hno
    have howned'' := howned.of_runs hr
    have hremote := (owned_fresh _ _ _).remote_of_runs hrun
    refine ⟨howned.commands_of_runs hgated hremote hr hno, hgated''.status, ?_,
      fun _ _ _ _ hs hd hq => hgated''.rejects_next howned'' hs hd hq, ?_⟩
    · intro t ht ht' pos msg p hmem
      have hno' : ¬t.Probed s'' := fun hp => hno (hp.of_runs_left howned ht)
      have hbefore : ¬s'.Probed t := fun hp => hno (hp.of_runs_right (howned.of_runs ht) ht')
      exact (howned.of_runs ht).rejects_of_runs (howned.gated_of_runs hgated ht hbefore) ht' hno'
        hmem
    · intro t ht hprobed
      obtain ⟨-, hno'⟩ | ⟨hlifted, -⟩ := howned''.gate_step hgated'' ht
      · exact absurd hprobed hno'
      · exact hlifted
  · have hinformed : s'.Informed [] := by
      refine ⟨fun r p a o hj => ?_, fun hne => absurd hgated.tail hne⟩
      cases hs.symm.trans hj
    obtain ⟨latest, hj, hi⟩ := howned.informed_of_runs hinformed hr
    exact ⟨latest, hj, hi.tail⟩

end

/-! ## A write again, and a probe that fails -/

/-- A node that accepts one write and breaks off the next, and that has lost the lease when it is
probed. -/
def flaky : Monitored ScriptedNode where
  node :=
    { node := { leaseHeld := true }
      scripts :=
        [(.write, [⟨0, .proceed⟩, ⟨0, .answer (.error (.transport "connection reset"))⟩]),
          (.probe, [⟨0, .answer (.error .notChosenSequencer)⟩])] }

/-- Its client after two writes. The second one was attempted just now. -/
def brokenOff : Situation (Monitored ScriptedNode) ScriptedNode.Phase :=
  (fresh { sequencer := { maxWriteRetries := 0 } } ScriptedNode.remote.monitored flaky).afterAll
    [.order .start, .ask (.sequence (.write (.ofNat 0) (.sample 0))), .advance, .advance, .advance,
      .ask (.sequence (.write (.ofNat 1) (.sample 1))), .advance]

/-- Then the first write was asked for again, and a probe after it. -/
def askedAgain : Situation (Monitored ScriptedNode) ScriptedNode.Phase :=
  (brokenOff.after .advance).afterAll
    [.ask (.sequence (.write (.ofNat 0) (.sample 0))), .ask (.sequence .probe), .advance, .advance,
      .advance]

lemma runs_brokenOff :
    Runs Uncalled
      (fresh { sequencer := { maxWriteRetries := 0 } } ScriptedNode.remote.monitored flaky)
      brokenOff :=
  runs_afterAll rfl _

lemma runs_askedAgain : Runs Uncalled (brokenOff.after .advance) askedAgain :=
  runs_afterAll rfl _

/-- The second write may have been applied. The first one is known to have been, and is rejected all
the same when it is asked for again; the probe that fails does not open the gate. -/
theorem barred_until_probed_askedAgain :
    (brokenOff.after .advance).client.promises.outcome? ⟨1⟩ =
        some (.error (.outcomeUnknown (.ofNat 1))) ∧
      askedAgain.client.promises.outcome? ⟨2⟩ = some (.error .probeRequired) ∧
      askedAgain.client.promises.outcome? ⟨3⟩ = some (.error .notChosenSequencer) ∧
      ¬(brokenOff.after .advance).Probed askedAgain ∧
      (brokenOff.after .advance).Barred askedAgain := by
  have hdoubt : (brokenOff.after .advance).client.promises.outcome? ⟨1⟩ =
    some (.error (.outcomeUnknown (.ofNat 1))) := rfl
  have hfailed : askedAgain.client.promises.outcome? ⟨3⟩ = some (.error .notChosenSequencer) := rfl
  have hwrites : (brokenOff.after .advance).asked =
    [(⟨1⟩, .sequence (.write (.ofNat 1) (.sample 1))),
      (⟨0⟩, .sequence (.write (.ofNat 0) (.sample 0)))] := rfl
  have hasked : askedAgain.asked =
    [(⟨3⟩, .sequence .probe), (⟨2⟩, .sequence (.write (.ofNat 0) (.sample 0))),
      (⟨1⟩, .sequence (.write (.ofNat 1) (.sample 1))),
      (⟨0⟩, .sequence (.write (.ofNat 0) (.sample 0)))] := rfl
  have hno : ¬(brokenOff.after .advance).Probed askedAgain := by
    rintro ⟨p, a, hp, -, hok⟩
    -- the only probe has failed
    simp only [hasked, List.mem_cons, Prod.mk.injEq, Ask.sequence.injEq, reduceCtorEq, and_false,
      List.not_mem_nil, or_false, and_true] at hp
    subst hp
    cases hfailed.symm.trans hok
  have hstep : Step Uncalled brokenOff (brokenOff.after .advance) := ⟨.advance, trivial, rfl⟩
  exact ⟨hdoubt, rfl, hfailed, hno, (barred_until_probed runs_brokenOff hstep
    (hwrites ▸ List.mem_cons_self) rfl hdoubt runs_askedAgain).1 hno⟩

end Situation

end ConsensusLink
