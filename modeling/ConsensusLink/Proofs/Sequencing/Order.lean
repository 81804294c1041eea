import ConsensusLink.Proofs.Client.Closing
import ConsensusLink.Proofs.Node.Monitored
/-!
# Requests in order

Writes and probes that are taken into the queue of the coordinator are written down in a *docket*.
The docket splits into the requests that have ended and those that the coordinator still owes, and
every event keeps this split: what is admitted is added at the end, and what ends is the first of
what is owed. So the promises are settled once each and in the order of the docket, and a call that
reaches the node is one for the first request that is owed. When the pool is down nothing reaches
the node any more.
-/

namespace ConsensusLink

open Promise Relation Client Situation Monitored

/-- A situation, with the requests that were taken into the queue of the coordinator, oldest
first. -/
structure Docket (σ φ : Type) where
  /-- The situation. -/
  situation : Situation σ φ
  /-- The requests, with their promises. -/
  admitted : List (SequencerRequest × Id) := []

variable {σ φ : Type}

namespace Docket

/-- The docket after an event. -/
def after (d : Docket σ φ) (e : Event σ) : Docket σ φ where
  situation := d.situation.after e
  admitted := d.admitted ++ d.situation.admission e

/-- One event of a run. -/
def Step (moves : σ → σ → Prop) (d d' : Docket σ φ) : Prop :=
  ∃ e : Event σ, e.Allowed moves d.situation.client.node ∧ d' = d.after e

/-- A run from one docket to another. -/
def Runs (moves : σ → σ → Prop) : Docket σ φ → Docket σ φ → Prop := ReflTransGen (Step moves)

/-- The empty docket of a client that has done nothing yet. -/
def fresh (config : ClientConfig) (remote : Remote σ φ) (node : σ) : Docket σ φ where
  situation := .fresh config remote node

/-- The docket after a list of events. -/
def afterAll (d : Docket σ φ) (es : List (Event σ)) : Docket σ φ := es.foldl after d

/-- The promises of the requests. -/
def promises (d : Docket σ φ) : List Id := d.admitted.map Prod.snd

/-- Those of them that were settled, in the order in which they were. -/
def settled (d : Docket σ φ) : List Id :=
  d.situation.client.settled.filter fun p => p ∈ d.promises

variable {moves : σ → σ → Prop} {d d' : Docket σ φ}

/-- The runs of dockets are those of their situations: every run can be written down. -/
theorem situation_runs_iff {s : Situation σ φ} :
    Situation.Runs moves d.situation s ↔ ∃ d', Runs moves d d' ∧ d'.situation = s := by
  constructor
  · intro h
    induction h with
    | refl => exact ⟨d, .refl, rfl⟩
    | tail _ hstep ih =>
      obtain ⟨d', hruns, rfl⟩ := ih
      obtain ⟨e, hallowed, rfl⟩ := hstep
      exact ⟨d'.after e, hruns.tail ⟨e, hallowed, rfl⟩, rfl⟩
  · rintro ⟨d', h, rfl⟩
    induction h with
    | refl => exact .refl
    | tail _ hstep ih =>
      obtain ⟨e, hallowed, rfl⟩ := hstep
      exact ih.tail ⟨e, hallowed, rfl⟩

/-! ## What has ended and what is owed -/

/-- The docket splits into the requests that have ended and those that are owed. -/
structure Kept (d : Docket σ φ) (ended : List (SequencerRequest × Id)) : Prop where
  owned : d.situation.Owned
  asked : ∀ a ∈ d.admitted, (a.2, Ask.sequence a.1) ∈ d.situation.asked
  nodup : d.promises.Nodup
  split : d.admitted = ended ++ d.situation.duties
  settled : d.settled = ended.map Prod.snd
  /-- What is settled was handed out. -/
  known : ∀ p ∈ d.situation.client.settled, d.situation.client.promises.Known p
  outcome : ∀ a ∈ d.admitted, a ∈ d.situation.duties ∨
    ∃ o, d.situation.client.promises.outcome? a.2 = some o
  /-- A coordinator that has stopped takes no requests any more. -/
  stopped : d.situation.client.coordinatorStage = .stopped → d.situation.stance = .resting ∧
    d.situation.client.coordinator.queue = [] ∧ d.situation.client.coordinator.isClosed = true

variable {ended : List (SequencerRequest × Id)}

lemma kept_fresh (config : ClientConfig) (remote : Remote σ φ) (node : σ) :
    Kept (fresh config remote node) [] where
  owned := owned_fresh config remote node
  asked _ ha := nomatch ha
  nodup := List.nodup_nil
  split := rfl
  settled := rfl
  known _ hp := nomatch hp
  outcome _ ha := nomatch ha
  stopped h := nomatch h

/-- What is admitted has a promise that is not in the docket yet. -/
lemma not_known_of_admission {e : Event σ} {a : SequencerRequest × Id}
    (ha : a ∈ d.situation.admission e) : ¬d.situation.client.promises.Known a.2 := by
  obtain ⟨-, hp, -⟩ := mem_admission ha
  rw [hp]
  exact Store.not_known_add _

lemma Kept.known_of_mem (h : d.Kept ended) {p : Id} (hp : p ∈ d.promises) :
    d.situation.client.promises.Known p := by
  obtain ⟨a, ha, rfl⟩ := List.mem_map.1 hp
  exact h.owned.asked_known _ _ (h.asked a ha)

lemma promises_after (d : Docket σ φ) (e : Event σ) :
    (d.after e).promises = d.promises ++ (d.situation.admission e).map Prod.snd :=
  List.map_append

/-- The settled promises of the docket after some more promises were settled. -/
lemma Kept.settled_eq (h : d.Kept ended) {e : Event σ} {ps : List Id}
    (hs : (d.after e).situation.client.settled = d.situation.client.settled ++ ps) :
    (d.after e).settled = ended.map Prod.snd ++ ps.filter fun p => p ∈ (d.after e).promises := by
  rw [Docket.settled, hs, List.filter_append, ← h.settled, Docket.settled]
  congr 1
  refine List.filter_congr fun p hp => ?_
  -- a promise that was settled before is not one that is admitted now
  have hold : p ∉ (d.situation.admission e).map Prod.snd := by
    intro hnew
    obtain ⟨a, ha, rfl⟩ := List.mem_map.1 hnew
    exact not_known_of_admission ha (h.known _ hp)
  simp only [promises_after, List.mem_append, hold, or_false]

lemma Kept.nodup_after (h : d.Kept ended) (e : Event σ) : (d.after e).promises.Nodup := by
  rw [promises_after, List.nodup_append]
  refine ⟨h.nodup, ?_, ?_⟩
  · rcases hadm : d.situation.admission e with _ | ⟨a, as⟩
    · exact List.nodup_nil
    · obtain ⟨-, -, hone, -⟩ := mem_admission (hadm ▸ List.mem_cons_self : a ∈ _)
      rw [hadm] at hone
      rw [hone]
      exact List.pairwise_singleton _ _
  · rintro p hp q hq rfl
    obtain ⟨a, ha, rfl⟩ := List.mem_map.1 hq
    exact not_known_of_admission ha (h.known_of_mem hp)

lemma Kept.asked_after (h : d.Kept ended) (e : Event σ) :
    ∀ a ∈ (d.after e).admitted, (a.2, Ask.sequence a.1) ∈ (d.after e).situation.asked := by
  intro a ha
  rcases List.mem_append.1 ha with ha | ha
  · exact h.owned.asked_after e (h.asked a ha)
  · obtain ⟨rfl, hp, -, k, hk⟩ := mem_admission ha
    obtain ⟨_, hafter⟩ := after_sequence_ok hk
    rw [Docket.after, hafter, ← hp]
    exact List.mem_cons_self

/-- Beside the coordinator nothing ends. -/
lemma Kept.after_aside (h : d.Kept ended) {e : Event σ} (he : e ≠ .advance) :
    (d.after e).Kept ended := by
  have hduties := h.owned.duties_after he
  have hpersists := h.owned.persists_after e
  have ha := h.owned.aside_of_ne he
  obtain ⟨ps, hs, hps, hone⟩ := h.owned.settled_after he
  -- what was settled now is not of the docket
  have hothers : ps.filter (fun p => p ∈ (d.after e).promises) = [] := by
    rw [List.filter_eq_nil_iff]
    intro p hp hmem
    rw [decide_eq_true_eq, promises_after, List.mem_append] at hmem
    obtain hnone | rfl := hone
    · rw [hnone] at hmem
      obtain ⟨a, hadmitted, rfl⟩ := List.mem_map.1 (hmem.resolve_right nofun)
      exact (hps _ hp).1 _ (h.asked a hadmitted)
    · cases hp
  refine ⟨h.owned.after e, h.asked_after e, h.nodup_after e, ?_, ?_, ?_, ?_, ?_⟩
  · change d.admitted ++ d.situation.admission e = ended ++ (d.situation.after e).duties
    rw [hduties, h.split, List.append_assoc]
  · rw [h.settled_eq hs, hothers, List.append_nil]
  · intro p hp
    rcases List.mem_append.1 (hs ▸ hp) with hp | hp
    · exact hpersists.known p (h.known p hp)
    · exact (hps p hp).2
  · intro a hmem
    change a ∈ (d.situation.after e).duties ∨ _
    rw [hduties]
    rcases List.mem_append.1 hmem with hmem | hmem
    · exact (h.outcome a hmem).imp (List.mem_append_left _) fun ⟨o, ho⟩ =>
        ⟨o, hpersists.outcome _ _ ho⟩
    · exact .inl (List.mem_append_right _ hmem)
  · -- whoever is left asks in vain, for the queue was closed when the coordinator stopped
    intro hstopped
    have hbefore : d.situation.client.coordinatorStage = .stopped := by
      obtain hsame | ⟨-, hidle⟩ := ha.stage
      · exact hsame.symm.trans hstopped
      · cases hidle.symm.trans hstopped
    obtain ⟨hrest, hqueue, hclosed⟩ := h.stopped hbefore
    obtain ⟨_, hk⟩ := h.owned.coordinator_after he
    have hnone : d.situation.admission e = [] := by
      rw [List.eq_nil_iff_forall_not_mem]
      intro a hmem
      obtain ⟨-, -, -, k, hk⟩ := mem_admission hmem
      cases hclosed.symm.trans (isClosed_of_enqueue hk)
    refine ⟨ha.stance.trans hrest, ?_, ?_⟩ <;> simp only [Docket.after, hk]
    · rw [hqueue, hnone]
      rfl
    · exact hclosed

/-- A coordinator that stops has nothing left. -/
lemma stopped_advance {s : Situation σ φ} (h : s.Owned)
    (hs : s.client.coordinatorStage = .stopped → s.stance = .resting ∧
      s.client.coordinator.queue = [] ∧ s.client.coordinator.isClosed = true)
    (hstopped : s.advance.client.coordinatorStage = .stopped) :
    s.advance.stance = .resting ∧ s.advance.client.coordinator.queue = [] ∧
      s.advance.client.coordinator.isClosed = true := by
  by_cases hbefore : s.client.coordinatorStage = .stopped
  · have hsame : s.advance = s := by
      simp only [Situation.advance, (hs hbefore).1, hbefore]
    rw [hsame]
    exact hs hbefore
  · have hadv := h.advances
    generalize s.advance = s' at hadv hstopped
    cases hadv with
    | idles hat hc hat' =>
      obtain rfl | rfl := hc
      · exact absurd hstopped hbefore
      · cases hstopped
    | stops => exact ⟨rfl, rfl, rfl⟩
    | attempts htake heff =>
      cases heff with
      | stays => cases hstopped
      | waits => cases hstopped
      | fails => exact absurd hstopped hbefore
      | returns => exact absurd hstopped hbefore
    | concludes => exact absurd hstopped hbefore
    | pauses => cases hstopped
    | answers => exact absurd hstopped hbefore

/-- A step of the coordinator ends the first of what is owed. -/
lemma Kept.after_advance (h : d.Kept ended) :
    ∃ now, d.situation.duties = now ++ d.situation.advance.duties ∧
      (d.after .advance).Kept (ended ++ now) := by
  obtain ⟨now, hduties, hs⟩ := h.owned.ends_advance
  have hpersists := h.owned.persists_after .advance
  have hadmitted : (d.after .advance).admitted = d.admitted := List.append_nil _
  have hnow : ∀ a ∈ now, a ∈ d.situation.duties := fun a ha =>
    hduties ▸ List.mem_append_left _ ha
  refine ⟨now, hduties, h.owned.after .advance, h.asked_after .advance, h.nodup_after .advance, ?_,
    ?_, ?_, ?_, ?_⟩
  · rw [hadmitted, h.split, hduties, List.append_assoc]
    rfl
  · -- all that ends was admitted
    have hall : ∀ p ∈ now.map Prod.snd, decide (p ∈ (d.after .advance).promises) = true := by
      intro p hp
      obtain ⟨a, ha, rfl⟩ := List.mem_map.1 hp
      rw [decide_eq_true_eq, Docket.promises, hadmitted, h.split]
      exact List.mem_map_of_mem (List.mem_append_right _ (hnow a ha))
    rw [h.settled_eq (e := .advance) hs, List.filter_eq_self.2 hall, List.map_append]
  · intro p hp
    rcases List.mem_append.1 (hs ▸ hp) with hp | hp
    · exact hpersists.known p (h.known p hp)
    · obtain ⟨a, ha, rfl⟩ := List.mem_map.1 hp
      exact hpersists.known a.2 (h.owned.duties_pending a (hnow a ha)).known
  · intro a hmem
    rw [hadmitted] at hmem
    obtain hduty | ⟨o, ho⟩ := h.outcome a hmem
    · cases h.owned.advances.fate hduty with
      | stays hmem' => exact .inl hmem'
      | rejected _ ho => exact .inr ⟨_, ho⟩
      | concluded _ ho => exact .inr ⟨_, ho⟩
      | answered _ _ ho => exact .inr ⟨_, ho⟩
    · exact .inr ⟨o, hpersists.outcome _ _ ho⟩
  · exact stopped_advance h.owned h.stopped

/-! ## Calls -/

/-- A docket for a node whose calls are noted. -/
structure Served (remote : Remote σ φ) (d : Docket (Monitored σ) φ)
    (ended : List (SequencerRequest × Id)) : Prop extends d.Kept ended where
  remote : d.situation.client.remote = remote.monitored
  /-- The calls that have reached the node are those for the requests. -/
  commands : d.situation.client.node.commands = d.situation.begun.map fun a => a.1.call
  /-- Only the first request that is owed may have been called for. -/
  reached : ∀ a ∈ d.situation.begun, a ∈ ended ∨ a ∈ d.situation.duties.head?
  order : d.situation.begun.Pairwise fun later earlier =>
    later = earlier ∨ [earlier, later].Sublist d.admitted

section

variable {remote : Remote σ φ} {d d' : Docket (Monitored σ) φ}
  {ended : List (SequencerRequest × Id)}

lemma served_fresh (config : ClientConfig) (remote : Remote σ φ) (node : σ) :
    Served remote (fresh config remote.monitored ⟨node, []⟩) [] where
  toKept := kept_fresh config remote.monitored ⟨node, []⟩
  remote := rfl
  commands := rfl
  reached _ ha := nomatch ha
  order := List.Pairwise.nil

/-- The order of the docket does not change when requests are added to it. -/
lemma Served.order_after (h : d.Served remote ended) (e : Event (Monitored σ)) :
    d.situation.begun.Pairwise fun later earlier =>
      later = earlier ∨ [earlier, later].Sublist (d.after e).admitted :=
  h.order.imp fun hle => hle.imp_right fun hsub => hsub.trans (List.sublist_append_left _ _)

lemma Served.after_aside (h : d.Served remote ended) {e : Event (Monitored σ)} (he : e ≠ .advance)
    (hallowed : e.Allowed Uncalled d.situation.client.node) : (d.after e).Served remote ended := by
  obtain ⟨ha, hn⟩ := h.owned.aside_after he hallowed
  have hbegun : (d.after e).situation.begun = d.situation.begun := begun_congr ha.journal
  have hcommands :
      (d.after e).situation.client.node.commands = d.situation.client.node.commands := by
    obtain hn | hn := hn
    · rw [h.remote] at hn
      exact commands_browses hn
    · exact commands_eq hn
  refine ⟨h.toKept.after_aside he, ha.remote.trans h.remote, ?_, ?_, ?_⟩
  · rw [hcommands, hbegun, h.commands]
  · intro a hmem
    rw [hbegun] at hmem
    refine (h.reached a hmem).imp_right fun hhead => ?_
    obtain ⟨rest, hrest⟩ := ha.duties_prefix
    change a ∈ (d.situation.after e).duties.head?
    rw [← hrest, List.head?_append, Option.mem_def.1 hhead]
    rfl
  · rw [hbegun]
    exact h.order_after e

/-- What was first in line has ended, or is so still. -/
lemma head_of_ended {duties now duties' : List (SequencerRequest × Id)}
    {a : SequencerRequest × Id} (h : duties = now ++ duties') (ha : a ∈ duties.head?) :
    a ∈ now ∨ a ∈ duties'.head? := by
  cases now with
  | nil =>
    obtain rfl : duties = duties' := h
    exact .inr ha
  | cons b now =>
    subst h
    obtain rfl := Option.some.inj ha
    exact .inl List.mem_cons_self

lemma Served.after_advance (h : d.Served remote ended) :
    ∃ now, (d.after .advance).Served remote (ended ++ now) := by
  obtain ⟨now, hduties, hkept⟩ := h.toKept.after_advance
  have hreached : ∀ a ∈ d.situation.begun,
      a ∈ ended ++ now ∨ a ∈ d.situation.advance.duties.head? := by
    intro a hmem
    obtain hend | hhead := h.reached a hmem
    · exact .inl (List.mem_append_left _ hend)
    · exact (head_of_ended hduties hhead).imp_left (List.mem_append_right _)
  obtain ⟨hbegun, hcommands⟩ | ⟨a, hhead, hhead', hbegun, hcommands⟩ :=
    h.owned.advances.begun h.remote
  · refine ⟨now, hkept, h.owned.advances.remote.trans h.remote, ?_, ?_, ?_⟩
    · exact hcommands.trans (h.commands.trans (congrArg _ hbegun.symm))
    · exact fun a hmem => hreached a (hbegun ▸ hmem)
    · exact hbegun.symm ▸ h.order_after .advance
  · refine ⟨now, hkept, h.owned.advances.remote.trans h.remote, ?_, ?_, ?_⟩
    · refine hcommands.trans ?_
      rw [h.commands, Docket.after, Situation.after, hbegun, List.map_cons]
    · intro b hmem
      rcases List.mem_cons.1 (hbegun ▸ hmem) with rfl | hmem
      · exact .inr hhead'
      · exact hreached b hmem
    · refine hbegun.symm ▸ List.pairwise_cons.2 ⟨fun b hmem => ?_, h.order_after .advance⟩
      -- who was called for before has ended, or is the one that is called for now
      obtain hend | hfirst := h.reached b hmem
      · refine .inr (List.Sublist.trans ?_ (List.sublist_append_left _ _))
        rw [h.split]
        exact (List.singleton_sublist.2 hend).append
          (List.singleton_sublist.2 (List.mem_of_mem_head? hhead))
      · exact .inl (Option.some.inj (hhead.symm.trans hfirst))

theorem served_of_runs {config : ClientConfig} {node : σ}
    (h : Runs Uncalled (fresh config remote.monitored ⟨node, []⟩) d) :
    ∃ ended, d.Served remote ended := by
  induction h with
  | refl => exact ⟨[], served_fresh config remote node⟩
  | tail _ hstep ih =>
    obtain ⟨ended, hserved⟩ := ih
    obtain ⟨e, hallowed, rfl⟩ := hstep
    by_cases he : e = .advance
    · subst he
      obtain ⟨now, hserved'⟩ := hserved.after_advance
      exact ⟨ended ++ now, hserved'⟩
    · exact ⟨ended, hserved.after_aside he hallowed⟩

end

end Docket

/-! ## Requests that are refused -/

/-- A request was refused: nothing has happened but that a promise was handed out with its outcome,
because the queue is closed or full. -/
structure Situation.Refuses (s s' : Situation σ φ) : Prop where
  coordinator : s'.client.coordinator = s.client.coordinator
  stage : s'.client.coordinatorStage = s.client.coordinatorStage
  stance : s'.stance = s.stance
  node : s'.client.node = s.client.node
  journal : s'.journal = s.journal
  outcome :
    s.client.coordinator.isClosed = true ∧
        s'.client.promises.outcome? s.client.promises.new.1 = some (.error .shutDown) ∨
      s.client.coordinator.isClosed = false ∧
        s.client.coordinator.capacity ≤ s.client.coordinator.queue.length ∧
        s'.client.promises.outcome? s.client.promises.new.1 = some (.error .overloaded)

lemma Situation.refuses_of_admission {s : Situation σ φ} {r : SequencerRequest}
    (h : s.admission (.ask (.sequence r)) = []) : s.Refuses (s.after (.ask (.sequence r))) := by
  cases hk : s.client.coordinator.enqueue r s.client.promises.new.1 with
  | ok k =>
    simp only [admission, hk] at h
    cases h
  | error e =>
    rw [after_sequence_error hk]
    refine ⟨rfl, rfl, rfl, rfl, rfl, ?_⟩
    have hout := Store.outcome?_newSettled (s := s.client.promises)
      (Except.error e : Outcome Answer)
    unfold Coordinator.enqueue at hk
    split at hk
    · rename_i hclosed
      cases hk
      exact .inl ⟨hclosed, hout⟩
    · rename_i hopen
      split at hk
      · rename_i hfull
        cases hk
        exact .inr ⟨Bool.eq_false_iff.2 hopen, hfull, hout⟩
      · cases hk

/-! ## The order of requests -/

/-- How the coordinator has served the requests of a docket. -/
structure Docket.Orderly (d : Docket (Monitored σ) φ) : Prop where
  /-- The promises are settled in the order of the docket. Those that are left are those of what the
  coordinator owes. -/
  settled : d.settled ++ d.situation.duties.map Prod.snd = d.promises
  /-- None of them is there, and hence settled, twice. -/
  nodup : d.promises.Nodup
  /-- A request has its outcome unless it is owed. -/
  outcome : ∀ a ∈ d.admitted,
    d.situation.client.promises.outcome? a.2 = none ↔ a ∈ d.situation.duties
  /-- Nobody but the coordinator settles the promises. -/
  alone : ∀ e ≠ .advance, (d.after e).settled = d.settled
  /-- When the coordinator has stopped all is settled, and nothing is admitted any more. -/
  stopped : d.situation.client.coordinatorStage = .stopped →
    d.situation.duties = [] ∧ ∀ e, d.situation.admission e = []
  /-- What has reached the node are the calls for the requests, in the order of the docket. -/
  commands : d.situation.client.node.commands = d.situation.begun.map fun a => a.1.call
  order : d.situation.begun.Pairwise fun later earlier =>
    later = earlier ∨ [earlier, later].Sublist d.admitted
  /-- No call begins but for the first of the requests that are not settled. -/
  turn : ∀ e, (d.after e).situation.begun = d.situation.begun ∨
    ∃ a ∈ d.situation.duties.head?, (d.after e).situation.begun = a :: d.situation.begun
  /-- A request that is not admitted changes neither the coordinator nor the node. -/
  refused : ∀ r, d.situation.admission (.ask (.sequence r)) = [] →
    d.situation.Refuses (d.after (.ask (.sequence r))).situation

namespace Docket

variable {remote : Remote σ φ} {d : Docket (Monitored σ) φ} {ended : List (SequencerRequest × Id)}

lemma Kept.alone {d : Docket σ φ} (h : d.Kept ended) {e : Event σ} (he : e ≠ .advance) :
    (d.after e).settled = d.settled :=
  (h.after_aside he).settled.trans h.settled.symm

lemma Kept.begun_after (h : d.Kept ended) (hremote : d.situation.client.remote = remote.monitored)
    (e : Event (Monitored σ)) : (d.after e).situation.begun = d.situation.begun ∨
      ∃ a ∈ d.situation.duties.head?, (d.after e).situation.begun = a :: d.situation.begun := by
  by_cases he : e = .advance
  · subst he
    obtain ⟨hbegun, -⟩ | ⟨a, hhead, -, hbegun, -⟩ := h.owned.advances.begun hremote
    · exact .inl hbegun
    · exact .inr ⟨a, hhead, hbegun⟩
  · exact .inl (begun_congr (h.owned.aside_of_ne he).journal)

lemma Served.orderly (h : d.Served remote ended) : d.Orderly where
  settled := by rw [h.settled, ← List.map_append, ← h.split, promises]
  nodup := h.nodup
  outcome a ha := by
    refine ⟨fun hnone => (h.outcome a ha).resolve_right ?_, fun hmem => ?_⟩
    · rintro ⟨o, ho⟩
      cases hnone.symm.trans ho
    · exact (h.owned.duties_pending a hmem).outcome?_eq
  alone _ he := h.toKept.alone he
  stopped hs := by
    obtain ⟨hrest, hqueue, hclosed⟩ := h.stopped hs
    refine ⟨?_, fun e => ?_⟩
    · simp only [duties, atHand, hrest, hs, hqueue]
      rfl
    · rw [List.eq_nil_iff_forall_not_mem]
      intro a hmem
      obtain ⟨-, -, -, k, hk⟩ := mem_admission hmem
      cases hclosed.symm.trans (isClosed_of_enqueue hk)
  commands := h.commands
  order := h.order
  turn e := h.toKept.begun_after h.remote e
  refused _ hr := refuses_of_admission hr

end Docket

end ConsensusLink
