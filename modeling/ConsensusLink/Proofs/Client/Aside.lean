import ConsensusLink.Proofs.Client.Debts
/-!
# What happens beside the coordinator

An event that is no step of the coordinator leaves alone what the coordinator knows, what it has at
hand and what has become of the writes and probes before. It may add a request to the queue, read
from the node in a job, or change the node by a move that is admissible.
-/

namespace ConsensusLink

open Promise Relation Client

variable {σ φ : Type}

namespace Situation

variable {s s' : Situation σ φ} {moves : σ → σ → Prop}

/-- The coordinator has no part in what happened. -/
structure Aside (s s' : Situation σ φ) : Prop where
  view : s'.client.coordinator.view = s.client.coordinator.view
  stance : s'.stance = s.stance
  stage : s'.client.coordinatorStage = s.client.coordinatorStage ∨
    s.client.coordinatorStage = .held ∧ s'.client.coordinatorStage = .idle
  queue : s.client.coordinator.queue <+: s'.client.coordinator.queue
  config : s'.client.config = s.client.config
  remote : s'.client.remote = s.client.remote
  isDown : s.client.pool.isDown = true → s'.client.pool.isDown = true
  journal : s'.journal = s.journal
  asked : ∀ d ∈ s.asked, d ∈ s'.asked
  /-- Writes and probes that were asked for before are not settled. -/
  outcomes : ∀ p r, (p, Ask.sequence r) ∈ s.asked →
    s'.client.promises.outcome? p = s.client.promises.outcome? p
  /-- Those that are asked for now are settled only if they are not taken. -/
  refused : ∀ p r o, (p, Ask.sequence r) ∈ s'.asked → s'.client.promises.outcome? p = some o →
    (p, Ask.sequence r) ∈ s.asked ∨ o = .error .shutDown ∨ o = .error .overloaded

/-- What can happen in a run. -/
inductive Happens (moves : σ → σ → Prop) (s s' : Situation σ φ) : Prop
  /-- The coordinator goes one step ahead. -/
  | advances (h : Advances s s')
  /-- Something else happens, and the node is at most read. -/
  | aside (h : s.Aside s') (hn : s.client.remote.Browses s.client.node s'.client.node)
  /-- The node changes by itself. -/
  | moves (h : s.Aside s') (hn : moves s.client.node s'.client.node)

lemma Aside.of_same (hview : s'.client.coordinator.view = s.client.coordinator.view)
    (hstance : s'.stance = s.stance)
    (hstage : s'.client.coordinatorStage = s.client.coordinatorStage ∨
      s.client.coordinatorStage = .held ∧ s'.client.coordinatorStage = .idle)
    (hqueue : s'.client.coordinator.queue = s.client.coordinator.queue)
    (hconfig : s'.client.config = s.client.config) (hremote : s'.client.remote = s.client.remote)
    (hdown : s.client.pool.isDown = true → s'.client.pool.isDown = true)
    (hjournal : s'.journal = s.journal) (hasked : s'.asked = s.asked)
    (houtcomes : ∀ p r, (p, Ask.sequence r) ∈ s.asked →
      s'.client.promises.outcome? p = s.client.promises.outcome? p) : s.Aside s' where
  view := hview
  stance := hstance
  stage := hstage
  queue := hqueue ▸ List.prefix_refl _
  config := hconfig
  remote := hremote
  isDown := hdown
  journal := hjournal
  asked _ hd := hasked ▸ hd
  outcomes := houtcomes
  refused _ _ _ hp _ := .inl (hasked ▸ hp)

lemma Owned.aside_ask (h : s.Owned) (a : Ask) :
    s.Aside (s.after (.ask a)) ∧ (s.after (.ask a)).client.node = s.client.node := by
  have heff := take_effect s.client a
  rw [Situation.after]
  generalize s.client.take a = pc at heff
  obtain ⟨p, c⟩ := pc
  dsimp only at heff ⊢
  -- whatever is new, is the promise that is handed out now
  have hnew : ∀ {q r}, (q, Ask.sequence r) ∈ (p, a) :: s.asked →
      (q, Ask.sequence r) ∈ s.asked ∨ q = p ∧ a = .sequence r := by
    intro q r hq
    rcases List.mem_cons.1 hq with he | hq
    · cases he
      exact .inr ⟨rfl, rfl⟩
    · exact .inl hq
  cases heff with
  | reuses ha =>
    refine ⟨⟨rfl, rfl, .inl rfl, List.prefix_refl _, rfl, rfl, id, rfl, fun d hd =>
      List.mem_cons_of_mem _ hd, fun _ _ _ => rfl, ?_⟩, rfl⟩
    intro q r o hq _
    exact (hnew hq).imp_right fun hp => absurd hp.2 (ha r)
  | answers hp ho hseq =>
    refine ⟨⟨rfl, rfl, .inl rfl, List.prefix_refl _, rfl, rfl, id, rfl, fun d hd =>
      List.mem_cons_of_mem _ hd, fun q r hq => hp.outcome?_eq (h.asked_known q r hq), ?_⟩, rfl⟩
    intro q r o hq hout
    refine (hnew hq).imp_right ?_
    rintro ⟨rfl, har⟩
    have he := Option.some.inj (ho.symm.trans hout)
    exact he ▸ hseq r har
  | submits ha hp hpend hjob hdown =>
    refine ⟨⟨rfl, rfl, .inl rfl, List.prefix_refl _, rfl, rfl, fun hd => hdown.trans hd, rfl,
      fun d hd => List.mem_cons_of_mem _ hd,
      fun q r hq => hp.outcome?_eq (h.asked_known q r hq), ?_⟩, rfl⟩
    intro q r o hq _
    exact (hnew hq).imp_right fun hp => absurd hp.2 (ha r)
  | queues hp hpend =>
    refine ⟨⟨rfl, rfl, .inl rfl, List.prefix_append _ _, rfl, rfl, id, rfl,
      fun d hd => List.mem_cons_of_mem _ hd,
      fun q r hq => hp.outcome?_eq (h.asked_known q r hq), ?_⟩, rfl⟩
    intro q r o hq hout
    refine (hnew hq).imp_right ?_
    rintro ⟨rfl, -⟩
    cases hpend.outcome?_eq.symm.trans hout

lemma Owned.aside_job (h : s.Owned) (i : Nat) :
    s.Aside (s.after (.job i)) ∧
      s.client.remote.Browses s.client.node (s.after (.job i)).client.node := by
  have heff := turn_effect i h.no_direct
  rw [Situation.after]
  generalize s.client.turn (.task i) = c at heff
  cases heff with
  | stays => exact ⟨.of_same rfl rfl (.inl rfl) rfl rfl rfl id rfl rfl fun _ _ _ => rfl, .refl⟩
  | @job job p stage _ hi heff =>
    have ho : s.client.Owes i job p := ⟨stage, hi⟩
    obtain ⟨node, promises, _, _, _, _, _, tasks, _, _, rfl, hbrowse, hdown, hcase⟩ :=
      heff.outline (h.jobs_pending i job p ho) (h.jobs_read i job p ho)
    refine ⟨.of_same rfl rfl (.inl rfl) rfl rfl rfl (fun hd => hdown.trans hd) rfl rfl ?_, hbrowse⟩
    intro q r hq
    -- the promise that a job settles is not that of a write or probe
    obtain ⟨rfl, -⟩ | ⟨-, _, o, -, hset⟩ := hcase
    · rfl
    · refine hset.toSettles.outcome?_of_notMem ?_
      rw [List.mem_singleton]
      rintro rfl
      exact h.jobs_apart i job q r ho hq
  | service hi =>
    exact ⟨.of_same rfl rfl (.inl rfl) rfl rfl rfl id rfl rfl fun _ _ _ => rfl, .refl⟩

/-- Every other event than a step of the coordinator happens aside, and the node is at most read, or
changes by itself. -/
theorem Owned.aside_after (h : s.Owned) {e : Event σ} (he : e ≠ .advance)
    (hallowed : e.Allowed moves s.client.node) :
    s.Aside (s.after e) ∧
      (s.client.remote.Browses s.client.node (s.after e).client.node ∨
        moves s.client.node (s.after e).client.node) := by
  cases e with
  | ask a =>
    obtain ⟨ha, hn⟩ := h.aside_ask a
    exact ⟨ha, .inl (hn ▸ .refl)⟩
  | order o =>
    obtain ⟨_, _, _, _, _, _, _, _, hc, hstage, -, hdown, -⟩ := obey_eq s.client o
    rw [Situation.after, hc]
    exact ⟨.of_same rfl rfl hstage rfl rfl rfl hdown rfl rfl fun _ _ _ => rfl, .inl .refl⟩
  | job i =>
    obtain ⟨ha, hn⟩ := h.aside_job i
    exact ⟨ha, .inl hn⟩
  | advance => exact absurd rfl he
  | clock schedule =>
    exact ⟨.of_same rfl rfl (.inl rfl) rfl rfl rfl id rfl rfl fun _ _ _ => rfl, .inl .refl⟩
  | node n =>
    exact ⟨.of_same rfl rfl (.inl rfl) rfl rfl rfl id rfl rfl fun _ _ _ => rfl, .inr hallowed⟩

/-- They happen aside whatever becomes of the node. -/
lemma Owned.aside_of_ne (h : s.Owned) {e : Event σ} (he : e ≠ .advance) : s.Aside (s.after e) := by
  have hallowed : e.Allowed (fun _ _ => True) s.client.node := by cases e <;> trivial
  exact (h.aside_after he hallowed).1

/-- Every event of a run is a step of the coordinator or happens aside. -/
theorem Owned.happens (h : s.Owned) (hstep : Step moves s s') : Happens moves s s' := by
  obtain ⟨e, hallowed, rfl⟩ := hstep
  by_cases he : e = .advance
  · subst he
    exact .advances h.advances
  · obtain ⟨ha, hn | hn⟩ := h.aside_after he hallowed
    · exact .aside ha hn
    · exact .moves ha hn

/-- To hold along all runs a property needs to hold at first, and to survive the steps of the
coordinator and what happens aside. The promises may be taken to be owed as they should. -/
theorem Runs.invariant {P : Situation σ φ → Prop} {config : ClientConfig} {remote : Remote σ φ}
    {node : σ} (hruns : Runs moves (fresh config remote node) s)
    (hfresh : P (fresh config remote node))
    (hstep : ∀ s s', s.Owned → P s → Happens moves s s' → P s') : P s := by
  induction hruns with
  | refl => exact hfresh
  | tail hruns hlast ih =>
    have howned := owned_of_runs hruns
    exact hstep _ _ howned ih (howned.happens hlast)

end Situation

end ConsensusLink
