import ConsensusLink.Proofs.Client.Aside
import ConsensusLink.Proofs.Sequencing.View
/-!
# Writing to a node in memory

From here on the node of a client is a node in memory that follows no script. `Plain` says so of a
situation, and stays true along runs in which nobody writes a script. What an attempt of the
coordinator does to the log, and which result it can end with, is `AttemptOnLog`.
-/

namespace ConsensusLink

open Promise Client

/-- A client in the middle of its work on a node in memory. -/
abbrev LocalSituation := Situation ScriptedNode ScriptedNode.Phase

namespace Situation

/-- The message log of the node. -/
def log (s : LocalSituation) : List Message := s.client.node.node.log

variable {s s' : LocalSituation} {moves : ScriptedNode → ScriptedNode → Prop}

/-- The node is a node in memory that follows no script. -/
structure Plain (s : LocalSituation) : Prop where
  remote : s.client.remote = ScriptedNode.remote
  scripts : s.client.node.scripts = []
  phase : ∀ r p a stage, s.stance = .resting → s.client.coordinatorStage = .busy r p a stage →
    ∀ phase, stage.phase? = some phase → phase = .atNode

/-- What an attempt at a request does to the log. Its state was `a` before. -/
inductive AttemptOnLog (log : List Message) (r : SequencerRequest) (p : Id) (a : Attempts) :
    AttemptProgress ScriptedNode ScriptedNode.Phase → Prop
  /-- It is still under way. -/
  | pending {a' stage c} (hlog : c.node.node.log = log)
      (hstage : c.coordinatorStage = .busy r p a' stage) (hsent : a.sent = true → a'.sent = true) :
      AttemptOnLog log r p a (.pending c)
  /-- It has ended. If the log has grown then the call was begun. -/
  | ended {a' o c}
      (hwrite : ∀ pos msg, r = .write pos msg → WriteEnds pos msg log o c.node.node.log)
      (hprobe : r = .probe → c.node.node.log = log) (hretry : a'.retry = a.retry)
      (hsent : a.sent = true ∨ c.node.node.log ≠ log → a'.sent = true)
      (hdown : o = .error .shutDown → c.pool.isDown = true) :
      AttemptOnLog log r p a (.result a' o c)

lemma AttemptOnLog.log_grows {log : List Message} {r : SequencerRequest} {p : Id} {a : Attempts}
    {progress : AttemptProgress ScriptedNode ScriptedNode.Phase}
    (h : AttemptOnLog log r p a progress) : log <+: progress.client.node.node.log := by
  cases h with
  | pending hsame => exact hsame ▸ List.prefix_refl _
  | ended hwrite hprobe =>
    cases r with
    | write pos msg => exact (hwrite pos msg rfl).log_grows
    | probe => exact hprobe rfl ▸ List.prefix_refl _

lemma plain_fresh (config : ClientConfig) {node : ScriptedNode} (h : node.scripts = []) :
    Plain (fresh config ScriptedNode.remote node) where
  remote := rfl
  scripts := h
  phase _ _ _ _ _ hc := nomatch hc

lemma Plain.start_atNode (h : s.Plain) {r : SequencerRequest} {p : Id} {a : Attempts}
    {start : Option ScriptedNode.Phase} {coordinator : Coordinator}
    (ht : s.TakesUp r p a start coordinator) (phase : ScriptedNode.Phase)
    (hp : start = some phase) : phase = .atNode := by
  cases ht with
  | resumes hs hc hd => exact h.phase r p a _ hs hc phase hp
  | repeats hs hj => cases hp
  | begins hs hd hq hans => cases hp

/-- The result of an attempt whose call goes to the node in memory. -/
lemma ends_of_answer {r : SequencerRequest} {n n' : MemoryNode} {o : Outcome Answer}
    (h : n.answer r.call = (o, n')) :
    (∀ pos msg, r = .write pos msg → WriteReply pos msg n.log (o.map fun _ => ()) n'.log) ∧
      (r = .probe → n'.log = n.log) ∧ o.map (fun _ => ()) ≠ .error .shutDown := by
  cases r with
  | write pos msg =>
    have hreply := MemoryNode.answer_write n pos msg h
    refine ⟨?_, ?_, hreply.ne_shutDown⟩
    · rintro _ _ ⟨⟩
      exact hreply
    · rintro ⟨⟩
  | probe =>
    have hprobe : ∀ pos msg, Call.probe ≠ .write pos msg := by
      rintro _ _ ⟨⟩
    have hlog := n.log_answer hprobe
    have hres : (n.answer .probe).1.map (fun _ => ()) ≠ .error .shutDown := by
      rw [MemoryNode.answer]
      split
      · rw [MemoryNode.serve]
        split <;> rintro ⟨⟩
      · rintro ⟨⟩
    rw [show n.answer .probe = (o, n') from h] at hlog hres
    refine ⟨?_, fun _ => hlog, hres⟩
    rintro _ _ ⟨⟩

lemma log_attempt (s : LocalSituation) (r : SequencerRequest) (p : Id)
    (progress : AttemptProgress ScriptedNode ScriptedNode.Phase) :
    (s.attempt r p progress).log = progress.client.node.node.log := by
  rw [Situation.log, client_attempt]

/-- What an attempt on a plain node comes to. -/
lemma Plain.attempt (h : s.Plain) (howned : s.Owned) {r : SequencerRequest} {p : Id} {a : Attempts}
    {start : Option ScriptedNode.Phase} {coordinator : Coordinator}
    {progress : AttemptProgress ScriptedNode ScriptedNode.Phase}
    (ht : s.TakesUp r p a start coordinator)
    (heff : AttemptEffect { s.client with coordinator } r p a start progress) :
    Plain (attempt { s with client := { s.client with coordinator } } r p progress) ∧
      AttemptOnLog s.log r p a progress := by
  have hsent := howned.sent_of_takesUp ht
  have hstart := h.start_atNode ht
  cases heff with
  | stays hk hs =>
    refine ⟨⟨h.remote, h.scripts, ?_⟩, .pending rfl rfl id⟩
    rintro _ _ _ _ - ⟨⟩ phase hp
    exact hstart phase (hs.symm.trans hp)
  | fails hk he =>
    refine ⟨⟨h.remote, h.scripts, by rintro _ _ _ _ ⟨⟩⟩, .ended ?_ (fun _ => rfl) rfl ?_ ?_⟩
    · rintro pos msg rfl
      exact .unanswered (he.imp_right (Or.imp_right And.left))
    · rintro (ha | hne)
      · exact ha
      · exact absurd rfl hne
    · rintro ⟨⟩
      obtain he | he | ⟨-, hd⟩ := he
      · cases he
      · cases he
      · exact hk.isDown.trans hd
  | waits hk hgo =>
    rename_i ms phase deadline node pool schedule
    rw [show Client.remote _ = _ from h.remote] at hgo
    obtain ⟨hscripts, ⟨_, hw, hlog⟩ | ⟨_, _, -, -, hw⟩⟩ :=
      ScriptedNode.goes_cases h.scripts hstart hgo
    · cases hw
      refine ⟨⟨h.remote, hscripts, ?_⟩, .pending hlog rfl fun ha => ?_⟩
      · rintro _ _ _ _ - ⟨⟩ phase ⟨⟩
        rfl
      · exact Attempts.sent_called fun _ => ha
    · cases hw
  | returns hk hgo =>
    rename_i progress node pool schedule
    rw [show Client.remote _ = _ from h.remote] at hgo
    obtain ⟨hscripts, hcase⟩ := ScriptedNode.goes_cases h.scripts hstart hgo
    refine ⟨⟨h.remote, hscripts, by rintro _ _ _ _ ⟨⟩⟩, ?_⟩
    obtain ⟨_, rfl, hlog⟩ | ⟨n, o, hn, hans, rfl⟩ := hcase
    · -- the call is given up while it waits
      refine .ended ?_ (fun _ => hlog) (Attempts.retry_called a start)
        (fun _ => Attempts.sent_called hsent) (by rintro ⟨⟩)
      rintro pos msg rfl
      rw [show node.node.log = s.log from hlog]
      exact .unanswered (.inl rfl)
    · obtain ⟨hwrite, hprobe, hdown⟩ := ends_of_answer hans
      rw [hn] at hwrite hprobe
      exact .ended (fun pos msg hr => .replied (hwrite pos msg hr)) hprobe
        (Attempts.retry_called a start) (fun _ => Attempts.sent_called hsent)
        fun ho => absurd ho hdown

/-- A step of the coordinator on a plain node: the node stays plain, and only an attempt can change
the log. -/
lemma Plain.advances (h : s.Plain) (howned : s.Owned) (hadv : Advances s s') : s'.Plain := by
  cases hadv with
  | idles hat hc hat' =>
    refine ⟨h.remote, h.scripts, ?_⟩
    intro r p a stage hs hbusy
    dsimp only at hs hbusy
    subst hs hbusy
    cases hat'
  | stops hcond hset hd => exact ⟨h.remote, h.scripts, by rintro _ _ _ _ - ⟨⟩⟩
  | attempts htake heff => exact (h.attempt howned htake heff).1
  | concludes hs hj hset => exact ⟨h.remote, h.scripts, by rintro _ _ _ _ ⟨⟩⟩
  | pauses hs hj => exact ⟨h.remote, h.scripts, by rintro _ _ _ _ - ⟨⟩ _ ⟨⟩⟩
  | answers hs hd hq hans hset => exact ⟨h.remote, h.scripts, by rintro _ _ _ _ ⟨⟩⟩

/-- What happens aside leaves a plain node plain. -/
lemma Plain.aside (h : s.Plain) (ha : s.Aside s') (hs : s'.client.node.scripts = []) :
    s'.Plain := by
  refine ⟨ha.remote.trans h.remote, hs, ?_⟩
  intro r p a stage hstance hstage
  obtain he | ⟨-, he⟩ := ha.stage
  · exact h.phase r p a stage (ha.stance.symm.trans hstance) (he.symm.trans hstage)
  · cases he.symm.trans hstage

/-- Reading from a plain node. -/
lemma Plain.browses (h : s.Plain) (hn : s.client.remote.Browses s.client.node s'.client.node) :
    s'.client.node.scripts = [] ∧ s'.log = s.log := by
  rw [h.remote] at hn
  exact ScriptedNode.log_of_browses h.scripts hn

/-- A node stays plain as long as nobody writes a script. -/
lemma Plain.happens (h : s.Plain) (howned : s.Owned)
    (hm : ∀ n n', moves n n' → n'.scripts = []) (hh : Happens moves s s') : s'.Plain := by
  cases hh with
  | advances hadv => exact h.advances howned hadv
  | aside ha hn => exact h.aside ha (h.browses hn).1
  | moves ha hn => exact h.aside ha (hm _ _ hn)

/-! ## What the coordinator knows while it is at an attempt -/

section

variable {σ φ : Type} {s : Situation σ φ}

lemma view_answerLocally_none {c c' : Coordinator} {r : SequencerRequest}
    (h : c.answerLocally r = (none, c')) : c'.view = c.view := by
  cases r with
  | probe =>
    cases h
    rfl
  | write pos msg =>
    rw [Coordinator.answerLocally] at h
    split at h
    · cases h
    · rename_i v hv
      cases h
      exact LogView.check_none hv

lemma answerLocally_some {c c' : Coordinator} {r : SequencerRequest} {o : Outcome Unit}
    (h : c.answerLocally r = (some o, c')) :
    ∃ pos msg, r = .write pos msg ∧ c.view.check pos msg = (some o, c'.view) := by
  cases r with
  | probe => cases h
  | write pos msg =>
    refine ⟨pos, msg, rfl, ?_⟩
    rw [Coordinator.answerLocally] at h
    split at h
    · rename_i o' v hv
      cases h
      exact hv
    · cases h

lemma TakesUp.view_eq {r : SequencerRequest} {p : Id} {a : Attempts} {start : Option φ}
    {coordinator : Coordinator} (h : s.TakesUp r p a start coordinator) :
    coordinator.view = s.client.coordinator.view := by
  cases h with
  | resumes => rfl
  | repeats => rfl
  | begins hs hd hq hans =>
    have hview := view_answerLocally_none hans
    cases r with
    | write => exact hview
    | probe => exact hview

/-- An attempt tells the coordinator nothing of the log before its result is judged. -/
lemma TakesUp.view_attempt {r : SequencerRequest} {p : Id} {a : Attempts} {start : Option φ}
    {coordinator : Coordinator} {progress : AttemptProgress σ φ}
    (h : s.TakesUp r p a start coordinator)
    (heff : AttemptEffect { s.client with coordinator } r p a start progress) :
    progress.client.coordinator.view = s.client.coordinator.view := by
  obtain ⟨_, _, _, _, hclient, -⟩ := heff.client_eq
  rw [hclient]
  exact h.view_eq

end

end Situation

end ConsensusLink
