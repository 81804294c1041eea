import ConsensusLink.Proofs.Sequencing.Writing
import Mathlib.Logic.Function.Basic
/-!
# Writes are durable

Any number of clients write to one node in memory, while its lease changes hands, its calls fail,
its acknowledgements are lost and others append to its log. `Sound` couples what one coordinator
knows and has said with the log: its view fits the log, and every outcome that it has given to a
write is warranted. The log only grows, so that what is warranted remains so, for all clients of a
`Fleet`.
-/

namespace ConsensusLink

open Promise Relation Client

namespace Situation

variable {s s' : LocalSituation}

/-- What a coordinator knows and has said is true of the log. -/
structure Sound (log : List Message) (s : LocalSituation) : Prop where
  /-- Its view fits. -/
  fits : s.client.coordinator.view.Fits log
  /-- The result that is at hand is warranted. -/
  judged : ∀ pos msg p a o, s.stance = .judging (.write pos msg) p a o → Warranted log pos msg o
  /-- The outcomes of writes are warranted. -/
  settled : ∀ p pos msg o, (p, Ask.sequence (.write pos msg)) ∈ s.asked →
    s.client.promises.outcome? p = some o → Warranted log pos msg (o.map fun _ => ())

namespace Sound

variable {log log' : List Message}

lemma mono (h : s.Sound log) (hp : log <+: log') : s.Sound log' where
  fits := h.fits.mono hp
  judged pos msg p a o hs := (h.judged pos msg p a o hs).mono hp
  settled p pos msg o hp' ho := (h.settled p pos msg o hp' ho).mono hp

lemma fresh (config : ClientConfig) (node : ScriptedNode) :
    Sound log (fresh config ScriptedNode.remote node) :=
  ⟨LogView.fits_empty _, by rintro _ _ _ _ _ ⟨⟩, by rintro _ _ _ _ ⟨⟩⟩

lemma aside (h : s.Sound log) (ha : s.Aside s') : s'.Sound log where
  fits := ha.view ▸ h.fits
  judged pos msg p a o hs := h.judged pos msg p a o (ha.stance.symm.trans hs)
  settled p pos msg o hp ho := by
    rcases ha.refused p _ o hp ho with hold | rfl | rfl
    · exact h.settled p pos msg o hold ((ha.outcomes p _ hold).symm.trans ho)
    · exact .of_error nofun nofun
    · exact .of_error nofun nofun

/-- The outcomes after some promises were settled with an outcome that is warranted for each. -/
lemma settled_of_settles (h : s.Sound log) {promises : Store Answer Failure Follow} {ps : List Id}
    {o : Outcome Answer} (hset : s.client.promises.Settles promises ps o)
    (hw : ∀ p pos msg, p ∈ ps → (p, Ask.sequence (.write pos msg)) ∈ s.asked →
      Warranted log pos msg (o.map fun _ => ()))
    (p : Id) (pos : MessageIndex) (msg : Message) (o' : Outcome Answer)
    (hp : (p, Ask.sequence (.write pos msg)) ∈ s.asked) (ho : promises.outcome? p = some o') :
    Warranted log pos msg (o'.map fun _ => ()) := by
  by_cases hmem : p ∈ ps
  · rw [hset.outcome p hmem] at ho
    cases ho
    exact hw p pos msg hmem hp
  · rw [hset.outcome?_of_notMem hmem] at ho
    exact h.settled p pos msg o' hp ho

end Sound

lemma map_done (o : Outcome Unit) : (o.map fun _ => Answer.done).map (fun _ => ()) = o := by
  cases o <;> rfl

/-- An attempt: the log grows at most, and a result is warranted by it. -/
lemma Sound.attempt (h : s.Sound s.log) (howned : s.Owned) (hplain : s.Plain)
    {r : SequencerRequest} {p : Id} {a : Attempts} {start : Option ScriptedNode.Phase}
    {coordinator : Coordinator} {progress : AttemptProgress ScriptedNode ScriptedNode.Phase}
    (ht : s.TakesUp r p a start coordinator)
    (heff : AttemptEffect { s.client with coordinator } r p a start progress) :
    s.log <+: progress.client.node.node.log ∧
      Sound progress.client.node.node.log
        (Situation.attempt { s with client := { s.client with coordinator } } r p progress) := by
  obtain ⟨-, hlog⟩ := hplain.attempt howned ht heff
  have hview := ht.view_attempt heff
  have hpromises : progress.client.promises = s.client.promises := by
    obtain ⟨_, _, _, _, hclient, -⟩ := heff.client_eq
    rw [hclient]
  have hgrows := hlog.log_grows
  have hmono := h.mono hgrows
  refine ⟨hgrows, ?_⟩
  cases hlog with
  | pending => exact ⟨hview ▸ hmono.fits, by rintro _ _ _ _ _ ⟨⟩, hpromises ▸ hmono.settled⟩
  | ended hwrite =>
    refine ⟨hview ▸ hmono.fits, ?_, hpromises ▸ hmono.settled⟩
    rintro pos msg _ _ _ ⟨⟩
    exact (hwrite pos msg rfl).warranted

/-- A step of the coordinator: the log grows at most, and everything stays true of it. -/
lemma Sound.advances (h : s.Sound s.log) (howned : s.Owned) (hplain : s.Plain)
    (hadv : Advances s s') : s.log <+: s'.log ∧ s'.Sound s'.log := by
  cases hadv with
  | idles hat hc hat' =>
    refine ⟨List.prefix_refl _, h.fits, ?_, h.settled⟩
    intro pos msg p a o hs
    dsimp only at hs
    subst hs
    cases hat'
  | stops hcond hset hd =>
    refine ⟨List.prefix_refl _, h.fits, by rintro _ _ _ _ _ ⟨⟩,
      h.settled_of_settles hset.toSettles ?_⟩
    intro p pos msg _ _
    exact .of_error nofun nofun
  | attempts htake heff =>
    rw [log_attempt]
    exact h.attempt howned hplain htake heff
  | concludes hs hj hset =>
    rename_i r p a o _ _ _ _ _ _
    refine ⟨List.prefix_refl _, ?_, by rintro _ _ _ _ _ ⟨⟩,
      h.settled_of_settles hset.toSettles ?_⟩
    · cases r with
      | write pos msg => exact h.fits.afterWrite ((h.judged pos msg p a o hs).conclude a)
      | probe => exact h.fits.afterProbe _
    · intro q pos msg hq hasked
      obtain rfl := List.mem_singleton.1 hq
      have hduty : (r, q) ∈ s.duties := by
        rw [duties_judging hs]
        exact List.mem_cons_self
      obtain rfl := howned.request_eq hduty hasked
      rw [map_done]
      exact (h.judged pos msg q a o hs).conclude a
  | pauses hs hj => exact ⟨List.prefix_refl _, h.fits, by rintro _ _ _ _ _ ⟨⟩, h.settled⟩
  | answers hs hd hq hans hset =>
    rename_i r p queue o coordinator _ _ _ _ _ _
    obtain ⟨pos, msg, rfl, hcheck⟩ := answerLocally_some hans
    obtain ⟨hw, hfits⟩ := LogView.Fits.check h.fits hcheck
    refine ⟨List.prefix_refl _, hfits, by rintro _ _ _ _ _ ⟨⟩,
      h.settled_of_settles hset.toSettles ?_⟩
    intro q pos' msg' hq' hasked
    obtain rfl := List.mem_singleton.1 hq'
    have hduty : (SequencerRequest.write pos msg, q) ∈ s.duties := by
      rw [duties_taking hs, hq]
      exact List.mem_cons_self
    cases howned.request_eq hduty hasked
    rw [map_done]
    exact hw

/-- Whatever happens in a run, the log grows at most, and what a coordinator knows and has said
stays true of it. -/
lemma Sound.happens {moves : ScriptedNode → ScriptedNode → Prop} (h : s.Sound s.log)
    (howned : s.Owned) (hplain : s.Plain) (hm : ∀ n n', moves n n' → n.Grows n')
    (hh : Happens moves s s') : s.log <+: s'.log ∧ s'.Sound s'.log := by
  cases hh with
  | advances hadv => exact h.advances howned hplain hadv
  | aside ha hn =>
    have hlog := (hplain.browses hn).2
    exact ⟨hlog ▸ List.prefix_refl _, hlog ▸ h.aside ha⟩
  | moves ha hn =>
    have hgrows := (hm _ _ hn).2
    exact ⟨hgrows, (h.mono hgrows).aside ha⟩

/-- Along every run of one client on a growing log. -/
lemma sound_of_runs {config : ClientConfig} {node : ScriptedNode} (hn : node.scripts = [])
    (h : Runs ScriptedNode.Grows (fresh config ScriptedNode.remote node) s) :
    s.Plain ∧ s.Sound s.log := by
  refine h.invariant (P := fun s => s.Plain ∧ s.Sound s.log)
    ⟨plain_fresh config hn, .fresh config node⟩ ?_
  rintro s s' howned ⟨hplain, hsound⟩ hh
  exact ⟨hplain.happens howned (fun _ _ hg => hg.1) hh,
    (hsound.happens howned hplain (fun _ _ => id) hh).2⟩

end Situation

/-! ## Many clients -/

/-- Any number of clients of one node. Each sees the node as the others have left it. -/
structure Fleet (ι : Type) where
  /-- The node. -/
  node : ScriptedNode
  /-- The clients, apart from the node. -/
  members : ι → LocalSituation

/-- What changes a fleet: an event of one client, or the node by itself. -/
inductive Fleet.Event (ι : Type) where
  /-- An event of a client. -/
  | member (i : ι) (e : ConsensusLink.Event ScriptedNode)
  /-- The node is now in another state. -/
  | node (state : ScriptedNode)

namespace Fleet

variable {ι : Type} [DecidableEq ι]

/-- One client on the node as it is now. -/
def member (f : Fleet ι) (i : ι) : LocalSituation :=
  { f.members i with client := { (f.members i).client with node := f.node } }

/-- The log of the node. -/
def log (f : Fleet ι) : List Message := f.node.node.log

/-- The fleet after an event. -/
def after (f : Fleet ι) : Event ι → Fleet ι
  | .member i e =>
    let s := (f.member i).after e
    { node := s.client.node, members := Function.update f.members i s }
  | .node n => { f with node := n }

/-- Whether an event may happen to a fleet: clients do not change the node but by calls, and the
node keeps its messages. -/
def Event.Allowed (f : Fleet ι) : Event ι → Prop
  | .member _ (.node _) => False
  | .member _ _ => True
  | .node n => f.node.Grows n

/-- Whether an event is something that a client does. -/
def Event.isOwn : Event ι → Bool
  | .member _ e => e.isOwn
  | .node _ => false

omit [DecidableEq ι] in
lemma Event.allowed_of_isOwn {e : Event ι} (h : e.isOwn = true) (f : Fleet ι) : e.Allowed f := by
  match e, h with
  | .member _ (.ask _), _ | .member _ (.order _), _ | .member _ (.job _), _
  | .member _ .advance, _ | .member _ (.clock _), _ => trivial

/-- One event of a run of a fleet. -/
def Step (f f' : Fleet ι) : Prop := ∃ e : Event ι, e.Allowed f ∧ f' = f.after e

/-- A run of a fleet. -/
def Runs : Fleet ι → Fleet ι → Prop := ReflTransGen Step

/-- Clients that have done nothing yet. -/
def fresh (configs : ι → ClientConfig) (node : ScriptedNode) : Fleet ι where
  node := node
  members i := .fresh (configs i) ScriptedNode.remote node

/-- The fleet after some events. -/
def afterAll (f : Fleet ι) (es : List (Event ι)) : Fleet ι := es.foldl after f

/-- A client was asked to write a message, and its promise has an outcome. -/
def Answered (f : Fleet ι) (i : ι) (pos : MessageIndex) (msg : Message) (o : Outcome Answer) :
    Prop :=
  ∃ p, (p, Ask.sequence (.write pos msg)) ∈ (f.members i).asked ∧
    (f.members i).client.promises.outcome? p = some o

variable {configs : ι → ClientConfig} {node : ScriptedNode} {f f' : Fleet ι}

omit [DecidableEq ι] in
/-- The events of a client are steps of the client alone. -/
lemma step_of_member {i : ι} {e : ConsensusLink.Event ScriptedNode}
    (h : (Event.member i e).Allowed f) :
    Situation.Step ScriptedNode.Grows (f.member i) ((f.member i).after e) := by
  refine ⟨e, ?_, rfl⟩
  cases e with
  | node n => exact h.elim
  | _ => trivial

/-- A step of a client that knows and has said nothing untrue lets the log grow at most. -/
lemma grows_of_runs {config : ClientConfig} (hn : node.scripts = []) {s s' : LocalSituation}
    (h : Situation.Runs ScriptedNode.Grows (.fresh config ScriptedNode.remote node) s)
    (hs : Situation.Step ScriptedNode.Grows s s') : s.client.node.Grows s'.client.node := by
  have howned := Situation.owned_of_runs h
  obtain ⟨hplain, hsound⟩ := Situation.sound_of_runs hn h
  have hh := howned.happens hs
  exact ⟨(hplain.happens howned (fun _ _ hg => hg.1) hh).scripts,
    (hsound.happens howned hplain (fun _ _ => id) hh).1⟩

/-- Each client of a fleet runs on a node whose log grows. -/
lemma runs_member (hn : node.scripts = []) (h : Runs (fresh configs node) f) (i : ι) :
    Situation.Runs ScriptedNode.Grows (.fresh (configs i) ScriptedNode.remote node)
      (f.member i) := by
  induction h generalizing i with
  | refl => exact .refl
  | @tail f _ hruns hstep ih =>
    obtain ⟨e, he, rfl⟩ := hstep
    cases e with
    | node n => exact (ih i).tail ⟨.node n, he, rfl⟩
    | member j e =>
      have hown := step_of_member he
      by_cases hij : i = j
      · subst hij
        have hself : (f.after (.member i e)).member i = (f.member i).after e := by
          simp only [member, after, Function.update_self]
        rw [hself]
        exact (ih i).tail hown
      · -- to the others it is the node that has changed
        have hother : (f.after (.member j e)).member i =
            (f.member i).after (.node ((f.member j).after e).client.node) := by
          simp only [member, after, Function.update_of_ne hij]
          rfl
        have hgrows := grows_of_runs hn (ih j) hown
        rw [hother]
        exact (ih i).tail ⟨.node ((f.member j).after e).client.node, hgrows, rfl⟩

lemma log_prefix_of_runs (hn : node.scripts = []) (h : Runs (fresh configs node) f)
    (h' : Runs f f') : f.log <+: f'.log := by
  induction h' with
  | refl => exact List.prefix_refl _
  | @tail f' _ hruns hstep ih =>
    refine ih.trans ?_
    obtain ⟨e, he, rfl⟩ := hstep
    cases e with
    | node n => exact he.2
    | member j e =>
      exact (grows_of_runs hn (runs_member hn (h.trans hruns) j) (step_of_member he)).2

/-- **Durability and agreement of writes.** Once a client has been told that its write succeeded,
the log holds the message at the position, then and ever after; once it has been told of a conflict,
the log holds another message there. No two writes at one position succeed with different messages.
And what a coordinator takes for the tail is a position of the log. -/
theorem writes_durable (hn : node.scripts = []) (h : Runs (fresh configs node) f)
    (h' : Runs f f') :
    (∀ i pos msg a, f.Answered i pos msg (.ok a) → f'.log[pos.toNat]? = some msg) ∧
      (∀ i pos msg q, f.Answered i pos msg (.error (.conflictingWrite q)) →
        q = pos ∧ ∃ other, f'.log[pos.toNat]? = some other ∧ other ≠ msg) ∧
      (∀ i j pos msg msg' a a', f.Answered i pos msg (.ok a) → f'.Answered j pos msg' (.ok a') →
        msg = msg') ∧
      ∀ i t, (f.members i).client.coordinator.view.tail = some t → t.toNat < f.log.length := by
  have hsound : ∀ {f : Fleet ι} (_ : Runs (fresh configs node) f) i, (f.member i).Sound f.log :=
    fun h i => (Situation.sound_of_runs hn (runs_member hn h i)).2
  have hgrows := log_prefix_of_runs hn h h'
  have hok : ∀ i pos msg a, f.Answered i pos msg (.ok a) → f'.log[pos.toNat]? = some msg := by
    rintro i pos msg a ⟨p, hp, ho⟩
    exact (((hsound h i).settled p pos msg _ hp ho).mono hgrows).ok rfl
  refine ⟨hok, ?_, ?_, ?_⟩
  · rintro i pos msg q ⟨p, hp, ho⟩
    exact (((hsound h i).settled p pos msg _ hp ho).mono hgrows).conflicting q rfl
  · rintro i j pos msg msg' a a' hi ⟨p, hp, ho⟩
    have hlog := ((hsound (h.trans h') j).settled p pos msg' _ hp ho).ok rfl
    exact Option.some.inj ((hok i pos msg a hi).symm.trans hlog)
  · intro i t ht
    exact (hsound h i).fits.tail t ht

/-- A coordinator is started, asked for a write, and lets some steps and one pause pass. -/
def writerEvents {ι : Type} (i : ι) (msg : Message) : List (Event ι) :=
  [.member i (.order .start), .member i (.ask (.sequence (.write (.ofNat 0) msg))),
    .member i .advance, .member i .advance, .member i .advance, .member i (.clock { now := 100 }),
    .member i .advance, .member i .advance]

/-- Two clients of a node that loses its first acknowledgement. -/
def rivals : Fleet Bool :=
  fresh (fun _ => {}) { node := { leaseHeld := true, lostAcks := 1 } }

/-- One client writes, is not told so, writes again and is told; then the other one conflicts. -/
theorem writes_durable_rivals :
    ((rivals.afterAll (writerEvents true (.sample 0))).Answered true (.ofNat 0) (.sample 0)
        (.ok .done) ∧
      (rivals.afterAll (writerEvents true (.sample 0) ++ writerEvents false (.sample 1))).log[0]? =
        some (.sample 0)) ∧
    (rivals.afterAll (writerEvents true (.sample 0) ++ writerEvents false (.sample 1))).Answered
      false (.ofNat 0) (.sample 1) (.error (.conflictingWrite (.ofNat 0))) := by
  have hruns : ∀ (i : Bool) (msg : Message) (f : Fleet Bool),
      Runs f (f.afterAll (writerEvents i msg)) := by
    intro i msg f
    have hown : (writerEvents i msg).all Event.isOwn = true := rfl
    exact Situation.reflTransGen_foldl
      (fun e he f => ⟨e, Event.allowed_of_isOwn (List.all_eq_true.1 hown e he) f, rfl⟩) f
  have h := hruns true (.sample 0) rivals
  have h' := hruns false (.sample 1) (rivals.afterAll (writerEvents true (.sample 0)))
  rw [afterAll, afterAll, ← List.foldl_append] at h'
  have hok : (rivals.afterAll (writerEvents true (.sample 0))).Answered true (.ofNat 0) (.sample 0)
      (.ok .done) := ⟨⟨0⟩, List.mem_singleton.2 rfl, rfl⟩
  exact ⟨⟨hok, (writes_durable rfl h h').1 _ _ _ _ hok⟩, ⟨0⟩, List.mem_singleton.2 rfl, rfl⟩

end Fleet

end ConsensusLink
