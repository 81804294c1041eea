import ConsensusLink.Proofs.Node.Monitored
import ConsensusLink.Proofs.Retry.Verdict
import ConsensusLink.Proofs.Sequencing.Writing
/-!
# What a write comes to

A write that the coordinator cannot answer from what it knows is attempted, again and again as long
as its attempts end with transient failures and there may be more of them. `WriteDelivery` says how
this goes, whatever the attempts come to: an answer of the node, no answer in time, or no room in
the pool. The verdict on the results so far decides. A result that ends the attempts is the outcome
of the write, with one exception: after a transient failure the write may have been applied if a
call of it has reached the node, and then its outcome is unknown. If none has, the coordinator knows
of the log what it knew before.

`WriteCourse` is the invariant behind it: where the coordinator stands with the write, and how this
fits the results that stand in the journal. It is kept by every step of the coordinator, and nothing
else touches it.
-/

namespace ConsensusLink

open Promise Relation Client Monitored

variable {σ φ : Type}

/-! ## Results and calls in the journal -/

namespace Entry

/-- The promise of the request that an entry is about. -/
def promise : Entry σ → Id
  | .attempted _ p _ _ _ => p
  | .concluded _ p _ _ => p

/-- The result of an attempt of the request with a given promise, if this attempt has ended. -/
def result? (p : Id) : Entry σ → Option (Outcome Unit)
  | .attempted _ q _ _ result => if q = p then result else none
  | .concluded .. => none

lemma result?_of_ne {e : Entry σ} {p : Id} (h : e.promise ≠ p) : e.result? p = none := by
  cases e with
  | attempted => exact if_neg h
  | concluded => rfl

lemma snd_of_mem_begun {e : Entry (Monitored σ)} {a : SequencerRequest × Id} (h : a ∈ e.begun) :
    a.2 = e.promise := by
  cases e with
  | attempted =>
    rw [begun] at h
    split at h
    · cases h
    · rw [List.mem_singleton.1 h]
      rfl
  | concluded => cases h

end Entry

namespace Situation

/-- The results that the attempts of a request have had so far, oldest first. -/
def results (s : Situation σ φ) (p : Id) : List (Outcome Unit) :=
  (s.journal.filterMap (Entry.result? p)).reverse

/-- An attempt of a request is under way: it waits for a slot, or its call waits. -/
def isAttempting (s : Situation σ φ) (p : Id) : Bool :=
  match s.stance, s.client.coordinatorStage with
  | .resting, .busy _ q _ (.waiting _) => q = p
  | .resting, .busy _ q _ (.calling ..) => q = p
  | _, _ => false

/-- How many attempts of a request were begun. -/
def attempts (s : Situation σ φ) (p : Id) : Nat := (s.results p).length + (s.isAttempting p).toNat

/-- The calls that were begun at the node for a request, latest first. -/
def callsFor (s : Situation (Monitored σ) φ) (p : Id) : List Call :=
  (s.begun.filter fun a => a.2 = p).map fun a => a.1.call

section

variable {s s' : Situation σ φ} {p : Id}

lemma results_congr (h : s'.journal = s.journal) : s'.results p = s.results p := by
  rw [results, h, results]

lemma results_cons {e : Entry σ} (h : s'.journal = e :: s.journal) :
    s'.results p = s.results p ++ (e.result? p).toList := by
  rw [results, h, results]
  cases he : e.result? p with
  | none => rw [List.filterMap_cons_none he, Option.toList_none, List.append_nil]
  | some o => rw [List.filterMap_cons_some he, List.reverse_cons, Option.toList_some]

/-- An attempt that is under way has no result yet. -/
lemma results_pending (s : Situation σ φ) (r : SequencerRequest) (p : Id) (c : Client σ φ) :
    (s.attempt r p (.pending c)).results p = s.results p := by
  rw [results_cons (s := s) rfl, Entry.result?, if_pos rfl, Option.toList_none, List.append_nil]

lemma results_result (s : Situation σ φ) (r : SequencerRequest) (p : Id) (a : Attempts)
    (o : Outcome Unit) (c : Client σ φ) :
    (s.attempt r p (.result a o c)).results p = s.results p ++ [o] := by
  rw [results_cons (s := s) rfl, Entry.result?, if_pos rfl, Option.toList_some]

/-- The journal is about requests that were at hand at some time, but about none that still
waits. -/
def Traced (s : Situation σ φ) : Prop :=
  ∀ e ∈ s.journal, s.client.promises.Known e.promise ∧
    e.promise ∉ s.client.coordinator.queue.map Prod.snd

lemma Traced.of_subset (h : s.Traced) (hj : s'.journal = s.journal)
    (hp : s.client.promises.Persists s'.client.promises)
    (hq : s'.client.coordinator.queue ⊆ s.client.coordinator.queue) : s'.Traced := by
  intro e he
  obtain ⟨hknown, hwaits⟩ := h e (hj ▸ he)
  exact ⟨hp.known _ hknown, fun hmem => hwaits (List.map_subset _ hq hmem)⟩

/-- An entry about a request that is at hand is added. -/
lemma Traced.cons (h : s.Traced) (howned : s.Owned) {e : Entry σ}
    (hj : s'.journal = e :: s.journal) {r : SequencerRequest}
    {queue : List (SequencerRequest × Id)} (hduties : s.duties = (r, e.promise) :: queue)
    (hp : s.client.promises.Persists s'.client.promises)
    (hqueue : s'.client.coordinator.queue = queue)
    (hq : queue ⊆ s.client.coordinator.queue) : s'.Traced := by
  have hn := howned.duties_nodup
  have hpend := howned.duties_pending (r, e.promise) (hduties ▸ List.mem_cons_self)
  rw [hduties, List.map_cons, List.nodup_cons] at hn
  intro e' he'
  rcases List.mem_cons.1 (hj ▸ he') with rfl | he'
  · exact ⟨hp.known _ hpend.known, hqueue ▸ hn.1⟩
  · obtain ⟨hknown, hwaits⟩ := h e' he'
    exact ⟨hp.known _ hknown, fun hmem => hwaits (List.map_subset _ hq (hqueue ▸ hmem))⟩

lemma TakesUp.queue_subset {r : SequencerRequest} {a : Attempts} {start : Option φ}
    {coordinator : Coordinator} (h : s.TakesUp r p a start coordinator) :
    coordinator.queue ⊆ s.client.coordinator.queue := by
  have hduties := h.duties_eq
  cases h with
  | resumes => exact List.Subset.refl _
  | repeats => exact List.Subset.refl _
  | begins hs hd hq hans =>
    rw [duties_taking hs] at hduties
    rw [hduties]
    exact List.subset_cons_self _ _

/-- The journal after an attempt. -/
lemma journal_attempt (s : Situation σ φ) (r : SequencerRequest) (p : Id)
    (progress : AttemptProgress σ φ) : ∃ result,
      (s.attempt r p progress).journal =
        .attempted r p s.client.node progress.client.node result :: s.journal := by
  cases progress <;> exact ⟨_, rfl⟩

lemma Traced.after (h : s.Traced) (howned : s.Owned) (e : Event σ) : (s.after e).Traced := by
  have hp := howned.persists_after e
  by_cases he : e = .advance
  · subst he
    have hadv := howned.advances
    rw [Situation.after] at hp ⊢
    generalize s.advance = s' at hadv hp ⊢
    cases hadv with
    | idles => exact h.of_subset rfl hp (List.Subset.refl _)
    | stops => exact h.of_subset rfl hp (List.nil_subset _)
    | attempts htake heff =>
      rename_i r p a start coordinator progress
      obtain ⟨result, hj⟩ :=
        journal_attempt { s with client := { s.client with coordinator } } r p progress
      refine h.cons howned hj htake.duties_eq hp ?_ htake.queue_subset
      obtain ⟨_, _, _, _, hclient, -⟩ := heff.client_eq
      rw [client_attempt, hclient]
    | concludes hs =>
      exact h.cons howned rfl (duties_judging hs) hp rfl (List.Subset.refl _)
    | pauses => exact h.of_subset rfl hp (List.Subset.refl _)
    | answers hs hup hq hans hset =>
      rename_i r p queue o coordinator _ _ _ _ _ _
      have hqueue := queue_answerLocally { s.client.coordinator with queue } r
      rw [hans] at hqueue
      refine h.of_subset rfl hp ?_
      change coordinator.queue ⊆ _
      rw [show coordinator.queue = queue from hqueue, hq]
      exact List.subset_cons_self _ _
  · obtain ⟨_, hk⟩ := howned.coordinator_after he
    intro entry hentry
    rw [(howned.aside_of_ne he).journal] at hentry
    obtain ⟨hknown, hwaits⟩ := h entry hentry
    refine ⟨hp.known _ hknown, ?_⟩
    rw [hk, List.map_append, List.mem_append]
    rintro (hmem | hmem)
    · exact hwaits hmem
    · -- what joins the queue has a new promise
      obtain ⟨a, ha, hsame⟩ := List.mem_map.1 hmem
      obtain ⟨-, hnew, -⟩ := mem_admission ha
      rw [← hsame, hnew] at hknown
      exact Store.not_known_add _ hknown

lemma traced_of_runs {config : ClientConfig} {remote : Remote σ φ} {node : σ}
    {moves : σ → σ → Prop} (h : Runs moves (fresh config remote node) s) : s.Traced := by
  induction h with
  | refl =>
    have hnone : (fresh config remote node).journal = [] := rfl
    intro e he
    rw [hnone] at he
    cases he
  | tail hr hstep ih =>
    obtain ⟨e, -, rfl⟩ := hstep
    exact ih.after (owned_of_runs hr) e

end

variable {s s' : Situation (Monitored σ) φ} {p : Id}

lemma callsFor_congr (h : s'.journal = s.journal) : s'.callsFor p = s.callsFor p := by
  rw [callsFor, begun_congr h, callsFor]

/-- A request that waits in the queue was not attempted yet. -/
lemma Traced.unattempted (h : s.Traced) {r : SequencerRequest}
    (hmem : (r, p) ∈ s.client.coordinator.queue) : s.results p = [] ∧ s.callsFor p = [] := by
  have hne : ∀ e ∈ s.journal, e.promise ≠ p := by
    rintro e he rfl
    exact (h e he).2 (List.mem_map_of_mem hmem)
  constructor
  · rw [results, List.reverse_eq_nil_iff, List.filterMap_eq_nil_iff]
    exact fun e he => Entry.result?_of_ne (hne e he)
  · rw [callsFor, List.map_eq_nil_iff, List.filter_eq_nil_iff]
    intro a ha
    obtain ⟨e, he, ha⟩ := List.mem_flatMap.1 ha
    rw [decide_eq_true_eq, Entry.snd_of_mem_begun ha]
    exact hne e he

lemma callsFor_attempt (s : Situation (Monitored σ) φ) (r : SequencerRequest) (p : Id)
    (progress : AttemptProgress (Monitored σ) φ) :
    (s.attempt r p progress).callsFor p =
      (if progress.client.node.calls.length ≤ s.client.node.calls.length then [] else [r.call]) ++
        s.callsFor p := by
  have hbegun : (s.attempt r p progress).begun =
      (if progress.client.node.calls.length ≤ s.client.node.calls.length then [] else [(r, p)]) ++
        s.begun := by
    cases progress <;> rfl
  rw [callsFor, hbegun, List.filter_append, List.map_append, callsFor]
  congr 1
  split
  · rfl
  · rw [List.filter_cons_of_pos (by simp)]
    rfl

/-- An attempt that does not get to its call begins none. -/
lemma callsFor_attempt_of_node {r : SequencerRequest} {progress : AttemptProgress (Monitored σ) φ}
    (hnode : progress.client.node = s.client.node) :
    (s.attempt r p progress).callsFor p = s.callsFor p := by
  rw [callsFor_attempt, hnode, if_pos (Nat.le_refl _), List.nil_append]

/-- An attempt begins its call, unless this waits already. -/
lemma callsFor_attempt_of_goes {remote : Remote σ φ} {r : SequencerRequest} {start : Option φ}
    {call : CallProgress φ} {progress : AttemptProgress (Monitored σ) φ}
    (hgo : remote.monitored.Goes r.call s.client.now start s.client.node call
      progress.client.node) :
    (s.attempt r p progress).callsFor p =
        (if start.isNone then [r.call] else []) ++ s.callsFor p ∧
      progress.client.node.commands =
        (if start.isNone then [r.call] else []) ++ s.client.node.commands := by
  have hcalls := calls_goes hgo
  rw [callsFor_attempt]
  cases start with
  | none =>
    have hmore : ¬progress.client.node.calls.length ≤ s.client.node.calls.length := by
      rw [hcalls]
      exact Nat.not_succ_le_self _
    rw [if_neg hmore]
    exact ⟨rfl, commands_cons hcalls r.isRead_call⟩
  | some phase =>
    have hsame : progress.client.node.calls = s.client.node.calls := hcalls
    rw [hsame, if_pos (Nat.le_refl _)]
    exact ⟨rfl, commands_eq hsame⟩

end Situation

/-! ## The outcome of a write -/

/-- What a write is answered with when its attempts end with a given result. It is sent if a call of
it has reached the node. -/
inductive WriteAnswer (pos : MessageIndex) (sent : Prop) : Outcome Unit → Outcome Answer → Prop
  /-- It was accepted. -/
  | accepted : WriteAnswer pos sent (.ok ()) (.ok .done)
  /-- It has failed for good. -/
  | definite {e} (he : e.isTransient = false) : WriteAnswer pos sent (.error e) (.error e)
  /-- It may have been applied. -/
  | doubtful {e} (he : e.isTransient = true) (hsent : sent) :
    WriteAnswer pos sent (.error e) (.error (.outcomeUnknown pos))
  /-- It was not applied, since the node does not know of it. -/
  | unsent {e} (he : e.isTransient = true) (hsent : ¬sent) :
    WriteAnswer pos sent (.error e) (.error e)

lemma Attempts.conclude_unsent {a : Attempts} (h : a.sent = false) (r : SequencerRequest)
    (o : Outcome Unit) : a.conclude r o = o := by
  unfold conclude
  split
  · rw [if_neg fun hboth => by rw [h] at hboth; cases hboth.2]
  · rfl

lemma Attempts.writeAnswer_conclude (a : Attempts) (pos : MessageIndex) (msg : Message)
    (o : Outcome Unit) :
    WriteAnswer pos (a.sent = true) o ((a.conclude (.write pos msg) o).map fun _ => .done) := by
  cases o with
  | ok => exact .accepted
  | error e =>
    rw [conclude]
    cases he : e.isTransient with
    | false =>
      rw [if_neg fun hboth => by cases hboth.1]
      exact .definite he
    | true =>
      by_cases hsent : a.sent = true
      · rw [if_pos ⟨rfl, hsent⟩]
        exact .doubtful he hsent
      · rw [if_neg fun hboth => hsent hboth.2]
        exact .unsent he hsent

lemma WriteAnswer.congr {pos : MessageIndex} {sent sent' : Prop} {o : Outcome Unit}
    {o' : Outcome Answer} (h : WriteAnswer pos sent o o') (hsent : sent ↔ sent') :
    WriteAnswer pos sent' o o' := by
  rwa [← hsent]

/-- A transient failure tells nothing of the log. -/
lemma LogView.afterWrite_of_isTransient {v : LogView} {e : Failure} (h : e.isTransient = true)
    (pos : MessageIndex) (msg : Message) : v.afterWrite pos msg (.error e) = v := by
  obtain ⟨_, rfl⟩ | rfl | rfl := e.isTransient_iff.1 h <;> rfl

namespace Situation

/-! ## The course of a write -/

variable {s₀ s s' : Situation (Monitored σ) φ} {pos : MessageIndex} {msg : Message} {p : Id}

/-- What holds of a write as long as it is at hand: nothing but its own calls has reached the node,
and the coordinator knows of the log what it knew before. -/
structure OpenWrite (s₀ s : Situation (Monitored σ) φ) (pos : MessageIndex) (msg : Message) (p : Id)
    (a : Attempts) : Prop where
  view : s.client.coordinator.view = s₀.client.coordinator.view
  commands : s.client.node.commands = s.callsFor p ++ s₀.client.node.commands
  calls : ∀ call ∈ s.callsFor p, call = .write pos msg
  sent : a.sent = true ↔ s.callsFor p ≠ []

/-- What holds of a write once it has ended: its attempts were as many as they may be, at most, and
the verdict on their results was its outcome, unless it was cut short by a shutdown. -/
structure EndedWrite (s₀ s : Situation (Monitored σ) φ) (pos : MessageIndex) (msg : Message)
    (p : Id) (o : Outcome Answer) : Prop where
  repeats : ∀ r ∈ (s.results p).dropLast, s₀.client.writePolicy.repeats r = true
  results_le : (s.results p).length ≤ s₀.client.writePolicy.maxRetries.toNat + 1
  calls_le : (s.callsFor p).length ≤ s₀.client.writePolicy.maxRetries.toNat + 1
  calls : ∀ call ∈ s.callsFor p, call = .write pos msg
  outcome :
    s₀.client.writePolicy.verdict (s.results p) = none ∧ s.client.pool.isDown = true ∧
        o = .error .shutDown ∨
      ∃ r, s₀.client.writePolicy.verdict (s.results p) = some r ∧
        WriteAnswer pos (s.callsFor p ≠ []) r o

/-- How the coordinator stands with a write that it took up in the situation `s₀`. -/
inductive WriteCourse (s₀ s : Situation (Monitored σ) φ) (pos : MessageIndex) (msg : Message)
    (p : Id) : Prop
  /-- An attempt is under way, or the next one is to begin after a pause. -/
  | attempting {a stage} (hs : s.stance = .resting)
      (hc : s.client.coordinatorStage = .busy (.write pos msg) p a stage)
      (hreach : s₀.client.writePolicy.Reaches (s.results p) a.retry)
      (hcalls : (s.callsFor p).length ≤ (s.results p).length + stage.phase?.isSome.toNat)
      (hopen : OpenWrite s₀ s pos msg p a)
  /-- An attempt has ended. -/
  | judging {results a o} (hs : s.stance = .judging (.write pos msg) p a o)
      (hresults : s.results p = results ++ [o])
      (hreach : s₀.client.writePolicy.Reaches results a.retry)
      (hcalls : (s.callsFor p).length ≤ results.length + 1)
      (hopen : OpenWrite s₀ s pos msg p a)
  /-- The write has ended. -/
  | ended {o} (hout : s.client.promises.outcome? p = some o) (hended : EndedWrite s₀ s pos msg p o)

/-- After an attempt that has not got to its call. -/
lemma OpenWrite.attempt_of_node {a : Attempts} {progress : AttemptProgress (Monitored σ) φ}
    (h : OpenWrite s₀ s pos msg p a) (hnode : progress.client.node = s.client.node)
    (hk : progress.client.coordinator = s.client.coordinator) :
    OpenWrite s₀ (s.attempt (.write pos msg) p progress) pos msg p a := by
  have hcalls := callsFor_attempt_of_node (p := p) (r := .write pos msg) hnode
  refine ⟨?_, ?_, hcalls ▸ h.calls, hcalls ▸ h.sent⟩
  · rw [client_attempt, hk, h.view]
  · rw [client_attempt, hnode, hcalls, h.commands]

/-- After an attempt whose call has gone on, or has begun. -/
lemma OpenWrite.attempt_of_goes {remote : Remote σ φ} {a : Attempts} {start : Option φ}
    {call : CallProgress φ} {progress : AttemptProgress (Monitored σ) φ}
    (h : OpenWrite s₀ s pos msg p a) (hsent : start ≠ none → a.sent = true)
    (hgo : remote.monitored.Goes (.write pos msg) s.client.now start s.client.node call
      progress.client.node)
    (hk : progress.client.coordinator = s.client.coordinator) :
    OpenWrite s₀ (s.attempt (.write pos msg) p progress) pos msg p (a.called start) := by
  obtain ⟨hcalls, hcommands⟩ := callsFor_attempt_of_goes (p := p) (r := .write pos msg) hgo
  refine ⟨?_, ?_, fun call hmem => ?_, iff_of_true (Attempts.sent_called hsent) ?_⟩
  · rw [client_attempt, hk, h.view]
  · rw [client_attempt, hcommands, hcalls, h.commands, List.append_assoc]
  · rw [hcalls] at hmem
    rcases List.mem_append.1 hmem with hmem | hmem
    · cases start with
      | none => exact List.mem_singleton.1 hmem
      | some phase => cases hmem
    · exact h.calls call hmem
  · rw [hcalls]
    cases start with
    | none => exact List.cons_ne_nil _ _
    | some phase => exact h.sent.1 (hsent nofun)

/-- An attempt goes on, or comes to its end. -/
lemma course_attempt {remote : Remote σ φ} {a : Attempts} {start : Option φ}
    {progress : AttemptProgress (Monitored σ) φ}
    (hremote : s.client.remote = remote.monitored)
    (hreach : s₀.client.writePolicy.Reaches (s.results p) a.retry)
    (hcalls : (s.callsFor p).length ≤ (s.results p).length + start.isSome.toNat)
    (hsent : start ≠ none → a.sent = true) (hopen : OpenWrite s₀ s pos msg p a)
    (heff : AttemptEffect s.client (.write pos msg) p a start progress) :
    WriteCourse s₀ (s.attempt (.write pos msg) p progress) pos msg p := by
  -- one call more at most, if none waits
  have hone : (s.callsFor p).length + start.isNone.toNat ≤ (s.results p).length + 1 := by
    cases start <;> simpa using hcalls
  have hgoes : ∀ {call : CallProgress φ} {node : Monitored σ},
      s.client.remote.Goes (SequencerRequest.write pos msg).call s.client.now start s.client.node
        call node → progress.client.node = node →
      progress.client.coordinator = s.client.coordinator →
      OpenWrite s₀ (s.attempt (.write pos msg) p progress) pos msg p (a.called start) ∧
        ((s.attempt (.write pos msg) p progress).callsFor p).length ≤
          (s.results p).length + 1 := by
    rintro call _ hgo rfl hk
    rw [hremote] at hgo
    refine ⟨hopen.attempt_of_goes hsent hgo hk, ?_⟩
    rw [(callsFor_attempt_of_goes (p := p) (r := .write pos msg) hgo).1, List.length_append]
    cases start <;> simp at hone ⊢ <;> omega
  cases heff with
  | stays hk hs =>
    subst hs
    refine .attempting rfl rfl ?_ ?_ (hopen.attempt_of_node rfl rfl)
    · rw [results_pending]
      exact hreach
    · rw [results_pending, callsFor_attempt_of_node rfl]
      exact hcalls
  | fails hk he =>
    refine .judging rfl (results_result ..) hreach ?_ (hopen.attempt_of_node rfl rfl)
    rw [callsFor_attempt_of_node rfl]
    omega
  | waits hk hgo =>
    obtain ⟨hopen', hcalls'⟩ := hgoes hgo rfl rfl
    refine .attempting rfl rfl ?_ ?_ hopen'
    · rw [results_pending, Attempts.retry_called]
      exact hreach
    · rw [results_pending]
      exact hcalls'
  | returns hk hgo =>
    obtain ⟨hopen', hcalls'⟩ := hgoes hgo rfl rfl
    refine .judging rfl (results_result ..) ?_ hcalls' hopen'
    rw [Attempts.retry_called]
    exact hreach

/-! ### Events -/

lemma OpenWrite.of_same {a b : Attempts} (h : OpenWrite s₀ s pos msg p a)
    (hview : s'.client.coordinator.view = s.client.coordinator.view)
    (hjournal : s'.journal = s.journal)
    (hcommands : s'.client.node.commands = s.client.node.commands) (hsent : b.sent = a.sent) :
    OpenWrite s₀ s' pos msg p b where
  view := hview.trans h.view
  commands := by rw [hcommands, callsFor_congr hjournal, h.commands]
  calls := callsFor_congr hjournal ▸ h.calls
  sent := by rw [hsent, callsFor_congr hjournal, h.sent]

lemma EndedWrite.of_same {o : Outcome Answer} (h : EndedWrite s₀ s pos msg p o)
    (hresults : s'.results p = s.results p) (hcalls : s'.callsFor p = s.callsFor p)
    (hdown : s.client.pool.isDown = true → s'.client.pool.isDown = true) :
    EndedWrite s₀ s' pos msg p o where
  repeats := hresults ▸ h.repeats
  results_le := hresults ▸ h.results_le
  calls_le := hcalls ▸ h.calls_le
  calls := hcalls ▸ h.calls
  outcome := by
    rw [hresults, hcalls]
    exact h.outcome.imp_left fun ⟨hv, hd, ho⟩ => ⟨hv, hdown hd, ho⟩

/-- Beside the coordinator nothing happens to the write. -/
lemma WriteCourse.aside (h : WriteCourse s₀ s pos msg p) (ha : s.Aside s')
    (hpersists : s.client.promises.Persists s'.client.promises)
    (hcommands : s'.client.node.commands = s.client.node.commands) :
    WriteCourse s₀ s' pos msg p := by
  have hresults := results_congr (p := p) ha.journal
  have hcalls := callsFor_congr (p := p) ha.journal
  cases h with
  | attempting hs hc hreach hle hopen =>
    have hstage : s'.client.coordinatorStage = s.client.coordinatorStage := by
      obtain hsame | ⟨hheld, -⟩ := ha.stage
      · exact hsame
      · cases hheld.symm.trans hc
    refine .attempting (ha.stance.trans hs) (hstage.trans hc) (hresults ▸ hreach) ?_
      (hopen.of_same ha.view ha.journal hcommands rfl)
    rw [hresults, hcalls]
    exact hle
  | judging hs hresult hreach hle hopen =>
    exact .judging (ha.stance.trans hs) (hresults.trans hresult) hreach (hcalls ▸ hle)
      (hopen.of_same ha.view ha.journal hcommands rfl)
  | ended hout hended =>
    exact .ended (hpersists.outcome _ _ hout) (hended.of_same hresults hcalls ha.isDown)

/-- An attempt of another request adds nothing to what is noted of this one. -/
lemma results_attempt_of_ne {r : SequencerRequest} {q : Id}
    {progress : AttemptProgress (Monitored σ) φ} (hne : q ≠ p) :
    (s.attempt r q progress).results p = s.results p ∧
      (s.attempt r q progress).callsFor p = s.callsFor p := by
  obtain ⟨result, hj⟩ := journal_attempt s r q progress
  constructor
  · have hnone := Entry.result?_of_ne (σ := Monitored σ)
      (e := .attempted r q s.client.node progress.client.node result) hne
    rw [results_cons hj, hnone, Option.toList_none, List.append_nil]
  · rw [callsFor, begun, hj, List.flatMap_cons, List.filter_append, List.filter_eq_nil_iff.2 ?_,
      List.nil_append]
    · rfl
    · intro a ha
      rw [decide_eq_true_eq, Entry.snd_of_mem_begun ha]
      exact hne

/-- Nothing is noted of a request any more once it has its outcome. -/
lemma Owned.results_advance (howned : s.Owned) {o : Outcome Answer}
    (hout : s.client.promises.outcome? p = some o) :
    s.advance.results p = s.results p ∧ s.advance.callsFor p = s.callsFor p := by
  have hadv := howned.advances
  generalize s.advance = s' at hadv
  cases hadv with
  | attempts htake heff =>
    rename_i r q a start coordinator progress
    have hpend := howned.duties_pending (r, q) (htake.duties_eq ▸ List.mem_cons_self)
    -- the attempt is one of another request, for this one is owed no more
    have hne : q ≠ p := by
      rintro rfl
      cases hpend.outcome?_eq.symm.trans hout
    exact results_attempt_of_ne (s := { s with client := { s.client with coordinator } }) hne
  | concludes hs hj hset =>
    refine ⟨?_, rfl⟩
    rw [results_cons (s := s) rfl, Entry.result?, Option.toList_none, List.append_nil]
  | _ => exact ⟨rfl, rfl⟩

/-- Ending a request after its attempts. -/
lemma conclude_eq (hp : s.client.promises.Pending p) (r : SequencerRequest) (o : Outcome Unit) :
    ∃ promises settlements batches blocks messageBatches tracker,
      s.conclude r p o =
          { s with
            client :=
              { s.client with
                promises, settlements, batches, blocks, messageBatches, tracker
                coordinator := s.client.coordinator.finish r o }
            stance := .taking
            journal := .concluded r p o s.client.node :: s.journal } ∧
        promises.outcome? p = some (o.map fun _ => .done) := by
  obtain ⟨_, _, _, _, _, hc, hset⟩ := settle_eq
    (c := { s.client with coordinator := s.client.coordinator.finish r o }) hp
    (o.map fun _ => .done)
  rw [conclude, settleRequest, hc]
  exact ⟨_, _, _, _, _, _, rfl, hset.outcome p (List.mem_singleton_self p)⟩

/-- When the coordinator stops in the middle of a write, this is cut short. -/
lemma ended_of_isDown {a : Attempts} {n : Nat}
    (hreach : s₀.client.writePolicy.Reaches (s.results p) a.retry)
    (hcalls : (s.callsFor p).length ≤ (s.results p).length + n) (hn : n ≤ 1)
    (hopen : OpenWrite s₀ s pos msg p a) (hdown : s.client.pool.isDown = true) :
    EndedWrite s₀ s pos msg p (.error .shutDown) := by
  have hle := hreach.le
  exact
    { repeats := fun r hr => hreach.repeats r (List.dropLast_subset _ hr)
      results_le := by omega
      calls_le := by omega
      calls := hopen.calls
      outcome := .inl ⟨hreach.verdict_eq_none, hdown, rfl⟩ }

/-- When the loop of the attempts ends, the write has the outcome that the verdict says. -/
lemma ended_of_finish {a : Attempts} {results : List (Outcome Unit)} {o o' : Outcome Unit}
    (hresults : s.results p = results ++ [o])
    (hreach : s₀.client.writePolicy.Reaches results a.retry)
    (hj : s₀.client.writePolicy.judge a.retry o = .finish o')
    (hcalls : (s.callsFor p).length ≤ results.length + 1) (hopen : OpenWrite s₀ s pos msg p a) :
    EndedWrite s₀ s pos msg p ((a.conclude (.write pos msg) o').map fun _ => .done) := by
  obtain ⟨rfl, hverdict⟩ := hreach.finish hj
  have hle := hreach.le
  exact
    { repeats := by
        rw [hresults, List.dropLast_concat]
        exact hreach.repeats
      results_le := hresults ▸ hreach.length_le _
      calls_le := by omega
      calls := hopen.calls
      outcome := by
        rw [hresults]
        exact .inr ⟨_, hverdict, (a.writeAnswer_conclude pos msg _).congr hopen.sent⟩ }

lemma WriteCourse.advance {remote : Remote σ φ} (h : WriteCourse s₀ s pos msg p) (howned : s.Owned)
    (hremote : s.client.remote = remote.monitored)
    (hconfig : s.client.config = s₀.client.config) : WriteCourse s₀ s.advance pos msg p := by
  have hpolicy : s.client.writePolicy = s₀.client.writePolicy := by
    rw [writePolicy, hconfig, writePolicy]
  cases h with
  | @attempting a stage hs hc hreach hle hopen =>
    have hat := atHand_busy hs hc
    have hmem := mem_duties_of_atHand hat
    cases hd : s.client.pool.isDown with
    | false =>
      rw [advance_busy hs hc hd]
      exact course_attempt hremote hreach hle (howned.sent _ _ _ _ hs hc) hopen
        (resumeAttempt_effect hc)
    | true =>
      -- the pool is down, so that the coordinator can do nothing but stop
      have hadv := howned.advances
      generalize s.advance = s' at hadv
      cases hadv with
      | idles hnone => cases hnone.symm.trans hat
      | stops hcond hset hdown =>
        refine .ended (hset.outcome p (List.mem_map_of_mem hmem)) ?_
        have hended := ended_of_isDown hreach hle (Bool.toNat_le _) hopen hd
        exact hended.of_same rfl rfl fun hd => hdown.trans hd
      | attempts htake =>
        cases htake with
        | resumes _ _ hup => cases hup.symm.trans hd
        | repeats hs' => cases hs'.symm.trans hs
        | begins hs' => cases hs'.symm.trans hs
      | concludes hs' => cases hs'.symm.trans hs
      | pauses hs' => cases hs'.symm.trans hs
      | answers hs' => cases hs'.symm.trans hs
  | @judging results a o hs hresults hreach hle hopen =>
    have hmem := mem_duties_of_atHand (atHand_judging hs)
    cases hj : s.client.writePolicy.judge a.retry o with
    | finish o' =>
      have hended := ended_of_finish hresults hreach (hpolicy ▸ hj) hle hopen
      obtain ⟨_, _, _, _, _, _, he, hout⟩ := conclude_eq (howned.duties_pending _ hmem)
        (.write pos msg) (a.conclude (.write pos msg) o')
      rw [advance_finish hs hj, he]
      refine .ended hout (hended.of_same ?_ rfl id)
      rw [results_cons (s := s) rfl, Entry.result?, Option.toList_none, List.append_nil]
    | again delay next =>
      -- the result that was judged is now one of those behind the loop
      have hagain := hreach.again (hpolicy ▸ hj)
      rw [← hresults] at hagain
      have hle' : (s.callsFor p).length ≤
          (s.results p).length + (none : Option φ).isSome.toNat := by
        rw [hresults, List.length_append]
        exact hle
      by_cases hd : delay = 0
      · subst hd
        rw [advance_again hs hj]
        exact course_attempt hremote hagain hle' nofun
          (hopen.of_same (b := { a with retry := next }) rfl rfl rfl rfl)
          (beginAttempt_effect _ _ _ _)
      · rw [advance_pause hs hj hd]
        exact .attempting rfl rfl hagain hle' (hopen.of_same rfl rfl rfl rfl)
  | ended hout hended =>
    obtain ⟨hresults, hcalls⟩ := howned.results_advance hout
    refine .ended ((howned.persists_after .advance).outcome _ _ hout)
      (hended.of_same hresults hcalls fun hd => howned.advances.isDown.trans hd)

/-- The coordinator takes up a write that it cannot answer. -/
lemma course_begin {remote : Remote σ φ} {queue : List (SequencerRequest × Id)}
    (htraced : s₀.Traced) (hremote : s₀.client.remote = remote.monitored)
    (hs : s₀.stance = .taking) (hup : s₀.client.pool.isDown = false)
    (hq : s₀.client.coordinator.queue = (.write pos msg, p) :: queue)
    (hcheck : (s₀.client.coordinator.view.check pos msg).1 = none) :
    WriteCourse s₀ s₀.advance pos msg p := by
  obtain ⟨coordinator, hans⟩ : ∃ coordinator, Coordinator.answerLocally
      { s₀.client.coordinator with queue } (.write pos msg) = (none, coordinator) := by
    rcases hc : s₀.client.coordinator.view.check pos msg with ⟨_ | o, v⟩
    · exact ⟨_, by rw [Coordinator.answerLocally, hc]⟩
    · rw [hc] at hcheck
      cases hcheck
  have hview : coordinator.view = s₀.client.coordinator.view :=
    view_answerLocally_none (c := { s₀.client.coordinator with queue }) hans
  -- nothing was noted of a write that waited, so that its loop begins with nothing behind it
  obtain ⟨hresults, hcalls⟩ := htraced.unattempted (hq ▸ List.mem_cons_self)
  rw [advance_taking hs hup, takeUp_asked hq hans]
  refine course_attempt (s := { s₀ with client := { s₀.client with
    coordinator := coordinator.startCalls (.write pos msg) } }) hremote ?_ ?_ (absurd rfl)
    ⟨hview, ?_, ?_, ?_⟩ (beginAttempt_effect _ _ _ _)
  · change s₀.client.writePolicy.Reaches (s₀.results p) _
    rw [hresults]
    exact Retry.Policy.reaches_start _
  · change (s₀.callsFor p).length ≤ _
    rw [hcalls]
    exact Nat.zero_le _
  · change s₀.client.node.commands = s₀.callsFor p ++ s₀.client.node.commands
    rw [hcalls, List.nil_append]
  · change ∀ call ∈ s₀.callsFor p, _
    rw [hcalls]
    exact List.forall_mem_nil _
  · change _ ↔ s₀.callsFor p ≠ []
    rw [hcalls]
    exact iff_of_false Bool.false_ne_true fun h => h rfl

lemma WriteCourse.of_runs {remote : Remote σ φ} (h : WriteCourse s₀ s pos msg p) (howned : s.Owned)
    (hremote : s.client.remote = remote.monitored)
    (hconfig : s.client.config = s₀.client.config) (hr : Runs Uncalled s s') :
    WriteCourse s₀ s' pos msg p ∧ s'.client.config = s₀.client.config := by
  induction hr with
  | refl => exact ⟨h, hconfig⟩
  | tail hr hstep ih =>
    obtain ⟨hcourse, hsame⟩ := ih
    have howned' := howned.of_runs hr
    have hremote' := (howned.remote_of_runs hr).trans hremote
    refine ⟨?_, (howned'.happens hstep).config.trans hsame⟩
    obtain ⟨e, hallowed, rfl⟩ := hstep
    by_cases he : e = .advance
    · subst he
      exact hcourse.advance howned' hremote' hsame
    · obtain ⟨ha, hn⟩ := howned'.aside_after he hallowed
      refine hcourse.aside ha (howned'.persists_after e) ?_
      obtain hn | hn := hn
      · rw [hremote'] at hn
        exact commands_browses hn
      · exact commands_eq hn

/-! ## How a write goes -/

/-- How a write goes that the coordinator took up in the situation `s₀`. -/
structure WriteDelivery (s₀ s : Situation (Monitored σ) φ) (pos : MessageIndex) (msg : Message)
    (p : Id) : Prop where
  /-- There is one attempt more than there may be retries, at most. -/
  attempts_le : s.attempts p ≤ s₀.client.config.sequencer.maxWriteRetries.toNat + 1
  calls_le : (s.callsFor p).length ≤ s₀.client.config.sequencer.maxWriteRetries.toNat + 1
  /-- They are all for the same position and message. -/
  calls : ∀ call ∈ s.callsFor p, call = .write pos msg
  /-- Another attempt is made only after a transient failure. -/
  transient : ∀ r ∈ (s.results p).dropLast, ∃ e, r = .error e ∧ e.isTransient = true
  /-- As long as more attempts may follow the write is at hand, unless a shutdown cuts it short. -/
  undecided : s₀.client.writePolicy.verdict (s.results p) = none →
    s.atHand = some (.write pos msg, p) ∧ s.client.promises.outcome? p = none ∨
      s.client.pool.isDown = true ∧ s.client.promises.outcome? p = some (.error .shutDown)
  /-- Otherwise the last result settles the write, in the next step of the coordinator at the
  latest. -/
  decided : ∀ r, s₀.client.writePolicy.verdict (s.results p) = some r →
    ∃ o, s.advance.client.promises.outcome? p = some o ∧
      WriteAnswer pos (s.callsFor p ≠ []) r o
  /-- Up to then nothing but the calls of the write has reached the node, and the coordinator knows
  of the log what it knew before. -/
  unjudged : s.client.promises.outcome? p = none →
    s.client.coordinator.view = s₀.client.coordinator.view ∧
      s.client.node.commands = s.callsFor p ++ s₀.client.node.commands
  /-- When a write that was not sent ends with a transient failure, this is so afterwards, too. -/
  unsent : ∀ e, s₀.client.writePolicy.verdict (s.results p) = some (.error e) →
    e.isTransient = true → s.callsFor p = [] → s.client.promises.outcome? p = none →
    s.advance.client.coordinator.view = s₀.client.coordinator.view ∧
      s.advance.client.node.commands = s₀.client.node.commands

/-- A result that ends the attempts settles the write. -/
lemma advance_of_verdict (howned : s.Owned) {policy : Retry.Policy Failure}
    (hpolicy : s.client.writePolicy = policy) {results : List (Outcome Unit)} {a : Attempts}
    {o r : Outcome Unit} (hs : s.stance = .judging (.write pos msg) p a o)
    (hreach : policy.Reaches results a.retry)
    (hverdict : policy.verdict (results ++ [o]) = some r) :
    s.advance.client.promises.outcome? p =
        some ((a.conclude (.write pos msg) r).map fun _ => .done) ∧
      s.advance.client.coordinator =
        s.client.coordinator.finish (.write pos msg) (a.conclude (.write pos msg) r) ∧
      s.advance.client.node = s.client.node := by
  have hmem := mem_duties_of_atHand (atHand_judging hs)
  cases hj : s.client.writePolicy.judge a.retry o with
  | finish o' =>
    obtain ⟨rfl, hsame⟩ := hreach.finish (hpolicy ▸ hj)
    obtain rfl := Option.some.inj (hsame.symm.trans hverdict)
    obtain ⟨_, _, _, _, _, _, he, hout⟩ := conclude_eq (howned.duties_pending _ hmem)
      (.write pos msg) (a.conclude (.write pos msg) o')
    rw [advance_finish hs hj, he]
    exact ⟨hout, rfl, rfl⟩
  | again delay next =>
    cases (hreach.again (hpolicy ▸ hj)).verdict_eq_none.symm.trans hverdict

lemma atHand_of_isAttempting (h : s.isAttempting p = true) : ∃ r, s.atHand = some (r, p) := by
  unfold isAttempting at h
  split at h
  · rename_i hs hc
    cases of_decide_eq_true h
    exact ⟨_, by simp only [atHand, hs, hc]; rfl⟩
  · rename_i hs hc
    cases of_decide_eq_true h
    exact ⟨_, by simp only [atHand, hs, hc]; rfl⟩
  · cases h

/-- Nothing is attempted any more for a request that has its outcome. -/
lemma Owned.attempts_eq (howned : s.Owned) {o : Outcome Answer}
    (hout : s.client.promises.outcome? p = some o) : s.attempts p = (s.results p).length := by
  cases hattempting : s.isAttempting p with
  | false => rw [attempts, hattempting, Bool.toNat_false, Nat.add_zero]
  | true =>
    obtain ⟨r, hat⟩ := atHand_of_isAttempting hattempting
    cases (howned.duties_pending _ (mem_duties_of_atHand hat)).outcome?_eq.symm.trans hout

lemma WriteCourse.delivery (h : WriteCourse s₀ s pos msg p) (howned : s.Owned)
    (hconfig : s.client.config = s₀.client.config) : WriteDelivery s₀ s pos msg p := by
  have hpolicy : s.client.writePolicy = s₀.client.writePolicy := by
    rw [writePolicy, hconfig, writePolicy]
  cases h with
  | @attempting a stage hs hc hreach hle hopen =>
    have hat := atHand_busy hs hc
    have hpend := howned.duties_pending _ (mem_duties_of_atHand hat)
    have hopened := hreach.verdict_eq_none
    have hresults := hreach.le
    have hone := Bool.toNat_le stage.phase?.isSome
    have hone' := Bool.toNat_le (s.isAttempting p)
    exact
      { attempts_le := Nat.add_le_add hresults hone'
        calls_le := Nat.le_trans hle (Nat.add_le_add hresults hone)
        calls := hopen.calls
        transient := fun r hr =>
          RetryConfig.transient_of_repeats (hreach.repeats r (List.dropLast_subset _ hr))
        undecided := fun _ => .inl ⟨hat, hpend.outcome?_eq⟩
        decided := fun r hr => nomatch hopened.symm.trans hr
        unjudged := fun _ => ⟨hopen.view, hopen.commands⟩
        unsent := fun e he => nomatch hopened.symm.trans he }
  | @judging results a o hs hresults hreach hle hopen =>
    have hat := atHand_judging hs
    have hpend := howned.duties_pending _ (mem_duties_of_atHand hat)
    have hattempts : s.attempts p = (results ++ [o]).length := by
      rw [attempts, hresults, isAttempting, hs]
      rfl
    refine
      { attempts_le := hattempts ▸ hreach.length_le o
        calls_le := Nat.le_trans hle (Nat.add_le_add_right hreach.le 1)
        calls := hopen.calls
        transient := fun r hr => ?_
        undecided := fun _ => .inl ⟨hat, hpend.outcome?_eq⟩
        decided := fun r hr => ?_
        unjudged := fun _ => ⟨hopen.view, hopen.commands⟩
        unsent := fun e he htransient hunsent _ => ?_ }
    · rw [hresults, List.dropLast_concat] at hr
      exact RetryConfig.transient_of_repeats (hreach.repeats r hr)
    · rw [hresults] at hr
      obtain ⟨hout, -⟩ := advance_of_verdict howned hpolicy hs hreach hr
      exact ⟨_, hout, (a.writeAnswer_conclude pos msg r).congr hopen.sent⟩
    · rw [hresults] at he
      obtain ⟨-, hcoordinator, hnode⟩ := advance_of_verdict howned hpolicy hs hreach he
      -- nothing was sent, so that the failure is passed on as it is, and tells nothing of the log
      have hsent : a.sent = false := Bool.eq_false_iff.2 fun hsent => hopen.sent.1 hsent hunsent
      constructor
      · rw [hcoordinator, Attempts.conclude_unsent hsent]
        exact (LogView.afterWrite_of_isTransient htransient pos msg).trans hopen.view
      · rw [hnode, hopen.commands, hunsent, List.nil_append]
  | @ended o hout hended =>
    refine
      { attempts_le := (howned.attempts_eq hout).symm ▸ hended.results_le
        calls_le := hended.calls_le
        calls := hended.calls
        transient := fun r hr => RetryConfig.transient_of_repeats (hended.repeats r hr)
        undecided := fun hnone => ?_
        decided := fun r hr => ?_
        unjudged := fun hnone => nomatch hnone.symm.trans hout
        unsent := fun _ _ _ _ hnone => nomatch hnone.symm.trans hout }
    · obtain ⟨-, hdown, rfl⟩ | ⟨r, hr, -⟩ := hended.outcome
      · exact .inr ⟨hdown, hout⟩
      · cases hnone.symm.trans hr
    · obtain ⟨hnone, -⟩ | ⟨r', hr', hanswer⟩ := hended.outcome
      · cases hnone.symm.trans hr
      · cases hr'.symm.trans hr
        exact ⟨o, (howned.persists_after .advance).outcome _ _ hout, hanswer⟩

/-- **What a write comes to.** Let the coordinator take up a write that it cannot answer from what
it knows. However often it may be repeated, how long an attempt may take, and whatever its attempts
come to: it makes one attempt more than it may repeat, at most, and all of them for this write; it
stops with the first result that is no transient failure, and settles with this result. If all
attempts end with transient failures, it settles with an unknown outcome if a call has reached the
node, and with the last of the failures otherwise. In that case no command has reached the node, and
the coordinator knows of the log what it knew before. -/
theorem delivery_of_runs {remote : Remote σ φ} {config : ClientConfig} {node : Monitored σ}
    {queue : List (SequencerRequest × Id)}
    (h : Runs Uncalled (fresh config remote.monitored node) s₀) (hs : s₀.stance = .taking)
    (hup : s₀.client.pool.isDown = false)
    (hq : s₀.client.coordinator.queue = (.write pos msg, p) :: queue)
    (hcheck : (s₀.client.coordinator.view.check pos msg).1 = none)
    (hr : Runs Uncalled s₀.advance s) : WriteDelivery s₀ s pos msg p := by
  have howned := owned_of_runs h
  have hremote := (owned_fresh config remote.monitored node).remote_of_runs h
  have hcourse := course_begin (traced_of_runs h) hremote hs hup hq hcheck
  have hfirst : Step Uncalled s₀ s₀.advance := ⟨.advance, trivial, rfl⟩
  have howned' := howned.after .advance
  obtain ⟨hcourse', hconfig⟩ := hcourse.of_runs howned'
    ((howned.remote_of_runs (.single hfirst)).trans hremote) (howned.happens hfirst).config hr
  exact hcourse'.delivery (howned'.of_runs hr) hconfig

/-! ### A write that is repeated in vain -/

/-- A node that answers no write. -/
def unresponsive : Monitored ScriptedNode where
  node :=
    { node := { leaseHeld := true }
      scripts :=
        [(.write, [⟨0, .answer (.error (.transport "connection reset"))⟩, ⟨50, .proceed⟩])] }

/-- Its client may repeat a write once, and gives an attempt up after twenty milliseconds. It is
about to take up the first write. -/
def takingWrite : Situation (Monitored ScriptedNode) ScriptedNode.Phase :=
  (fresh { sequencer := { maxWriteRetries := 1, writeTimeoutMs := 20 } }
      ScriptedNode.remote.monitored unresponsive).afterAll
    [.order .start, .ask (.sequence (.write (.ofNat 0) (.sample 0))), .advance]

/-- The write was attempted twice: the connection was reset, and the time was over. -/
def inVain : Situation (Monitored ScriptedNode) ScriptedNode.Phase :=
  takingWrite.advance.afterAll
    [.advance, .clock { now := 100 }, .advance,
      .clock { now := 120, alarms := [⟨150, .coordinator, .pause⟩] }, .advance]

/-- Nobody knows whether it was applied. -/
theorem delivery_of_runs_inVain :
    inVain.results ⟨0⟩ = [.error (.transport "connection reset"), .error .timeout] ∧
      inVain.callsFor ⟨0⟩ = [.write (.ofNat 0) (.sample 0), .write (.ofNat 0) (.sample 0)] ∧
      inVain.advance.client.promises.outcome? ⟨0⟩ = some (.error (.outcomeUnknown (.ofNat 0))) ∧
      WriteDelivery takingWrite inVain (.ofNat 0) (.sample 0) ⟨0⟩ := by
  have htaking : Runs Uncalled _ takingWrite := runs_afterAll rfl _
  have hruns : Runs Uncalled takingWrite.advance inVain := runs_afterAll rfl _
  exact ⟨rfl, rfl, rfl, delivery_of_runs htaking rfl rfl rfl rfl hruns⟩

end Situation

end ConsensusLink
