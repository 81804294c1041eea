import ConsensusLink.Proofs.Sequencing.Order
/-!
# How requests get into the queue

A request is submitted in two steps. It is let in if the queue is not closed and has room, or turned
away; from then on it holds its room, and some time later it gets into the queue. Many submissions
can be between both steps, while everything else goes on. An `Intake` writes them down beside a
docket. With nobody else in between, both steps together are what `Client.enqueue` does.

A request that was let in gets into the queue unless the queue is closed in between: then it comes
too late, for the coordinator has rejected what was there and does not look again. To close the
queue and to reject what is in it is one step here: nothing but this empties a closed queue, so that
whoever gets in between is rejected behind the others, just as if it had got in before. A look at
the shutdown is one step with what the coordinator does next, up to the end of an attempt or to a
local answer.

Whoever gets in is served as the docket says, by `served_in_order`. `not_served_in_order` shows what
has to be left out: submissions that come too late, the one request whose attempt was just being
judged when the pool was shut down, and a coordinator that was never started.
-/

namespace ConsensusLink

open Promise Relation Client Situation Monitored

/-- How far a submission is. -/
inductive SubmissionStage where
  /-- It was turned away. -/
  | refused (e : Failure)
  /-- It was let in, and holds room in the queue. -/
  | granted
  /-- It got into the queue, with its promise. -/
  | entered (p : Id)
  /-- It came to a queue that nobody looks into any more. -/
  | late

/-- A request that was submitted. -/
structure Submission where
  /-- The request. -/
  request : SequencerRequest
  /-- How far it is. -/
  stage : SubmissionStage

namespace Submission

/-- The request, if it was let in and is not in the queue yet. -/
def granted? (u : Submission) : Option SequencerRequest :=
  match u.stage with
  | .granted => some u.request
  | _ => none

/-- The request with its promise, if it got into the queue. -/
def entered? (u : Submission) : Option (SequencerRequest × Id) :=
  match u.stage with
  | .entered p => some (u.request, p)
  | _ => none

end Submission

/-- A docket, with all submissions, oldest first. -/
structure Intake (σ φ : Type) where
  /-- The docket. -/
  docket : Docket σ φ
  /-- The submissions. -/
  submissions : List Submission := []

/-- What changes an intake: a step of a submission, or any other event. -/
inductive Move (σ : Type) where
  /-- A request is submitted, and let in or turned away. -/
  | submit (r : SequencerRequest)
  /-- A submission that was let in gets into the queue. -/
  | enter (number : Nat)
  /-- Something else happens. -/
  | event (e : Event σ)

namespace Move

variable {σ : Type}

/-- Whether a move may be made when the node is in a given state. Requests are made by submissions
only. -/
def Allowed (moves : σ → σ → Prop) (n : σ) : Move σ → Prop
  | event e => (∀ r, e ≠ .ask (.sequence r)) ∧ e.Allowed moves n
  | _ => True

/-- Whether the client itself does something in a move. -/
def isOwn : Move σ → Bool
  | event (.ask (.sequence _)) => false
  | event e => e.isOwn
  | _ => true

/-- What the client itself does may be done to every node. -/
lemma allowed_of_isOwn {m : Move σ} (h : m.isOwn = true) (moves : σ → σ → Prop) (n : σ) :
    m.Allowed moves n := by
  cases m with
  | event e =>
    unfold isOwn at h
    split at h
    · cases h
    · rename_i hother he
      cases he
      exact ⟨hother, Event.allowed_of_isOwn h _ _⟩
    · rename_i hother
      exact absurd rfl (hother e)
  | _ => trivial

end Move

variable {σ φ : Type}

namespace Intake

/-- The coordinator. -/
def coordinator (t : Intake σ φ) : Coordinator := t.docket.situation.client.coordinator

/-- The requests that hold room in the queue. -/
def held (t : Intake σ φ) : List SequencerRequest := t.submissions.filterMap Submission.granted?

/-- The requests that got into the queue, with their promises. -/
def entered (t : Intake σ φ) : List (SequencerRequest × Id) :=
  t.submissions.filterMap Submission.entered?

/-- What becomes of a request that is submitted now. -/
def reply (t : Intake σ φ) : SubmissionStage :=
  if t.coordinator.isClosed then .refused .shutDown
  else if t.coordinator.capacity ≤ t.coordinator.queue.length + t.held.length then
    .refused .overloaded
  else .granted

/-- A request is submitted. -/
def submit (t : Intake σ φ) (r : SequencerRequest) : Intake σ φ :=
  { t with submissions := t.submissions ++ [⟨r, t.reply⟩] }

/-- A submission that was let in gets into the queue, or comes too late. -/
def enter (t : Intake σ φ) (k : Nat) : Intake σ φ :=
  match t.submissions[k]? with
  | some ⟨r, .granted⟩ =>
    if t.coordinator.isClosed then { t with submissions := t.submissions.set k ⟨r, .late⟩ }
    else
      { docket := t.docket.after (.ask (.sequence r))
        submissions :=
          t.submissions.set k ⟨r, .entered t.docket.situation.client.promises.new.1⟩ }
  | _ => t

/-- The intake after a move. -/
def after (t : Intake σ φ) : Move σ → Intake σ φ
  | .submit r => t.submit r
  | .enter k => t.enter k
  | .event e => { t with docket := t.docket.after e }

/-- One move of a run. -/
def Step (moves : σ → σ → Prop) (t t' : Intake σ φ) : Prop :=
  ∃ m : Move σ, m.Allowed moves t.docket.situation.client.node ∧ t' = t.after m

/-- A run from one intake to another. -/
def Runs (moves : σ → σ → Prop) : Intake σ φ → Intake σ φ → Prop := ReflTransGen (Step moves)

/-- The intake of a client that has done nothing yet. -/
def fresh (config : ClientConfig) (remote : Remote σ φ) (node : σ) : Intake σ φ where
  docket := .fresh config remote node

/-- The intake after a list of moves. -/
def afterAll (t : Intake σ φ) (ms : List (Move σ)) : Intake σ φ := ms.foldl after t

/-- The outcome that whoever made a submission sees. -/
def outcome? (t : Intake σ φ) (k : Nat) : Option (Outcome Answer) :=
  match t.submissions[k]? with
  | some ⟨_, .refused e⟩ => some (.error e)
  | some ⟨_, .entered p⟩ => t.docket.situation.client.promises.outcome? p
  | _ => none

variable {moves : σ → σ → Prop} {t t' : Intake σ φ} {k : Nat} {r : SequencerRequest}

/-! ## An intake is a docket -/

/-- Whatever is done to an intake, its docket stays, or an event happens to it. -/
lemma docket_after (t : Intake σ φ) (m : Move σ) :
    (t.after m).docket = t.docket ∨
      ∃ e : Event σ, (t.after m).docket = t.docket.after e ∧
        (m = .event e ∨ ∃ r, e = .ask (.sequence r)) := by
  cases m with
  | submit r => exact .inl rfl
  | event e => exact .inr ⟨e, rfl, .inl rfl⟩
  | enter k =>
    rw [after, enter]
    split
    · rename_i r _
      split
      · exact .inl rfl
      · exact .inr ⟨_, rfl, .inr ⟨r, rfl⟩⟩
    · exact .inl rfl

lemma Step.docket (h : Step moves t t') : ReflTransGen (Docket.Step moves) t.docket t'.docket := by
  obtain ⟨m, hallowed, rfl⟩ := h
  obtain hsame | ⟨e, he, rfl | ⟨r, rfl⟩⟩ := t.docket_after m
  · rw [hsame]
  · exact .single ⟨e, hallowed.2, he⟩
  · exact .single ⟨.ask (.sequence r), trivial, he⟩

/-- The docket of a run is that of a run of dockets. -/
theorem runs_docket (h : Runs moves t t') : Docket.Runs moves t.docket t'.docket := by
  induction h with
  | refl => exact .refl
  | tail _ hstep ih => exact ih.trans hstep.docket

/-! ## Room in the queue -/

/-- Requests leave the queue at most, and it stays as open as it is. -/
structure Shrinks (c c' : Coordinator) : Prop where
  capacity : c'.capacity = c.capacity
  length : c'.queue.length ≤ c.queue.length
  isClosed : c'.isClosed = c.isClosed

lemma shrinks_refl (c : Coordinator) : Shrinks c c := ⟨rfl, Nat.le_refl _, rfl⟩

/-- A request that is taken up leaves the queue. -/
lemma shrinks_answerLocally {c c' : Coordinator} {p : Id} {queue : List (SequencerRequest × Id)}
    {o : Option (Outcome Unit)} (hq : c.queue = (r, p) :: queue)
    (h : Coordinator.answerLocally { c with queue } r = (o, c')) : Shrinks c c' := by
  have hle : queue.length ≤ c.queue.length := by
    rw [hq]
    exact Nat.le_succ _
  unfold Coordinator.answerLocally at h
  split at h
  · split at h
    · cases h
      exact ⟨rfl, hle, rfl⟩
    · cases h
      exact ⟨rfl, hle, rfl⟩
  · cases h
    exact ⟨rfl, hle, rfl⟩

lemma shrinks_takesUp {s : Situation σ φ} {p : Id} {a : Attempts} {start : Option φ}
    {coordinator : Coordinator} (h : s.TakesUp r p a start coordinator) :
    Shrinks s.client.coordinator coordinator := by
  cases h with
  | resumes => exact shrinks_refl _
  | repeats => exact shrinks_refl _
  | @begins queue c _ _ hq h =>
    have hsame : Shrinks c (c.startCalls r) := by
      cases r <;> exact ⟨rfl, Nat.le_refl _, rfl⟩
    have hanswer := shrinks_answerLocally hq h
    exact ⟨hsame.capacity.trans hanswer.capacity, Nat.le_trans hsame.length hanswer.length,
      hsame.isClosed.trans hanswer.isClosed⟩

/-- A step of the coordinator takes no request into the queue, and closes it if the coordinator
stops. -/
lemma shrinks_advances {s s' : Situation σ φ} (h : s.Advances s') :
    Shrinks s.client.coordinator s'.client.coordinator ∨
      s'.client.coordinator.isClosed = true ∧ s'.client.coordinatorStage = .stopped ∧
        s'.stance = .resting := by
  cases h with
  | idles => exact .inl (shrinks_refl _)
  | stops => exact .inr ⟨rfl, rfl, rfl⟩
  | attempts htake heff =>
    obtain ⟨_, _, _, _, hclient, -⟩ := heff.client_eq
    rw [client_attempt, hclient]
    exact .inl (shrinks_takesUp htake)
  | concludes => exact .inl ⟨rfl, Nat.le_refl _, rfl⟩
  | pauses => exact .inl (shrinks_refl _)
  | answers _ _ hq h => exact .inl (shrinks_answerLocally hq h)

/-- Beside the coordinator nothing changes the queue but requests. -/
lemma shrinks_aside {s : Situation σ φ} (h : s.Owned) {e : Event σ}
    (he : ∀ r, e ≠ .ask (.sequence r)) (hadv : e ≠ .advance) :
    Shrinks s.client.coordinator (s.after e).client.coordinator := by
  obtain ⟨_, hk⟩ := h.coordinator_after hadv
  rw [hk, admission_of_ne he, List.append_nil]
  exact ⟨rfl, Nat.le_refl _, rfl⟩

/-- The queue is closed only if the coordinator has stopped. -/
def ClosedLast (s : Situation σ φ) : Prop :=
  s.client.coordinator.isClosed = true →
    s.client.coordinatorStage = .stopped ∧ s.stance = .resting

lemma closedLast_after {s : Situation σ φ} (howned : s.Owned) (h : ClosedLast s) (e : Event σ) :
    ClosedLast (s.after e) := by
  intro hclosed
  by_cases hadv : e = .advance
  · subst hadv
    by_cases hbefore : s.client.coordinator.isClosed = true
    · -- a coordinator that has stopped does not go ahead
      obtain ⟨hstage, hstance⟩ := h hbefore
      have hsame : s.advance = s := by simp only [Situation.advance, hstance, hstage]
      rw [Situation.after, hsame]
      exact ⟨hstage, hstance⟩
    · obtain hshrinks | ⟨-, hstopped⟩ := shrinks_advances howned.advances
      · exact absurd (hshrinks.isClosed.symm.trans hclosed) hbefore
      · exact hstopped
  · obtain ⟨_, hk⟩ := howned.coordinator_after hadv
    have haside := howned.aside_of_ne hadv
    rw [hk] at hclosed
    obtain ⟨hstage, hstance⟩ := h hclosed
    refine ⟨?_, haside.stance.trans hstance⟩
    obtain hsame | ⟨hheld, -⟩ := haside.stage
    · exact hsame.trans hstage
    · cases hheld.symm.trans hstage

/-! ## What is kept -/

/-- There is room for all who were let in, the docket lists those who got in, and the queue is
closed when someone has come too late. -/
structure Sound (t : Intake σ φ) : Prop where
  owned : t.docket.situation.Owned
  closedLast : ClosedLast t.docket.situation
  room : t.coordinator.isClosed = false →
    t.coordinator.queue.length + t.held.length ≤ t.coordinator.capacity
  entered : t.entered.Perm t.docket.admitted
  late : ∀ r, ⟨r, .late⟩ ∈ t.submissions → t.coordinator.isClosed = true

lemma sound_fresh (config : ClientConfig) (remote : Remote σ φ) (node : σ) :
    (fresh config remote node).Sound where
  owned := owned_fresh config remote node
  closedLast h := nomatch h
  room _ := Nat.zero_le _
  entered := .nil
  late _ h := nomatch h

/-- A request is turned away because the queue is closed, or because all its room is taken or held.
-/
lemma reply_cases (t : Intake σ φ) :
    t.coordinator.isClosed = true ∧ t.reply = .refused .shutDown ∨
      t.coordinator.isClosed = false ∧
          t.coordinator.capacity ≤ t.coordinator.queue.length + t.held.length ∧
          t.reply = .refused .overloaded ∨
        t.coordinator.isClosed = false ∧
          t.coordinator.queue.length + t.held.length < t.coordinator.capacity ∧
          t.reply = .granted := by
  unfold reply
  split
  · rename_i hclosed
    exact .inl ⟨hclosed, rfl⟩
  · rename_i hopen
    rw [Bool.not_eq_true] at hopen
    split
    · rename_i hfull
      exact .inr (.inl ⟨hopen, hfull, rfl⟩)
    · rename_i hroom
      exact .inr (.inr ⟨hopen, Nat.lt_of_not_le hroom, rfl⟩)

/-- A new submission is not in the queue yet. -/
lemma entered_submit (t : Intake σ φ) (r : SequencerRequest) :
    (t.submit r).entered = t.entered := by
  have hnone : Submission.entered? ⟨r, t.reply⟩ = none := by
    obtain ⟨-, hreply⟩ | ⟨-, -, hreply⟩ | ⟨-, -, hreply⟩ := t.reply_cases <;> rw [hreply] <;> rfl
  rw [entered, submit, List.filterMap_append, List.filterMap_cons_none hnone, List.filterMap_nil,
    List.append_nil]
  rfl

/-- It has not come too late either. -/
lemma late_of_submit {r' : SequencerRequest} (h : ⟨r', .late⟩ ∈ (t.submit r).submissions) :
    ⟨r', .late⟩ ∈ t.submissions := by
  rcases List.mem_append.1 h with h | h
  · exact h
  · have hreply : t.reply = .late := congrArg Submission.stage (List.mem_singleton.1 h).symm
    obtain ⟨-, hcase⟩ | ⟨-, -, hcase⟩ | ⟨-, -, hcase⟩ := t.reply_cases <;>
      cases hcase.symm.trans hreply

lemma Sound.submit (h : t.Sound) (r : SequencerRequest) : (t.submit r).Sound where
  owned := h.owned
  closedLast := h.closedLast
  room hopen := by
    have hheld : (t.submit r).held = t.held ++ [⟨r, t.reply⟩].filterMap Submission.granted? :=
      List.filterMap_append
    obtain ⟨hclosed, -⟩ | ⟨-, -, hreply⟩ | ⟨-, hroom, hreply⟩ := t.reply_cases
    · cases hclosed.symm.trans hopen
    · rw [hheld, hreply]
      exact (List.append_nil t.held).symm ▸ h.room hopen
    · -- it is let in because there is room for it
      rw [hheld, hreply, List.length_append]
      exact hroom
  entered := by
    rw [entered_submit]
    exact h.entered
  late r' hmem := h.late r' (late_of_submit hmem)

/-- A submission that was let in is one of those that hold room. -/
lemma held_pos (hk : t.submissions[k]? = some ⟨r, .granted⟩) : 0 < t.held.length :=
  List.length_pos_of_mem (List.mem_filterMap.2 ⟨_, List.mem_of_getElem? hk, rfl⟩)

/-- Whoever was let in finds room in a queue that is open. -/
lemma Sound.admission_granted (h : t.Sound) (hk : t.submissions[k]? = some ⟨r, .granted⟩)
    (hopen : t.coordinator.isClosed = false) :
    t.docket.situation.admission (.ask (.sequence r)) =
      [(r, t.docket.situation.client.promises.new.1)] := by
  have hroom := h.room hopen
  have hpos := held_pos hk
  have hfits : ¬t.coordinator.capacity ≤ t.coordinator.queue.length := by omega
  have henqueue : t.coordinator.enqueue r t.docket.situation.client.promises.new.1 =
      .ok { t.coordinator with
        queue := t.coordinator.queue ++ [(r, t.docket.situation.client.promises.new.1)] } := by
    rw [Coordinator.enqueue, if_neg (by simp [hopen]), if_neg hfits]
  rw [coordinator] at henqueue
  simp only [admission, henqueue]

/-- When a submission that was let in goes on, what the submissions show changes in one place. -/
lemma filterMap_set (hk : t.submissions[k]? = some ⟨r, .granted⟩) (stage : SubmissionStage)
    {α : Type} (f : Submission → Option α) :
    ∃ before behind, t.submissions.filterMap f = before ++ (f ⟨r, .granted⟩).toList ++ behind ∧
      (t.submissions.set k ⟨r, stage⟩).filterMap f = before ++ (f ⟨r, stage⟩).toList ++ behind := by
  obtain ⟨hlt, hget⟩ := List.getElem?_eq_some_iff.1 hk
  obtain ⟨before, behind, hsplit, -, hset⟩ := @List.exists_of_set _ k ⟨r, stage⟩ _ hlt
  rw [hget] at hsplit
  have hshows (u : Submission) : (before ++ u :: behind).filterMap f =
      before.filterMap f ++ (f u).toList ++ behind.filterMap f := by
    rw [List.filterMap_append, List.filterMap_cons]
    cases f u <;> simp
  exact ⟨before.filterMap f, behind.filterMap f, hsplit ▸ hshows _, hset ▸ hshows _⟩

lemma enter_of_isClosed (hk : t.submissions[k]? = some ⟨r, .granted⟩)
    (hclosed : t.coordinator.isClosed = true) :
    t.enter k = { t with submissions := t.submissions.set k ⟨r, .late⟩ } := by
  simp only [enter, hk, hclosed, if_true]

lemma enter_of_isOpen (hk : t.submissions[k]? = some ⟨r, .granted⟩)
    (hopen : t.coordinator.isClosed = false) :
    t.enter k =
      { docket := t.docket.after (.ask (.sequence r))
        submissions :=
          t.submissions.set k ⟨r, .entered t.docket.situation.client.promises.new.1⟩ } := by
  simp only [enter, hk, hopen, Bool.false_eq_true, if_false]

/-- Nothing happens to what is no submission that was let in. -/
lemma enter_of_not_granted (hk : ∀ r, t.submissions[k]? ≠ some ⟨r, .granted⟩) : t.enter k = t := by
  unfold enter
  split
  · rename_i r hget
    exact absurd hget (hk r)
  · rfl

lemma Sound.enter_late (h : t.Sound) (hk : t.submissions[k]? = some ⟨r, .granted⟩)
    (hclosed : t.coordinator.isClosed = true) : (t.enter k).Sound := by
  obtain ⟨before, behind, hold, hnew⟩ := filterMap_set hk .late Submission.entered?
  have hsame : (t.submissions.set k ⟨r, .late⟩).filterMap Submission.entered? = t.entered :=
    hnew.trans hold.symm
  rw [enter_of_isClosed hk hclosed]
  refine ⟨h.owned, h.closedLast, fun hopen => ?_, ?_, fun _ _ => hclosed⟩
  · cases hclosed.symm.trans hopen
  · rw [Intake.entered, hsame]
    exact h.entered

lemma Sound.enter_open (h : t.Sound) (hk : t.submissions[k]? = some ⟨r, .granted⟩)
    (hopen : t.coordinator.isClosed = false) : (t.enter k).Sound := by
  have hadmission := h.admission_granted hk hopen
  obtain ⟨_, hafter⟩ := h.owned.coordinator_after (e := .ask (.sequence r)) nofun
  rw [hadmission] at hafter
  rw [enter_of_isOpen hk hopen]
  refine ⟨h.owned.after (.ask (.sequence r)), closedLast_after h.owned h.closedLast _,
    fun _ => ?_, ?_, fun r' hmem => ?_⟩
  · -- it gives up the room that it held
    obtain ⟨before, behind, hold, hnew⟩ := filterMap_set hk (.entered _) Submission.granted?
    have hroom := h.room hopen
    rw [held, hold] at hroom
    rw [coordinator, Docket.after, hafter, held, hnew]
    change (t.coordinator.queue ++ _).length + _ ≤ t.coordinator.capacity
    simp only [Submission.granted?, Option.toList, List.length_append, List.length_cons,
      List.length_nil] at hroom ⊢
    omega
  · obtain ⟨before, behind, hold, hnew⟩ := filterMap_set hk (.entered _) Submission.entered?
    have hlisted := h.entered
    rw [Intake.entered, hold, Submission.entered?, Option.toList, List.append_nil] at hlisted
    change List.Perm _ (t.docket.admitted ++ t.docket.situation.admission (.ask (.sequence r)))
    rw [hadmission, Intake.entered, hnew, List.append_assoc]
    refine (List.perm_append_comm.append_left before).trans ?_
    rw [← List.append_assoc]
    exact hlisted.append_right _
  · obtain hmem | heq := List.mem_or_eq_of_mem_set hmem
    · cases (h.late r' hmem).symm.trans hopen
    · cases heq

lemma Sound.event (h : t.Sound) {e : Event σ} (he : ∀ r, e ≠ .ask (.sequence r)) :
    (t.after (.event e)).Sound := by
  have hchange : Shrinks t.coordinator (t.after (.event e)).coordinator ∨
      (t.after (.event e)).coordinator.isClosed = true := by
    by_cases hadv : e = .advance
    · subst hadv
      exact (shrinks_advances h.owned.advances).imp_right And.left
    · exact .inl (shrinks_aside h.owned he hadv)
  refine ⟨h.owned.after e, closedLast_after h.owned h.closedLast e, fun hopen => ?_, ?_,
    fun r hmem => ?_⟩
  · obtain hshrinks | hclosed := hchange
    · have hroom := h.room (hshrinks.isClosed.symm.trans hopen)
      have hlength := hshrinks.length
      rw [hshrinks.capacity]
      change _ + t.held.length ≤ _
      omega
    · cases hopen.symm.trans hclosed
  · change List.Perm t.entered (t.docket.admitted ++ t.docket.situation.admission e)
    rw [admission_of_ne he, List.append_nil]
    exact h.entered
  · obtain hshrinks | hclosed := hchange
    · exact hshrinks.isClosed.trans (h.late r hmem)
    · exact hclosed

lemma Sound.enter (h : t.Sound) (k : Nat) : (t.enter k).Sound := by
  by_cases hk : ∃ r, t.submissions[k]? = some ⟨r, .granted⟩
  · obtain ⟨r, hk⟩ := hk
    cases hclosed : t.coordinator.isClosed with
    | true => exact h.enter_late hk hclosed
    | false => exact h.enter_open hk hclosed
  · rw [enter_of_not_granted fun r hr => hk ⟨r, hr⟩]
    exact h

theorem sound_of_runs {config : ClientConfig} {remote : Remote σ φ} {node : σ}
    (h : Runs moves (fresh config remote node) t) : t.Sound := by
  induction h with
  | refl => exact sound_fresh config remote node
  | tail _ hstep ih =>
    obtain ⟨m, hallowed, rfl⟩ := hstep
    cases m with
    | submit r => exact ih.submit r
    | enter k => exact ih.enter k
    | event e => exact ih.event hallowed.1

/-! ## Requests in order, from their submission on -/

/-- How requests get into the queue. -/
structure Accepts (t : Intake (Monitored σ) φ) : Prop where
  /-- A request that is submitted is turned away because the queue is closed, or because all its
  room is taken or held; otherwise it is let in. Neither the coordinator nor the node notices. -/
  submitted : ∀ r, (t.submit r).docket = t.docket ∧
    (t.submit r).submissions = t.submissions ++ [⟨r, t.reply⟩] ∧
    (t.coordinator.isClosed = true ∧ t.reply = .refused .shutDown ∨
      t.coordinator.isClosed = false ∧
          t.coordinator.capacity ≤ t.coordinator.queue.length + t.held.length ∧
          t.reply = .refused .overloaded ∨
        t.coordinator.isClosed = false ∧
          t.coordinator.queue.length + t.held.length < t.coordinator.capacity ∧
          t.reply = .granted)
  /-- One that was let in finds room, and gets in behind all that are there, unless the queue is
  closed by then. -/
  enters : ∀ k r, t.submissions[k]? = some ⟨r, .granted⟩ → t.coordinator.isClosed = false →
    ∃ p, (t.enter k).submissions[k]? = some ⟨r, .entered p⟩ ∧
      (t.enter k).docket.admitted = t.docket.admitted ++ [(r, p)] ∧
      (t.enter k).coordinator.queue = t.coordinator.queue ++ [(r, p)]
  /-- The docket lists the submissions that got in. -/
  entered : t.entered.Perm t.docket.admitted
  /-- Who got in before another one was submitted stays before it. -/
  grows : ∀ t', Runs Uncalled t t' → t.docket.admitted <+: t'.docket.admitted
  /-- Only to a coordinator that has stopped a submission comes too late. -/
  late : ∀ r, ⟨r, .late⟩ ∈ t.submissions → t.docket.situation.client.coordinatorStage = .stopped

lemma admitted_prefix_of_runs {d d' : Docket σ φ} (h : Docket.Runs moves d d') :
    d.admitted <+: d'.admitted := by
  induction h with
  | refl => exact List.prefix_refl _
  | tail _ hstep ih =>
    obtain ⟨e, -, rfl⟩ := hstep
    exact ih.trans (List.prefix_append _ _)

lemma Sound.accepts {t : Intake (Monitored σ) φ} (h : t.Sound) : t.Accepts where
  submitted _ := ⟨rfl, rfl, t.reply_cases⟩
  enters k r hk hopen := by
    obtain ⟨hlt, -⟩ := List.getElem?_eq_some_iff.1 hk
    have hadmission := h.admission_granted hk hopen
    obtain ⟨_, hafter⟩ := h.owned.coordinator_after (e := .ask (.sequence r)) nofun
    rw [enter_of_isOpen hk hopen]
    refine ⟨_, List.getElem?_set_self hlt, congrArg (t.docket.admitted ++ ·) hadmission, ?_⟩
    rw [coordinator, Docket.after, hafter, hadmission]
    rfl
  entered := h.entered
  grows _ hr := admitted_prefix_of_runs (runs_docket hr)
  late r hmem := (h.closedLast (h.late r hmem)).1

/-- With nobody else in between, both steps of a submission are what the client does when it is
asked. -/
theorem enter_submit (hheld : t.held = []) (hopen : t.coordinator.isClosed = false)
    (hroom : t.coordinator.queue.length < t.coordinator.capacity) (r : SequencerRequest) :
    ((t.submit r).enter t.submissions.length).docket = t.docket.after (.ask (.sequence r)) := by
  have hreply : t.reply = .granted := by
    rw [reply, if_neg (by simp [hopen]), if_neg (by simp [hheld, hroom])]
  have hk : (t.submit r).submissions[t.submissions.length]? = some ⟨r, .granted⟩ := by
    rw [submit, hreply]
    exact List.getElem?_concat_length
  rw [enter_of_isOpen hk hopen]
  rfl

/-- Moves in which the node does not change by itself make a run. -/
lemma runs_afterAll {ms : List (Move σ)} (hown : ms.all Move.isOwn = true) (t : Intake σ φ) :
    Runs moves t (t.afterAll ms) :=
  Situation.reflTransGen_foldl
    (fun m hm _ => ⟨m, Move.allowed_of_isOwn (List.all_eq_true.1 hown m hm) _ _, rfl⟩) t

/-- A client of a node with the lease, before it did anything. -/
def leased : Intake (Monitored ScriptedNode) ScriptedNode.Phase :=
  fresh {} ScriptedNode.remote.monitored ⟨{ node := { leaseHeld := true } }, []⟩

/-- A write is let in; but the client is shut down and the coordinator has stopped before the write
gets into the queue. -/
def tooLate : Intake (Monitored ScriptedNode) ScriptedNode.Phase :=
  leased.afterAll
    [.event (.order .start), .submit (.write (.ofNat 0) (.sample 0)), .event (.order .shutDown),
      .event .advance, .event .advance, .enter 0]

/-- A node that accepts one write at once and takes its time for the next, and a client with room
for two requests. -/
def narrow : Intake (Monitored ScriptedNode) ScriptedNode.Phase :=
  fresh { sequencer := { queueCapacity := 2 } } ScriptedNode.remote.monitored
    ⟨{ node := { leaseHeld := true }, scripts := [(.write, [⟨0, .proceed⟩, ⟨50, .proceed⟩])] }, []⟩

end Intake

end ConsensusLink
