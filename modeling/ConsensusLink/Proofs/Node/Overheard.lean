import ConsensusLink.Proofs.Client.Settlements
import ConsensusLink.Proofs.Retry.Verdict
/-!
# A node whose calls are overheard

How often a task has called the node, and what it was answered, is not to be read off the client.
Hence a list stands beside the node, in which every call is noted when it begins, and its answer
when it ends; the node itself goes on as it did before. A *transcript* writes down, in each turn of
a task, what is heard in it. The calls of a task and their answers stand there in their order,
whatever happens in between: those of others do not mix with them, even if they are the same calls.

`Follows` says how what was heard of a task fits the loop that makes its calls. It tells where the
loop stands from the answers alone.
-/

namespace ConsensusLink

open Promise Relation Client

/-- What is heard of a call. -/
inductive CallSound where
  /-- It begins. -/
  | begun (call : Call)
  /-- It ends with an answer. -/
  | answered (result : Outcome Answer)
  /-- It breaks down. -/
  | broke

/-- A node, with what was heard of its calls. -/
structure Overheard (σ : Type) where
  /-- The node. -/
  node : σ
  /-- What was heard, oldest first. -/
  heard : List CallSound := []

variable {σ φ : Type}

/-- What is heard when a call proceeds. -/
def CallProgress.sounds : CallProgress φ → List CallSound
  | .waits .. => []
  | .ends result => [.answered result]
  | .breaks => [.broke]

/-- How calls go at a node whose calls are overheard: they go as at the node. -/
def Remote.overheard (remote : Remote σ φ) : Remote (Overheard σ) φ where
  begin call now n :=
    let (progress, node) := remote.begin call now n.node
    (progress, ⟨node, n.heard ++ .begun call :: progress.sounds⟩)
  resume call phase now n :=
    let (progress, node) := remote.resume call phase now n.node
    (progress, ⟨node, n.heard ++ progress.sounds⟩)

namespace CallSound

/-- The call that begins. -/
def call? : CallSound → Option Call
  | begun call => some call
  | _ => none

/-- The answer with which a call ends. -/
def answer? : CallSound → Option (Outcome Answer)
  | answered result => some result
  | _ => none

/-- The calls that were begun. -/
def calls (heard : List CallSound) : List Call := heard.filterMap call?

/-- The answers that were given. -/
def answers (heard : List CallSound) : List (Outcome Answer) := heard.filterMap answer?

@[simp] lemma calls_append (heard news : List CallSound) :
    calls (heard ++ news) = calls heard ++ calls news :=
  List.filterMap_append

@[simp] lemma answers_append (heard news : List CallSound) :
    answers (heard ++ news) = answers heard ++ answers news :=
  List.filterMap_append

/-- All that is heard are calls and their answers, if none breaks down. -/
lemma length_eq_of_sound (h : .broke ∉ heard) :
    heard.length = (calls heard).length + (answers heard).length := by
  induction heard with
  | nil => rfl
  | cons s heard ih =>
    rw [List.mem_cons, not_or] at h
    have ih := ih h.2
    cases s with
    | broke => exact absurd rfl h.1
    | begun call | answered result =>
      simp only [calls, answers, List.filterMap_cons, call?, answer?, List.length_cons] at ih ⊢
      omega

/-- What was heard of a loop that makes the same call again and again: its answers have brought it
where it stands. One of its calls may be open. -/
structure Follows (policy : Retry.Policy Failure) (call : Call) (heard : List CallSound)
    (retry : Retry.State) (isOpen : Bool) : Prop where
  reaches : policy.Reaches (answers heard) retry
  calls : calls heard = List.replicate ((answers heard).length + isOpen.toNat) call
  sound : .broke ∉ heard

variable {policy : Retry.Policy Failure} {call : Call} {heard : List CallSound}
  {retry next : Retry.State} {result : Outcome Answer} {delay : UInt64}

lemma follows_nil (policy : Retry.Policy Failure) (call : Call) :
    Follows policy call [] policy.start false :=
  ⟨policy.reaches_start, rfl, nofun⟩

/-- Nothing was heard of a loop that has still to begin. -/
lemma Follows.eq_nil (h : Follows policy call heard policy.start false) : heard = [] := by
  have hanswers : answers heard = [] := List.length_eq_zero_iff.1 h.reaches.retries.symm
  have hcalls : CallSound.calls heard = [] := by
    rw [h.calls, hanswers]
    rfl
  -- whatever was heard first is a call, an answer or a breakdown, and there is none of them
  rcases heard with _ | ⟨call | result | _, heard⟩
  · rfl
  · cases hcalls
  · cases hanswers
  · exact absurd List.mem_cons_self h.sound

lemma Follows.begun (h : Follows policy call heard retry false) :
    Follows policy call (heard ++ [.begun call]) retry true where
  reaches := by
    rw [answers_append]
    exact (List.append_nil _).symm ▸ h.reaches
  calls := by
    have hsame : answers (heard ++ [.begun call]) = answers heard := by
      rw [answers_append]
      exact List.append_nil _
    rw [hsame, calls_append, h.calls]
    exact List.replicate_succ'.symm
  sound := by simpa using h.sound

/-- The next call is to be made when another attempt is granted. -/
lemma Follows.again (h : Follows policy call heard retry true)
    (hj : policy.judge retry result = .again delay next) :
    Follows policy call (heard ++ [.answered result]) next false where
  reaches := by
    rw [answers_append]
    exact h.reaches.again hj
  calls := by
    have hmore : answers (heard ++ [.answered result]) = answers heard ++ [result] :=
      answers_append ..
    have hsame : CallSound.calls (heard ++ [.answered result]) = CallSound.calls heard := by
      rw [calls_append]
      exact List.append_nil _
    rw [hmore, hsame, h.calls, List.length_append]
    rfl
  sound := by simpa using h.sound

end CallSound

open CallSound

variable {remote : Remote σ φ} {policy : Retry.Policy Failure} {call : Call} {now : Nat}
  {retry₀ retry : Retry.State} {start : Option φ} {progress : CallProgress φ}
  {n n' : Overheard σ}

lemma Remote.Goes.heard (h : remote.overheard.Goes call now start n progress n') :
    n'.heard =
      n.heard ++ ((if start.isNone then [.begun call] else []) ++ progress.sounds) := by
  cases h with
  | begun h =>
    obtain ⟨rfl, rfl⟩ := Prod.mk.inj h
    rfl
  | resumed h =>
    obtain ⟨rfl, rfl⟩ := Prod.mk.inj h
    rfl

/-- What is heard when a call goes on: the call is open before it proceeds. -/
lemma Remote.Goes.follows {before : List CallSound}
    (h : remote.overheard.Goes call now start n progress n')
    (hf : Follows policy call before retry start.isSome) :
    ∃ news between, n'.heard = n.heard ++ news ∧ before ++ news = between ++ progress.sounds ∧
      Follows policy call between retry true := by
  refine ⟨_, before ++ if start.isNone then [.begun call] else [], h.heard,
    (List.append_assoc ..).symm, ?_⟩
  cases start with
  | none => exact hf.begun
  | some phase =>
    rw [Option.isNone_some, if_neg Bool.false_ne_true, List.append_nil]
    exact hf

/-- What is heard in a turn. Its last call is open before it proceeds, and the answers to all others
were worth another attempt. -/
theorem Remote.Tries.follows {before : List CallSound}
    (h : remote.overheard.Tries policy call now retry₀ start n retry progress n')
    (hf : Follows policy call before retry₀ start.isSome) :
    ∃ news between, n'.heard = n.heard ++ news ∧ before ++ news = between ++ progress.sounds ∧
      Follows policy call between retry true := by
  induction h with
  | first hgo => exact hgo.follows hf
  | again _ hj hgo ih =>
    obtain ⟨news, between, hheard, hsame, hbetween⟩ := ih
    obtain ⟨news', between', hheard', hsame', hbetween'⟩ := hgo.follows (hbetween.again hj)
    refine ⟨news ++ news', between', ?_, ?_, hbetween'⟩
    · rw [hheard', hheard, List.append_assoc]
    · rw [← List.append_assoc, hsame]
      exact hsame'

/-- Something is heard in a turn, unless an open call waits further. -/
lemma Remote.Tries.heard_lt
    (h : remote.overheard.Tries policy call now retry₀ start n retry progress n') :
    n.heard.length < n'.heard.length ∨
      ∃ phase ms phase', start = some phase ∧
        (remote.overheard.resume call phase now n).1 = .waits ms phase' := by
  -- what was heard stays in the list, so that one sound more is enough
  have hle : ∀ {retry progress n'},
      remote.overheard.Tries policy call now retry₀ start n retry progress n' →
        n.heard.length ≤ n'.heard.length := by
    intro retry progress n' h
    induction h with
    | first hgo => simp [hgo.heard]
    | again _ _ hgo ih => simp only [hgo.heard, List.length_append]; omega
  cases h with
  | first hgo =>
    cases hgo with
    | begun hgo => exact .inl (by simp [(Remote.Goes.begun hgo).heard])
    | @resumed phase _ _ _ hgo =>
      cases progress with
      | waits ms phase' => exact .inr ⟨phase, ms, phase', rfl, congrArg Prod.fst hgo⟩
      | ends => exact .inl (by simp [(Remote.Goes.resumed hgo).heard, CallProgress.sounds])
      | breaks => exact .inl (by simp [(Remote.Goes.resumed hgo).heard, CallProgress.sounds])
  | again h _ hgo =>
    have hbefore := hle h
    refine .inl ?_
    simp only [hgo.heard, List.length_append, Option.isNone_none, if_true, List.length_singleton]
    omega

/-! ## Transcripts -/

/-- A situation, with what was heard in the turns of tasks. -/
structure Transcript (σ φ : Type) where
  /-- The situation. -/
  situation : Situation (Overheard σ) φ
  /-- What was heard, with the numbers of the tasks, oldest first. -/
  heard : List (Nat × CallSound) := []

namespace Transcript

/-- The client. -/
def client (t : Transcript σ φ) : Client (Overheard σ) φ := t.situation.client

/-- What is heard at an event, if it is a turn of a task. -/
def news (t : Transcript σ φ) (e : Event (Overheard σ)) : List (Nat × CallSound) :=
  match e with
  | .job i =>
    ((t.situation.after e).client.node.heard.drop t.client.node.heard.length).map fun s => (i, s)
  | _ => []

/-- The transcript after an event. -/
def after (t : Transcript σ φ) (e : Event (Overheard σ)) : Transcript σ φ where
  situation := t.situation.after e
  heard := t.heard ++ t.news e

/-- A run all events of which meet a condition. -/
def RunsBy (condition : Event (Overheard σ) → Prop) (moves : Overheard σ → Overheard σ → Prop) :
    Transcript σ φ → Transcript σ φ → Prop :=
  ReflTransGen fun t t' =>
    ∃ e : Event (Overheard σ), condition e ∧ e.Allowed moves t.client.node ∧ t' = t.after e

/-- A run from one transcript to another. -/
def Runs (moves : Overheard σ → Overheard σ → Prop) : Transcript σ φ → Transcript σ φ → Prop :=
  RunsBy (fun _ => True) moves

/-- The empty transcript of a client that has done nothing yet. -/
def fresh (config : ClientConfig) (remote : Remote σ φ) (node : Overheard σ) : Transcript σ φ where
  situation := .fresh config remote.overheard node

/-- The transcript after a list of events. -/
def afterAll (t : Transcript σ φ) (es : List (Event (Overheard σ))) : Transcript σ φ :=
  es.foldl after t

/-- What was heard in the turns of a task. -/
def heardBy (t : Transcript σ φ) (i : Nat) : List CallSound :=
  (t.heard.filter fun s => s.1 = i).map Prod.snd

/-- The calls that a task has begun. -/
def calls (t : Transcript σ φ) (i : Nat) : List Call := CallSound.calls (t.heardBy i)

/-- The answers that a task was given. -/
def answers (t : Transcript σ φ) (i : Nat) : List (Outcome Answer) :=
  CallSound.answers (t.heardBy i)

variable {moves : Overheard σ → Overheard σ → Prop} {t t' : Transcript σ φ}
  {condition : Event (Overheard σ) → Prop} {e : Event (Overheard σ)} {i : Nat}

lemma RunsBy.situation (h : RunsBy condition moves t t') :
    Situation.Runs moves t.situation t'.situation := by
  induction h with
  | refl => exact .refl
  | tail _ hstep ih =>
    obtain ⟨e, -, hallowed, rfl⟩ := hstep
    exact ih.tail ⟨e, hallowed, rfl⟩

/-- Every run of the situation can be written down. -/
theorem exists_of_runs {s : Situation (Overheard σ) φ} (h : Situation.Runs moves t.situation s) :
    ∃ t', Runs moves t t' ∧ t'.situation = s := by
  induction h with
  | refl => exact ⟨t, .refl, rfl⟩
  | tail _ hstep ih =>
    obtain ⟨t', hruns, rfl⟩ := ih
    obtain ⟨e, hallowed, rfl⟩ := hstep
    exact ⟨t'.after e, hruns.tail ⟨e, trivial, hallowed, rfl⟩, rfl⟩

/-- Nothing is heard in a turn in which nothing happens. -/
lemma news_job_of_eq (h : (t.situation.after (.job i)).client = t.client) :
    t.news (.job i) = [] := by
  rw [news, h, List.drop_length]
  rfl

/-- In the turns of others nothing is heard of a task. -/
lemma heardBy_after_of_ne (h : e ≠ .job i) : (t.after e).heardBy i = t.heardBy i := by
  have hnone : (t.news e).filter (fun s => s.1 = i) = [] := by
    rw [List.filter_eq_nil_iff]
    intro s hs
    cases e with
    | job j =>
      obtain ⟨s, -, rfl⟩ := List.mem_map.1 hs
      simpa using fun hji : j = i => h (hji ▸ rfl)
    | _ => cases hs
  rw [heardBy, after, List.filter_append, hnone, List.append_nil, heardBy]

/-- In its own turn is heard what its calls have added. -/
lemma heardBy_after_job {news : List CallSound}
    (h : (t.situation.after (.job i)).client.node.heard = t.client.node.heard ++ news) :
    (t.after (.job i)).heardBy i = t.heardBy i ++ news := by
  have hnews : t.news (.job i) = news.map fun s => (i, s) := by
    rw [Transcript.news, h, List.drop_left]
  rw [heardBy, after, List.filter_append, List.map_append, hnews, heardBy]
  congr 1
  simp [List.filter_map, Function.comp_def]

end Transcript

end ConsensusLink
