import ConsensusLink.Proofs.Sequencing.Writing
/-!
# Writes that fail

Whether a message may be in the log although its write was reported to have failed. The journal of
a situation holds what each attempt did to the log, and `Recorded` says what has followed since: as
long as the request is under way it is remembered that the node was asked, and the request ends with
a success, a doubtful outcome, or the refusal of a node that has lost the lease in between. This
last case is the only one in which a definite failure is reported of a write that was applied, and
the journal tells exactly when it occurs.
-/

namespace ConsensusLink

open Promise Relation Client

namespace Situation

variable {s s' : LocalSituation}

/-- The journal holds an attempt of a write of `msg` at `pos` for the promise `p`; the log was `log`
before and `log'` after it. -/
def Attempted (s : LocalSituation) (pos : MessageIndex) (msg : Message) (p : Id)
    (log log' : List Message) (result : Option (Outcome Unit)) : Prop :=
  ∃ before after : ScriptedNode, .attempted (.write pos msg) p before after result ∈ s.journal ∧
    before.node.log = log ∧ after.node.log = log'

/-- What is said of a write in the end, when an attempt was applied, or acknowledged. -/
structure Said (o : Outcome Answer) (applied acknowledged : Prop) : Prop where
  /-- No failure tells that it was not applied, but the loss of the lease. -/
  doubtful : applied → ∀ e, o = .error e →
    e = .notChosenSequencer ∨ e = .shutDown ∨ ∃ pos, e = .outcomeUnknown pos
  /-- It is a success, unless the client is shut down. -/
  success : acknowledged → ∀ e, o = .error e → e = .shutDown

/-- How a write has come along since an attempt, which may have been applied, and may have been
acknowledged. -/
inductive Sequel (s : LocalSituation) (r : SequencerRequest) (p : Id)
    (applied acknowledged : Prop) : Prop
  /-- It is under way. -/
  | underWay {a stage} (hs : s.stance = .resting)
      (hc : s.client.coordinatorStage = .busy r p a stage) (hsent : applied → a.sent = true)
      (hack : ¬acknowledged)
  /-- An attempt has just ended, this one or a later one. -/
  | judged {a o} (hs : s.stance = .judging r p a o) (hsent : applied → a.sent = true)
      (ho : applied → AfterApplied o) (hack : acknowledged → o = .ok ())
  /-- It has ended. -/
  | ended {o} (h : s.client.promises.outcome? p = some o) (hsaid : Said o applied acknowledged)

/-- What the journal says of the attempts of writes, and what has become of them. -/
structure Recorded (s : LocalSituation) : Prop where
  /-- They were made for promises that were handed out for them. -/
  asked : ∀ pos msg p log log' result, s.Attempted pos msg p log log' result →
    (p, Ask.sequence (.write pos msg)) ∈ s.asked
  /-- They dealt with the log as they may. -/
  lawful : ∀ pos msg p log log' result, s.Attempted pos msg p log log' result →
    result = none ∧ log' = log ∨ ∃ o, result = some o ∧ WriteEnds pos msg log o log'
  /-- What they left in the log is there. -/
  past : ∀ pos msg p log log' result, s.Attempted pos msg p log log' result → log' <+: s.log
  /-- What has followed. -/
  sequel : ∀ pos msg p log log' result, s.Attempted pos msg p log log' result →
    s.Sequel (.write pos msg) p (log' ≠ log) (result = some (.ok ()))

variable {r : SequencerRequest} {p : Id} {applied acknowledged : Prop}

namespace Sequel

/-- What happens aside changes nothing. -/
lemma aside (h : s.Sequel r p applied acknowledged) (ha : s.Aside s')
    (hp : (p, Ask.sequence r) ∈ s.asked) : s'.Sequel r p applied acknowledged := by
  cases h with
  | underWay hs hc hsent hack =>
    obtain he | ⟨he, -⟩ := ha.stage
    · exact .underWay (ha.stance.trans hs) (he.trans hc) hsent hack
    · cases he.symm.trans hc
  | judged hs hsent ho hack => exact .judged (ha.stance.trans hs) hsent ho hack
  | ended h hsaid => exact .ended ((ha.outcomes p r hp).trans h) hsaid

/-- A request that was attempted has ended, unless it is at hand. -/
lemma ended_of_atHand_ne (h : s.Sequel r p applied acknowledged)
    (hat : s.atHand ≠ some (r, p)) :
    ∃ o, s.client.promises.outcome? p = some o ∧ Said o applied acknowledged := by
  cases h with
  | underWay hs hc => exact absurd (atHand_busy hs hc) hat
  | judged hs => exact absurd (atHand_judging hs) hat
  | ended h hsaid => exact ⟨_, h, hsaid⟩

/-- It stays so when others end. -/
lemma of_settles {o o' : Outcome Answer} {ps : List Id} (h : s.client.promises.outcome? p = some o)
    (hsaid : Said o applied acknowledged)
    (hset : s.client.promises.Settles s'.client.promises ps o')
    (hps : ∀ q ∈ ps, s.client.promises.Pending q) : s'.Sequel r p applied acknowledged := by
  refine .ended ?_ hsaid
  rw [hset.outcome?_of_notMem, h]
  intro hmem
  cases (hps p hmem).outcome?_eq.symm.trans h

end Sequel

lemma Recorded.fresh (config : ClientConfig) (node : ScriptedNode) :
    Recorded (fresh config ScriptedNode.remote node) where
  asked _ _ _ _ _ _ := by rintro ⟨_, _, h, -⟩; cases h
  lawful _ _ _ _ _ _ := by rintro ⟨_, _, h, -⟩; cases h
  past _ _ _ _ _ _ := by rintro ⟨_, _, h, -⟩; cases h
  sequel _ _ _ _ _ _ := by rintro ⟨_, _, h, -⟩; cases h

/-- The record stays true as long as no attempt is made. -/
lemma Recorded.of_attempted (h : s.Recorded)
    (hold : ∀ {pos msg p log log' result}, s'.Attempted pos msg p log log' result →
      s.Attempted pos msg p log log' result)
    (hasked : ∀ d ∈ s.asked, d ∈ s'.asked) (hlog : s.log <+: s'.log)
    (hsequel : ∀ pos msg p applied acknowledged, (p, Ask.sequence (.write pos msg)) ∈ s.asked →
      s.Sequel (.write pos msg) p applied acknowledged →
      s'.Sequel (.write pos msg) p applied acknowledged) : s'.Recorded := by
  refine ⟨fun _ _ _ _ _ _ he => hasked _ (h.asked _ _ _ _ _ _ (hold he)),
    fun _ _ _ _ _ _ he => h.lawful _ _ _ _ _ _ (hold he),
    fun _ _ _ _ _ _ he => (h.past _ _ _ _ _ _ (hold he)).trans hlog, fun _ _ _ _ _ _ he => ?_⟩
  exact hsequel _ _ _ _ _ (h.asked _ _ _ _ _ _ (hold he)) (h.sequel _ _ _ _ _ _ (hold he))

/-- A message that an attempt has appended is still in the log. -/
lemma Recorded.getElem?_of_applied (h : s.Recorded) {pos : MessageIndex} {msg : Message}
    {log log' : List Message} {result : Option (Outcome Unit)}
    (he : s.Attempted pos msg p log log' result) (hne : log' ≠ log) :
    s.log[pos.toNat]? = some msg := by
  obtain ⟨-, rfl⟩ | ⟨o, -, hends⟩ := h.lawful _ _ _ _ _ _ he
  · exact absurd rfl hne
  · obtain ⟨hpos, rfl, -⟩ := hends.appended hne
    refine getElem?_of_grows (h.past _ _ _ _ _ _ he) ?_
    rw [hpos, List.getElem?_concat_length]

/-- What follows when an attempt is made that is not the first one of its request, or when an
attempt is made for another request. -/
lemma Sequel.attempt {pos : MessageIndex} {msg : Message} {r' : SequencerRequest} {q : Id}
    {a : Attempts} {start : Option ScriptedNode.Phase} {coordinator : Coordinator}
    {progress : AttemptProgress ScriptedNode ScriptedNode.Phase}
    (h : s.Sequel (.write pos msg) p applied acknowledged)
    (ht : s.TakesUp r' q a start coordinator) (hlog : AttemptOnLog s.log r' q a progress)
    (hpromises : progress.client.promises = s.client.promises)
    (happlied : applied → s.log[pos.toNat]? = some msg) :
    Sequel (attempt { s with client := { s.client with coordinator } } r' q progress)
      (.write pos msg) p applied acknowledged := by
  -- the request is the one that is attempted, and was not acknowledged, or it has ended
  have hcase : (r' = .write pos msg ∧ q = p ∧ (applied → a.sent = true) ∧ ¬acknowledged) ∨
      ∃ o, s.client.promises.outcome? p = some o ∧ Said o applied acknowledged := by
    cases h with
    | ended h hsaid => exact .inr ⟨_, h, hsaid⟩
    | underWay hs hc hsent hack =>
      cases ht with
      | resumes hs' hc' =>
        cases hc.symm.trans hc'
        exact .inl ⟨rfl, rfl, hsent, hack⟩
      | repeats hs' => cases hs.symm.trans hs'
      | begins hs' => cases hs.symm.trans hs'
    | judged hs hsent ho hack =>
      cases ht with
      | resumes hs' => cases hs.symm.trans hs'
      | repeats hs' hj =>
        cases hs.symm.trans hs'
        obtain ⟨e, rfl, -⟩ := judge_again hj
        exact .inl ⟨rfl, rfl, hsent, fun hk => nomatch hack hk⟩
      | begins hs' => cases hs.symm.trans hs'
  obtain ⟨rfl, rfl, hsent, hack⟩ | ⟨o, h, hsaid⟩ := hcase
  · cases hlog with
    | pending hsame hstage hkeeps => exact .underWay rfl hstage (fun ha => hkeeps (hsent ha)) hack
    | ended hwrite _ _ hkeeps _ =>
      have hends := hwrite pos msg rfl
      refine .judged rfl (fun ha => hkeeps (.inl (hsent ha))) (fun ha => ?_) (absurd · hack)
      exact hends.afterApplied (getElem?_of_grows hends.log_grows (happlied ha))
  · refine .ended ?_ hsaid
    cases progress with
    | pending c => rwa [← hpromises] at h
    | result a' o' c => rwa [← hpromises] at h

/-- An entry of the journal after an attempt is an old one, or that of the attempt. -/
lemma attempted_attempt {q : Id} {a : Attempts} {coordinator : Coordinator}
    {progress : AttemptProgress ScriptedNode ScriptedNode.Phase}
    (hlog : AttemptOnLog s.log r q a progress) {pos : MessageIndex} {msg : Message}
    {log log' : List Message} {result : Option (Outcome Unit)}
    (he : (attempt { s with client := { s.client with coordinator } } r q progress).Attempted
      pos msg p log log' result) :
    s.Attempted pos msg p log log' result ∨
      r = .write pos msg ∧ p = q ∧ log = s.log ∧ log' = progress.client.node.node.log ∧
        (result = none ∧ log' = log ∨ ∃ o, result = some o ∧ WriteEnds pos msg log o log') ∧
        Sequel (attempt { s with client := { s.client with coordinator } } r q progress)
          (.write pos msg) p (log' ≠ log) (result = some (.ok ())) := by
  obtain ⟨before, after, hmem, rfl, rfl⟩ := he
  cases hlog with
  | pending hsame hstage _ =>
    rcases List.mem_cons.1 hmem with he | hmem
    · cases he
      exact .inr ⟨rfl, rfl, rfl, rfl, .inl ⟨rfl, hsame⟩, .underWay rfl hstage (absurd hsame) nofun⟩
    · exact .inl ⟨before, after, hmem, rfl, rfl⟩
  | ended hwrite _ _ hsent _ =>
    rcases List.mem_cons.1 hmem with he | hmem
    · cases he
      have hends := hwrite pos msg rfl
      refine .inr ⟨rfl, rfl, rfl, rfl, .inr ⟨_, rfl, hends⟩,
        .judged rfl (fun hne => hsent (.inr hne)) (fun hne => hends.afterApplied ?_)
          Option.some.inj⟩
      obtain ⟨hpos, he, -⟩ := hends.appended hne
      rw [he, hpos, List.getElem?_concat_length]
    · exact .inl ⟨before, after, hmem, rfl, rfl⟩

/-- What is said of a write that is concluded. -/
lemma said_conclude {pos : MessageIndex} {msg : Message} {a : Attempts} {o : Outcome Unit}
    (hsent : applied → a.sent = true) (ho : applied → AfterApplied o)
    (hack : acknowledged → o = .ok ()) :
    Said ((a.conclude (.write pos msg) o).map fun _ => .done) applied acknowledged := by
  constructor
  · intro ha e he
    cases ho ha with
    | ok => cases he
    | transient ht =>
      simp only [Attempts.conclude, ht, hsent ha, and_self, if_true] at he
      cases he
      exact .inr (.inr ⟨pos, rfl⟩)
    | refused =>
      cases he
      exact .inl rfl
    | shutDown =>
      cases he
      exact .inr (.inl rfl)
  · intro hk e he
    rw [hack hk] at he
    cases he

/-- What follows when the client stops. -/
lemma Sequel.stop {pos : MessageIndex} {msg : Message}
    (h : s.Sequel (.write pos msg) p applied acknowledged)
    (hset : s.client.promises.Settles s'.client.promises (s.duties.map Prod.snd) (.error .shutDown))
    (hpending : ∀ d ∈ s.duties, s.client.promises.Pending d.2) :
    s'.Sequel (.write pos msg) p applied acknowledged := by
  by_cases hat : s.atHand = some (.write pos msg, p)
  · have hmem : p ∈ s.duties.map Prod.snd := List.mem_map_of_mem (mem_duties_of_atHand hat)
    refine .ended (hset.outcome p hmem) ⟨fun _ e he => ?_, fun _ e he => ?_⟩
    · cases he
      exact .inr (.inl rfl)
    · cases he
      rfl
  · obtain ⟨o, ho, hsaid⟩ := h.ended_of_atHand_ne hat
    refine .of_settles ho hsaid hset fun q hq => ?_
    obtain ⟨d, hd, rfl⟩ := List.mem_map.1 hq
    exact hpending d hd

/-- What follows when a request is concluded. -/
lemma Sequel.conclude {pos : MessageIndex} {msg : Message} {r' : SequencerRequest} {q : Id}
    {a : Attempts} {o : Outcome Unit} (h : s.Sequel (.write pos msg) p applied acknowledged)
    (hs : s.stance = .judging r' q a o)
    (hset : s.client.promises.Settles s'.client.promises [q]
      ((a.conclude r' o).map fun _ => .done))
    (hpending : s.client.promises.Pending q) :
    s'.Sequel (.write pos msg) p applied acknowledged := by
  cases h with
  | underWay hs' => cases hs.symm.trans hs'
  | judged hs' hsent ho hack =>
    cases hs.symm.trans hs'
    exact .ended (hset.outcome _ (List.mem_singleton_self _)) (said_conclude hsent ho hack)
  | ended ho hsaid =>
    refine .of_settles ho hsaid hset fun q' hq => ?_
    obtain rfl := List.mem_singleton.1 hq
    exact hpending

/-- An attempt keeps the record. -/
lemma Recorded.attempt (h : s.Recorded) (howned : s.Owned) (hplain : s.Plain) {q : Id}
    {a : Attempts} {start : Option ScriptedNode.Phase} {coordinator : Coordinator}
    {progress : AttemptProgress ScriptedNode ScriptedNode.Phase}
    (ht : s.TakesUp r q a start coordinator)
    (heff : AttemptEffect { s.client with coordinator } r q a start progress) :
    Recorded
      (Situation.attempt { s with client := { s.client with coordinator } } r q progress) := by
  obtain ⟨-, hlog⟩ := hplain.attempt howned ht heff
  obtain ⟨_, _, _, _, hclient, -⟩ := heff.client_eq
  have hpromises : progress.client.promises = s.client.promises := by rw [hclient]
  have hduty : (r, q) ∈ s.duties := ht.duties_eq ▸ List.mem_cons_self
  refine ⟨?_, ?_, ?_, ?_⟩
  · intro pos msg p log log' result he
    rw [asked_attempt]
    obtain he | ⟨rfl, rfl, -⟩ := attempted_attempt hlog he
    · exact h.asked _ _ _ _ _ _ he
    · exact howned.duties_asked _ hduty
  · intro pos msg p log log' result he
    obtain he | ⟨-, -, -, -, hlawful, -⟩ := attempted_attempt hlog he
    · exact h.lawful _ _ _ _ _ _ he
    · exact hlawful
  · intro pos msg p log log' result he
    rw [log_attempt]
    obtain he | ⟨-, -, -, rfl, -⟩ := attempted_attempt hlog he
    · exact (h.past _ _ _ _ _ _ he).trans hlog.log_grows
    · exact List.prefix_refl _
  · intro pos msg p log log' result he
    obtain he | ⟨-, -, -, -, -, hseq⟩ := attempted_attempt hlog he
    · exact (h.sequel _ _ _ _ _ _ he).attempt ht hlog hpromises (h.getElem?_of_applied he)
    · exact hseq

/-- A step of the coordinator keeps the record. -/
lemma Recorded.advances (h : s.Recorded) (howned : s.Owned) (hplain : s.Plain)
    (hadv : Advances s s') : s'.Recorded := by
  cases hadv with
  | idles hat hc hat' =>
    refine h.of_attempted id (fun _ => id) (List.prefix_refl _) ?_
    intro pos msg p applied acknowledged _ hseq
    obtain ⟨o, h, hsaid⟩ := hseq.ended_of_atHand_ne (by simp [hat])
    exact .ended h hsaid
  | stops hcond hset hd =>
    refine h.of_attempted id (fun _ => id) (List.prefix_refl _) ?_
    intro pos msg p applied acknowledged _ hseq
    exact hseq.stop hset.toSettles howned.duties_pending
  | attempts htake heff => exact h.attempt howned hplain htake heff
  | concludes hs hj hset =>
    rename_i r q a o _ _ _ _ _ _
    refine h.of_attempted ?_ (fun _ => id) (List.prefix_refl _) ?_
    · rintro pos msg p log log' result ⟨before, after, hmem, hb, ha⟩
      rcases List.mem_cons.1 hmem with he | hmem
      · cases he
      · exact ⟨before, after, hmem, hb, ha⟩
    · intro pos msg p applied acknowledged _ hseq
      refine hseq.conclude hs hset.toSettles (howned.duties_pending (r, q) ?_)
      rw [duties_judging hs]
      exact List.mem_cons_self
  | pauses hs hj =>
    refine h.of_attempted id (fun _ => id) (List.prefix_refl _) ?_
    intro pos msg p applied acknowledged _ hseq
    cases hseq with
    | underWay hs' => cases hs.symm.trans hs'
    | judged hs' hsent _ hack =>
      cases hs.symm.trans hs'
      obtain ⟨e, rfl, -⟩ := judge_again hj
      refine .underWay rfl rfl hsent fun hk => ?_
      cases hack hk
    | ended h hsaid => exact .ended h hsaid
  | answers hs hd hq hans hset =>
    rename_i r q queue o coordinator _ _ _ _ _ _
    refine h.of_attempted id (fun _ => id) (List.prefix_refl _) ?_
    intro pos msg p applied acknowledged _ hseq
    obtain ⟨o', h, hsaid⟩ := hseq.ended_of_atHand_ne (by simp [atHand, hs])
    refine .of_settles h hsaid hset.toSettles fun p' hp' => ?_
    obtain rfl := List.mem_singleton.1 hp'
    refine howned.duties_pending (r, p') ?_
    rw [duties_taking hs, hq]
    exact List.mem_cons_self

/-- So does everything that can happen. -/
lemma Recorded.happens {moves : ScriptedNode → ScriptedNode → Prop} (h : s.Recorded)
    (howned : s.Owned) (hplain : s.Plain) (hm : ∀ n n', moves n n' → n.Grows n')
    (hh : Happens moves s s') : s'.Recorded := by
  have haside : s.Aside s' → s.log <+: s'.log → s'.Recorded := by
    intro ha hlog
    refine h.of_attempted ?_ ha.asked hlog fun _ _ _ _ _ hp hseq => hseq.aside ha hp
    rintro pos msg p log log' result ⟨before, after, hmem, hb, ha'⟩
    exact ⟨before, after, ha.journal ▸ hmem, hb, ha'⟩
  cases hh with
  | advances hadv => exact h.advances howned hplain hadv
  | aside ha hn => exact haside ha ((hplain.browses hn).2 ▸ List.prefix_refl _)
  | moves ha hn => exact haside ha (hm _ _ hn).2

/-- **When a write that failed was applied.** Let a write be reported to have failed, neither with a
doubtful outcome nor because the client was shut down. One of its attempts has appended its message
all the same exactly if the failure is the loss of the lease and an attempt at the end of the log
got a reply that was lost. -/
theorem failed_write_applied_iff {config : ClientConfig} {node : ScriptedNode}
    (hn : node.scripts = [])
    (h : Runs ScriptedNode.Grows (Situation.fresh config ScriptedNode.remote node) s)
    {pos : MessageIndex} {msg : Message} {e : Failure}
    (ho : s.client.promises.outcome? p = some (.error e)) (hdown : e ≠ .shutDown)
    (hdoubt : ∀ q, e ≠ .outcomeUnknown q) :
    (∃ log result, s.Attempted pos msg p log (log ++ [msg]) result) ↔
      e = .notChosenSequencer ∧ ∃ log log', pos.toNat = log.length ∧
        s.Attempted pos msg p log log' (some (.error (.transport lostReply))) := by
  obtain ⟨hplain, hrec⟩ : s.Plain ∧ s.Recorded := by
    refine h.invariant (P := fun s => s.Plain ∧ s.Recorded)
      ⟨plain_fresh config hn, .fresh config node⟩ ?_
    rintro s s' howned ⟨hplain, hrec⟩ hh
    exact ⟨hplain.happens howned (fun _ _ hg => hg.1) hh,
      hrec.happens howned hplain (fun _ _ => id) hh⟩
  -- the request has ended, so that its sequel is the outcome
  have hat : s.atHand ≠ some (.write pos msg, p) := by
    intro hat
    have hpend := (owned_of_runs h).duties_pending (.write pos msg, p) (by
      rw [duties, hat]
      exact List.mem_cons_self)
    cases hpend.outcome?_eq.symm.trans ho
  constructor
  · -- what was said after the append tells that it is the loss of the lease
    rintro ⟨log, result, he⟩
    have hne : log ++ [msg] ≠ log := by simp
    obtain ⟨o, ho', hsaid⟩ := (hrec.sequel _ _ _ _ _ _ he).ended_of_atHand_ne hat
    cases ho'.symm.trans ho
    obtain ⟨-, hsame⟩ | ⟨o, rfl, hends⟩ := hrec.lawful _ _ _ _ _ _ he
    · exact absurd hsame hne
    · obtain ⟨hpos, -, rfl | rfl⟩ := hends.appended hne
      · exact absurd (hsaid.success rfl e rfl) hdown
      · obtain rfl | rfl | ⟨q, rfl⟩ := hsaid.doubtful hne e rfl
        · exact ⟨rfl, log, _, hpos, he⟩
        · exact absurd rfl hdown
        · exact absurd rfl (hdoubt q)
  · -- at the end of the log a reply is lost only after the message was appended
    rintro ⟨rfl, log, log', hpos, he⟩
    obtain ⟨hnone, -⟩ | ⟨o, hres, hends⟩ := hrec.lawful _ _ _ _ _ _ he
    · cases hnone
    · cases hres
      obtain rfl := hends.log_of_lostReply hpos
      exact ⟨log, _, he⟩

/-! ## A write that is applied and refused -/

/-- A client of a node that loses its first acknowledgement has asked for a write. It was applied,
but the client does not know and is about to try again. -/
def unacknowledged : LocalSituation :=
  (fresh {} ScriptedNode.remote { node := { leaseHeld := true, lostAcks := 1 } }).afterAll
    [.order .start, .ask (.sequence (.write (.ofNat 0) (.sample 0))), .advance, .advance, .advance]

/-- The lease is lost now. -/
def leaseLost : Event ScriptedNode :=
  .node (unacknowledged.client.node.modifyNode ({ · with leaseHeld := false }))

/-- The client has tried again without the lease. -/
def supplanted : LocalSituation :=
  (unacknowledged.after leaseLost).afterAll [.clock { now := 100 }, .advance, .advance]

lemma runs_supplanted :
    Runs ScriptedNode.Grows
      (fresh {} ScriptedNode.remote { node := { leaseHeld := true, lostAcks := 1 } })
      supplanted := by
  have hlost : Runs ScriptedNode.Grows unacknowledged (unacknowledged.after leaseLost) :=
    runs_after (show unacknowledged.client.node.Grows _ from ⟨rfl, List.prefix_refl _⟩)
  exact ((runs_afterAll rfl _).trans hlost).trans (runs_afterAll rfl _)

/-- The first attempt has appended the message; its reply was lost. -/
lemma attempted_supplanted :
    supplanted.Attempted (.ofNat 0) (.sample 0) ⟨0⟩ [] [.sample 0]
      (some (.error (.transport lostReply))) :=
  ⟨_, _, List.mem_of_getElem? (i := 2) rfl, rfl, rfl⟩

/-- A definite failure does not mean that the write was not applied. -/
theorem not_unapplied_of_failed :
    ¬∀ (config : ClientConfig) (node : ScriptedNode) (s : LocalSituation) (pos : MessageIndex)
      (msg : Message) (p : Id) (e : Failure), node.scripts = [] →
      Runs ScriptedNode.Grows (fresh config ScriptedNode.remote node) s →
      (p, Ask.sequence (.write pos msg)) ∈ s.asked →
      s.client.promises.outcome? p = some (.error e) → e ≠ .shutDown →
      (∀ q, e ≠ .outcomeUnknown q) →
      ¬∃ log result, s.Attempted pos msg p log (log ++ [msg]) result := by
  intro hclaim
  exact hclaim _ _ supplanted (.ofNat 0) (.sample 0) ⟨0⟩ .notChosenSequencer rfl runs_supplanted
    (List.mem_singleton.2 rfl) rfl nofun nofun ⟨[], _, attempted_supplanted⟩

/-- Here the refusal comes with a message in the log. -/
theorem failed_write_applied_supplanted :
    supplanted.client.promises.outcome? ⟨0⟩ = some (.error .notChosenSequencer) ∧
      ∃ log result,
        supplanted.Attempted (.ofNat 0) (.sample 0) ⟨0⟩ log (log ++ [.sample 0]) result := by
  have ho : supplanted.client.promises.outcome? ⟨0⟩ = some (.error .notChosenSequencer) := rfl
  exact ⟨ho, (failed_write_applied_iff rfl runs_supplanted ho nofun nofun).2
    ⟨rfl, [], _, rfl, attempted_supplanted⟩⟩

end Situation

end ConsensusLink
