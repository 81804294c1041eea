import ConsensusLink.Proofs.Sequencing.Writing
/-!
# The tail that a coordinator knows

When the coordinator turns a write down as out of order without asking the node, it takes the
position after the tail that it knows for the end of the log. Here nobody else appends to the log.
The coordinator may still be wrong, for it also takes the position of an old message for the tail
when that message is written again at a moment at which no tail is known. `anchored` reads off the
journal whether the coordinator has been told of the end of the log since it last had to forget the
tail; `Charted` relates the tail to the log and to this history. Together they show that the
coordinator agrees with the node exactly if it has been told.
-/

namespace ConsensusLink

open Promise Relation Client

/-! ## What requests tell of the end of the log -/

/-- What the end of a request means for the knowledge of where the log ends. -/
inductive Bearing where
  /-- The coordinator is told where the log ends. -/
  | told
  /-- It has to forget what it knew. -/
  | forgets
  /-- It is no wiser. -/
  | none
deriving DecidableEq

/-- A write that succeeds at the end of the log, or is out of order, tells where the log ends; a
write with a doubtful outcome, and the loss of the lease, make the coordinator forget. -/
def Entry.bearing : Entry ScriptedNode → Bearing
  | .concluded (.write pos _) _ (.ok ()) n =>
    if pos.toNat + 1 = n.node.log.length then .told else .none
  | .concluded (.write ..) _ (.error (.outOfOrder ..)) _ => .told
  | .concluded (.write ..) _ (.error (.outcomeUnknown _)) _ => .forgets
  | .concluded _ _ (.error .notChosenSequencer) _ => .forgets
  | _ => .none

/-- Whether the coordinator has been told where the log ends since it last had to forget it,
according to its journal. -/
def anchored : List (Entry ScriptedNode) → Bool
  | [] => false
  | e :: journal =>
    match e.bearing with
    | .told => true
    | .forgets => false
    | .none => anchored journal

/-- How the node may change by itself while nobody else writes: in any way, but with the same
log. -/
def ScriptedNode.Steady (n n' : ScriptedNode) : Prop :=
  n'.scripts = [] ∧ n'.node.log = n.node.log

/-- The tail that is known is in a log of the given length, and is its end exactly if the
coordinator has been told so. When it has been told and knows no tail, the log is empty. -/
def Charted (length : Nat) (told : Bool) : Option MessageIndex → Prop
  | none => told = true → length = 0
  | some t => t.toNat < length ∧ (told = true ↔ t.toNat + 1 = length)

namespace LogView

variable {v v' : LogView} {pos : MessageIndex} {msg : Message} {length : Nat} {told : Bool}

/-- A view turns down as out of order what is beyond the position after its tail. -/
lemma check_outOfOrder {o : Outcome Unit} {expected : Option MessageIndex} {got : MessageIndex}
    (h : v.check pos msg = (some o, v')) (ho : o = .error (.outOfOrder expected got)) :
    ∃ t, v.tail = some t ∧ t.next < pos ∧ expected = some t.next ∧ got = pos := by
  subst ho
  unfold check at h
  split at h
  · cases h
  · split at h
    · split at h <;> cases h
    · split at h
      · cases h
      · rename_i t ht
        split at h
        · rename_i hlt
          cases h
          exact ⟨t, ht, hlt, rfl, rfl⟩
        · cases h

/-- A write is accepted that is not at the end of the log. -/
lemma charted_accept (h : Charted length told v.tail) (hpos : pos.toNat + 1 < length) :
    Charted length told (v.accept pos msg).tail := by
  rw [accept]
  cases hv : v.tail with
  | none =>
    rw [hv] at h
    have hfalse : told ≠ true := by
      intro ht
      have hzero := h ht
      omega
    dsimp only [Charted]
    exact ⟨by omega, fun ht => absurd ht hfalse, fun he => by omega⟩
  | some t =>
    rw [hv] at h
    obtain ⟨hlt, hiff⟩ := h
    dsimp only [Charted]
    rw [MessageIndex.toNat_max]
    refine ⟨by omega, ?_⟩
    rw [hiff]
    omega

/-- A write is accepted at the end of the log. -/
lemma charted_accept_last (h : ∀ t, v.tail = some t → t.toNat < length)
    (hpos : pos.toNat + 1 = length) : Charted length true (v.accept pos msg).tail := by
  rw [accept]
  cases hv : v.tail with
  | none =>
    dsimp only [Charted]
    exact ⟨by omega, fun _ => hpos, fun _ => rfl⟩
  | some t =>
    have hlt := h t hv
    dsimp only [Charted]
    rw [MessageIndex.toNat_max]
    exact ⟨by omega, fun _ => by omega, fun _ => rfl⟩

/-- The node reports where the log ends. -/
lemma charted_resync {e : MessageIndex} (he : e.toNat = length) :
    Charted length true (v.resync (some e)).tail := by
  rw [resync, Option.bind_some]
  cases hp : e.prev? with
  | none => exact fun _ => he.symm.trans (MessageIndex.prev?_eq_none_iff.1 hp)
  | some t =>
    have hnext := MessageIndex.prev?_eq_some hp
    exact ⟨by omega, fun _ => by omega, fun _ => rfl⟩

end LogView

section

variable {v : LogView} {pos : MessageIndex} {msg : Message} {p : Id} {a : Attempts}
  {log log' : List Message} {n : ScriptedNode} {journal : List (Entry ScriptedNode)} {length : Nat}

/-- A write ends without an answer. Once the node was asked this makes the coordinator forget. -/
lemma charted_transient {e : Failure} (ht : e.isTransient = true)
    (h : a.sent = false → Charted length (anchored journal) v.tail) :
    Charted length
      (anchored
        (.concluded (.write pos msg) p (a.conclude (.write pos msg) (.error e)) n :: journal))
      (v.afterWrite pos msg (a.conclude (.write pos msg) (.error e))).tail := by
  cases hsent : a.sent with
  | true =>
    simp only [Attempts.conclude, ht, hsent, and_self, if_true]
    rintro ⟨⟩
  | false =>
    simp only [Attempts.conclude, ht, hsent, Bool.false_eq_true, and_false, if_false]
    rcases (Failure.isTransient_iff e).1 ht with ⟨_, rfl⟩ | rfl | rfl
    · exact h hsent
    · exact h hsent
    · exact h hsent

/-- A write ends that was not applied before its last attempt. -/
lemma charted_conclude {o : Outcome Unit}
    (h : Charted n.node.log.length (anchored journal) v.tail)
    (hlog' : n.node.log = log') (hends : WriteEnds pos msg log o log') :
    Charted n.node.log.length
      (anchored (.concluded (.write pos msg) p (a.conclude (.write pos msg) o) n :: journal))
      (v.afterWrite pos msg (a.conclude (.write pos msg) o)).tail := by
  have hsucceeds : n.node.log[pos.toNat]? = some msg →
      Charted n.node.log.length (anchored (.concluded (.write pos msg) p (.ok ()) n :: journal))
        (v.accept pos msg).tail := by
    intro hlog
    obtain ⟨hlt, -⟩ := List.getElem?_eq_some_iff.1 hlog
    by_cases hlast : pos.toNat + 1 = n.node.log.length
    · simp only [anchored, Entry.bearing, hlast, if_true]
      refine LogView.charted_accept_last (fun t ht => ?_) hlast
      rw [ht] at h
      exact h.1
    · simp only [anchored, Entry.bearing, hlast, if_false]
      exact LogView.charted_accept h (by omega)
  cases hends with
  | unanswered he =>
    rcases he with rfl | rfl | rfl
    · exact charted_transient rfl fun _ => h
    · exact charted_transient rfl fun _ => h
    · exact h
  | replied hreply =>
    cases hreply with
    | refused => rintro ⟨⟩
    | failed => exact charted_transient rfl fun _ => h
    | again hlog ho =>
      rcases ho with rfl | rfl
      · exact hsucceeds (hlog' ▸ hlog)
      · exact charted_transient rfl fun _ => h
    | appended hpos ho =>
      rcases ho with rfl | rfl
      · exact hsucceeds (by rw [hlog', hpos, List.getElem?_concat_length])
      · exact charted_transient rfl fun _ => h
    | conflicts => exact h
    | beyond hlt =>
      rw [hlog']
      exact LogView.charted_resync (toNat_ofNat_length hlt)

/-- A write ends that was applied by one of its attempts. -/
lemma charted_applied {o : Outcome Unit} (h : Charted pos.toNat (anchored journal) v.tail)
    (hlength : n.node.log.length = pos.toNat + 1) (hsent : a.sent = true) (ho : AfterApplied o)
    (hdown : o ≠ .error .shutDown) :
    Charted n.node.log.length
      (anchored (.concluded (.write pos msg) p (a.conclude (.write pos msg) o) n :: journal))
      (v.afterWrite pos msg (a.conclude (.write pos msg) o)).tail := by
  cases ho with
  | ok =>
    simp only [anchored, Attempts.conclude, Entry.bearing, hlength, if_true]
    refine LogView.charted_accept_last (fun t ht => ?_) rfl
    rw [ht] at h
    exact Nat.lt_succ_of_lt h.1
  | transient ht => exact charted_transient ht fun hf => by cases hsent.symm.trans hf
  | refused => rintro ⟨⟩
  | shutDown => exact absurd rfl hdown

/-- A probe ends. -/
lemma charted_probe {o : Outcome Unit} (h : Charted length (anchored journal) v.tail) :
    Charted length (anchored (.concluded .probe p (a.conclude .probe o) n :: journal))
      (v.afterProbe (a.conclude .probe o)).tail := by
  cases o with
  | ok => exact h
  | error e =>
    cases e with
    | notChosenSequencer => rintro ⟨⟩
    | _ => exact h

end

/-! ## Along runs -/

namespace Situation

variable {s s' : LocalSituation} {length : Nat} {pos : MessageIndex} {msg : Message}

/-- A write is at hand that was applied by one of its attempts. -/
structure Applied (s : LocalSituation) (pos : MessageIndex) (msg : Message) : Prop where
  /-- The message is in the log. -/
  log : s.log[pos.toNat]? = some msg
  /-- The write is at hand, and it is known that the node was asked. -/
  sent : (∃ p a stage, s.stance = .resting ∧
      s.client.coordinatorStage = .busy (.write pos msg) p a stage ∧ a.sent = true) ∨
    ∃ p a o, s.stance = .judging (.write pos msg) p a o ∧ a.sent = true

/-- The tail is charted in the log as it was when the request at hand was taken up. Since then it
can only have grown by the message of this request. -/
structure Gauged (s : LocalSituation) (length : Nat) : Prop where
  charted : Charted length (anchored s.journal) s.client.coordinator.view.tail
  log : s.log.length = length ∨
    ∃ pos msg, s.Applied pos msg ∧ pos.toNat = length ∧ s.log.length = length + 1
  judged : ∀ pos msg p a o, s.stance = .judging (.write pos msg) p a o →
    o ≠ .error .shutDown ∧ ∃ log, WriteEnds pos msg log o s.log

lemma Applied.atHand (h : s.Applied pos msg) : ∃ p, s.atHand = some (.write pos msg, p) := by
  obtain ⟨p, a, stage, hs, hc, -⟩ | ⟨p, a, o, hs, -⟩ := h.sent
  · exact ⟨p, by simp only [Situation.atHand, hs, hc]⟩
  · exact ⟨p, by simp only [Situation.atHand, hs]⟩

/-- With no write at hand the log is as long as when the tail was charted. -/
lemma Gauged.length_eq (h : s.Gauged length)
    (hat : ∀ pos msg p, s.atHand ≠ some (.write pos msg, p)) :
    s.log.length = length := by
  obtain hlog | ⟨pos, msg, happlied, -⟩ := h.log
  · exact hlog
  · obtain ⟨p, hp⟩ := happlied.atHand
    exact absurd hp (hat pos msg p)

/-- Steps between requests. -/
lemma Gauged.between (h : s.Gauged length) (hat : ∀ pos msg p, s.atHand ≠ some (.write pos msg, p))
    (htail : s'.client.coordinator.view.tail = s.client.coordinator.view.tail)
    (hlog : s'.log = s.log) (hjournal : s'.journal = s.journal)
    (hs : ∀ r p a o, s'.stance ≠ .judging r p a o) : s'.Gauged length where
  charted := by
    rw [hjournal, htail]
    exact h.charted
  log := .inl (hlog ▸ h.length_eq hat)
  judged pos msg p a o hs' := absurd hs' (hs _ p a o)

/-- What happens aside. -/
lemma Gauged.aside (h : s.Gauged length) (ha : s.Aside s') (hlog : s'.log = s.log) :
    s'.Gauged length := by
  refine ⟨?_, ?_, ?_⟩
  · rw [ha.journal, ha.view]
    exact h.charted
  · rw [hlog]
    refine h.log.imp_right fun ⟨pos, msg, happlied, hpos, hlength⟩ => ?_
    refine ⟨pos, msg, ⟨hlog ▸ happlied.log, ?_⟩, hpos, hlength⟩
    obtain ⟨p, a, stage, hs, hc, hsent⟩ | ⟨p, a, o, hs, hsent⟩ := happlied.sent
    · obtain he | ⟨he, -⟩ := ha.stage
      · exact .inl ⟨p, a, stage, ha.stance.trans hs, he.trans hc, hsent⟩
      · cases he.symm.trans hc
    · exact .inr ⟨p, a, o, ha.stance.trans hs, hsent⟩
  · rw [ha.stance, hlog]
    exact h.judged

/-- A request that was applied and is taken up again is the one at hand. -/
lemma Applied.of_takesUp (h : s.Applied pos msg) {r : SequencerRequest} {p : Id} {a : Attempts}
    {start : Option ScriptedNode.Phase} {coordinator : Coordinator}
    (ht : s.TakesUp r p a start coordinator) : r = .write pos msg ∧ a.sent = true := by
  obtain ⟨q, a', stage, hs, hc, hsent⟩ | ⟨q, a', o, hs, hsent⟩ := h.sent
  · cases ht with
    | resumes hs' hc' =>
      cases hc.symm.trans hc'
      exact ⟨rfl, hsent⟩
    | repeats hs' => cases hs.symm.trans hs'
    | begins hs' => cases hs.symm.trans hs'
  · cases ht with
    | resumes hs' => cases hs.symm.trans hs'
    | repeats hs' =>
      cases hs.symm.trans hs'
      exact ⟨rfl, hsent⟩
    | begins hs' => cases hs.symm.trans hs'

/-- As long as the log stays the same, a write that was applied goes on to be the one at hand. -/
lemma Gauged.log_of_takesUp (h : s.Gauged length) {r : SequencerRequest} {p : Id} {a : Attempts}
    {start : Option ScriptedNode.Phase} {coordinator : Coordinator}
    (ht : s.TakesUp r p a start coordinator) (hsame : s'.log = s.log)
    (hsent : ∀ pos msg, r = .write pos msg → a.sent = true → s'.log[pos.toNat]? = some msg →
      s'.Applied pos msg) :
    s'.log.length = length ∨
      ∃ pos msg, s'.Applied pos msg ∧ pos.toNat = length ∧ s'.log.length = length + 1 := by
  rw [hsame]
  refine h.log.imp_right ?_
  rintro ⟨pos, msg, happlied, hpos, hlength⟩
  obtain ⟨rfl, ha⟩ := happlied.of_takesUp ht
  exact ⟨pos, msg, hsent pos msg rfl ha (hsame ▸ happlied.log), hpos, hlength⟩

/-- An attempt, as far as the log is concerned: nothing happens, or it appends its message. -/
lemma Gauged.attempt (h : s.Gauged length) {r : SequencerRequest} {p : Id} {a : Attempts}
    {start : Option ScriptedNode.Phase} {coordinator : Coordinator}
    {progress : AttemptProgress ScriptedNode ScriptedNode.Phase}
    (ht : s.TakesUp r p a start coordinator) (hlog : AttemptOnLog s.log r p a progress)
    (hview : progress.client.coordinator.view = s.client.coordinator.view) :
    progress.client.pool.isDown = true ∨
      Gauged (Situation.attempt { s with client := { s.client with coordinator } } r p progress)
        length := by
  have htail := congrArg LogView.tail hview
  cases hlog with
  | pending hsame hstage hsent =>
    rename_i a' stage c
    refine .inr ⟨htail ▸ h.charted, ?_, by rintro _ _ _ _ _ ⟨⟩⟩
    refine h.log_of_takesUp ht hsame ?_
    rintro pos msg rfl ha hlog
    exact ⟨hlog, .inl ⟨p, a', stage, rfl, hstage, hsent ha⟩⟩
  | ended hwrite hprobe hretry hsent hdown =>
    rename_i a' o c
    by_cases ho : o = .error .shutDown
    · exact .inl (hdown ho)
    refine .inr ⟨htail ▸ h.charted, ?_, ?_⟩
    · by_cases hsame : c.node.node.log = s.log
      · refine h.log_of_takesUp ht hsame ?_
        rintro pos msg rfl ha hlog
        exact ⟨hlog, .inr ⟨p, a', o, rfl, hsent (.inl ha)⟩⟩
      · cases r with
        | probe => exact absurd (hprobe rfl) hsame
        | write pos msg =>
          obtain ⟨hpos, hgrown, -⟩ := (hwrite pos msg rfl).appended hsame
          -- it is the first time, for the position is not in the log
          have hlength : s.log.length = length := by
            obtain hlength | ⟨pos', msg', happlied, -⟩ := h.log
            · exact hlength
            · cases (happlied.of_takesUp ht).1
              obtain ⟨hlt, -⟩ := List.getElem?_eq_some_iff.1 happlied.log
              omega
          have happlied : c.node.node.log[pos.toNat]? = some msg := by
            rw [hgrown, hpos, List.getElem?_concat_length]
          refine .inr ⟨pos, msg, ⟨happlied, .inr ⟨p, a', o, rfl, hsent (.inr hsame)⟩⟩,
            hpos.trans hlength, ?_⟩
          show c.node.node.log.length = length + 1
          rw [hgrown, List.length_append, hlength, List.length_singleton]
    · rintro pos msg _ _ _ ⟨⟩
      exact ⟨ho, s.log, hwrite pos msg rfl⟩

/-- The knowledge of the tail after a request was concluded. -/
lemma Gauged.charted_conclude (h : s.Gauged length) {r : SequencerRequest} {p : Id} {a : Attempts}
    {o : Outcome Unit} (hs : s.stance = .judging r p a o) :
    Charted s.log.length (anchored (.concluded r p (a.conclude r o) s.client.node :: s.journal))
      (s.client.coordinator.finish r (a.conclude r o)).view.tail := by
  cases r with
  | probe =>
    have hlength := h.length_eq (by simp [atHand, hs])
    rw [hlength]
    exact charted_probe h.charted
  | write pos msg =>
    obtain ⟨hdown, log, hends⟩ := h.judged pos msg p a o hs
    obtain hlength | ⟨pos', msg', happlied, hpos, hlength⟩ := h.log
    · have hcharted := h.charted
      rw [← hlength] at hcharted
      exact ConsensusLink.charted_conclude hcharted rfl hends
    · -- the write that was applied is the one that is concluded
      obtain ⟨q, a', stage, hs', -⟩ | ⟨q, a', o', hs', hsent⟩ := happlied.sent
      · cases hs.symm.trans hs'
      · cases hs.symm.trans hs'
        subst hpos
        exact charted_applied h.charted hlength hsent (hends.afterApplied happlied.log) hdown

/-- A step of the coordinator. -/
lemma Gauged.advances (h : s.Gauged length) (howned : s.Owned) (hplain : s.Plain)
    (hadv : Advances s s') : s'.client.pool.isDown = true ∨ ∃ length', s'.Gauged length' := by
  cases hadv with
  | idles hat hc hat' =>
    refine .inr ⟨length, h.between (by simp [hat]) rfl rfl rfl ?_⟩
    rintro r p a o hs
    dsimp only at hs
    subst hs
    cases hat'
  | stops hcond hset hd =>
    refine hcond.imp hd.trans fun hnone => ?_
    have hat : s.atHand = none := by
      rw [duties] at hnone
      exact Option.toList_eq_nil_iff.1 (List.append_eq_nil_iff.1 hnone).1
    exact ⟨length, h.between (by simp [hat]) rfl rfl rfl (by rintro _ _ _ _ ⟨⟩)⟩
  | attempts htake heff =>
    obtain ⟨-, hlog⟩ := hplain.attempt howned htake heff
    rw [client_attempt]
    exact (h.attempt htake hlog (htake.view_attempt heff)).imp_right fun hg => ⟨length, hg⟩
  | concludes hs hj hset =>
    exact .inr ⟨s.log.length, h.charted_conclude hs, .inl rfl, by rintro _ _ _ _ _ ⟨⟩⟩
  | pauses hs hj =>
    rename_i r p a o delay next schedule
    refine .inr ⟨length, h.charted, ?_, by rintro _ _ _ _ _ ⟨⟩⟩
    refine h.log.imp_right ?_
    rintro ⟨pos, msg, happlied, hpos, hlength⟩
    refine ⟨pos, msg, ⟨happlied.log, .inl ?_⟩, hpos, hlength⟩
    obtain ⟨q, a', stage, hs', -⟩ | ⟨q, a', o', hs', hsent⟩ := happlied.sent
    · cases hs.symm.trans hs'
    · cases hs.symm.trans hs'
      exact ⟨p, _, _, rfl, rfl, hsent⟩
  | answers hs hd hq hans hset =>
    obtain ⟨pos, msg, rfl, hcheck⟩ := answerLocally_some hans
    refine .inr ⟨length, h.between ?_ (LogView.tail_check hcheck) rfl rfl (by rintro _ _ _ _ ⟨⟩)⟩
    simp [atHand, hs]

/-- Along every run in which nobody else writes. -/
lemma gauged_of_runs {config : ClientConfig} {node : ScriptedNode} (hn : node.scripts = [])
    (h : Runs ScriptedNode.Steady (fresh config ScriptedNode.remote node) s) :
    s.client.pool.isDown = true ∨ ∃ length, s.Gauged length := by
  suffices hs : s.Plain ∧ (s.client.pool.isDown = true ∨ ∃ length, s.Gauged length) from hs.2
  refine h.invariant
    (P := fun s => s.Plain ∧ (s.client.pool.isDown = true ∨ ∃ length, s.Gauged length))
    ⟨plain_fresh config hn, .inr ⟨node.node.log.length, nofun, .inl rfl, by rintro _ _ _ _ _ ⟨⟩⟩⟩ ?_
  rintro s s' howned ⟨hplain, hs⟩ hh
  refine ⟨hplain.happens howned (fun _ _ hm => hm.1) hh, ?_⟩
  have haside : s.Aside s' → s'.log = s.log →
      s'.client.pool.isDown = true ∨ ∃ length, s'.Gauged length := fun ha hlog =>
    hs.imp ha.isDown fun ⟨length, hg⟩ => ⟨length, hg.aside ha hlog⟩
  cases hh with
  | advances hadv =>
    obtain hdown | ⟨length, hg⟩ := hs
    · exact .inl (hadv.isDown.trans hdown)
    · exact hg.advances howned hplain hadv
  | aside ha hn => exact haside ha (hplain.browses hn).2
  | moves ha hn => exact haside ha hn.2

/-- In its next step the coordinator rejects a write as out of order, and does not ask the node. -/
structure TurnsDown (s : LocalSituation) (pos : MessageIndex) (msg : Message) (p : Id)
    (expected : Option MessageIndex) (got : MessageIndex) : Prop where
  asked : (p, Ask.sequence (.write pos msg)) ∈ s.asked
  waiting : s.client.promises.outcome? p = none
  rejected : s.advance.client.promises.outcome? p = some (.error (.outOfOrder expected got))
  unasked : s.advance.journal = s.journal

variable {p : Id} {expected : Option MessageIndex} {got : MessageIndex}

/-- It does so between requests, for the view says so. -/
lemma TurnsDown.check (h : s.TurnsDown pos msg p expected got) (howned : s.Owned) :
    s.stance = .taking ∧ s.client.pool.isDown = false ∧
      ∃ t, s.client.coordinator.view.tail = some t ∧ t.next < pos ∧ expected = some t.next ∧
        got = pos := by
  have hwaiting := h.waiting
  have hrejected := h.rejected
  have hunasked := h.unasked
  have hadv := howned.advances
  generalize s.advance = s' at hadv hrejected hunasked
  cases hadv with
  | idles => cases hwaiting.symm.trans hrejected
  | stops _ hset =>
    by_cases hmem : p ∈ s.duties.map Prod.snd
    · cases (hset.outcome p hmem).symm.trans hrejected
    · cases ((hset.outcome?_of_notMem hmem).trans hwaiting).symm.trans hrejected
  | attempts _ heff =>
    -- an attempt leaves its trace in the journal
    cases heff <;> exact absurd hunasked (List.cons_ne_self _ _)
  | concludes => exact absurd hunasked (List.cons_ne_self _ _)
  | pauses => cases hwaiting.symm.trans hrejected
  | answers hs hd hq hans hset =>
    rename_i r q queue o coordinator _ _ _ _ _ _
    by_cases hpq : p ∈ [q]
    · obtain rfl := List.mem_singleton.1 hpq
      have hduty : (r, p) ∈ s.duties := by
        rw [duties_taking hs, hq]
        exact List.mem_cons_self
      obtain rfl := howned.request_eq hduty h.asked
      obtain ⟨pos', msg', he, hcheck⟩ := answerLocally_some hans
      cases he
      have ho : o = .error (.outOfOrder expected got) := by
        have ho := Option.some.inj ((hset.outcome p hpq).symm.trans hrejected)
        cases o with
        | ok u => cases ho
        | error e =>
          cases ho
          rfl
      exact ⟨hs, hd, LogView.check_outOfOrder hcheck ho⟩
    · cases ((hset.outcome?_of_notMem hpq).trans hwaiting).symm.trans hrejected

/-- **When the coordinator knows the end of the log.** Let nobody else append to the log, and let
the coordinator reject a write as out of order without asking the node. The position that it reports
is the length of the log, and the node would reject the write in the same way if it holds the lease,
exactly if the coordinator was told of the end of the log since it last had to forget it. -/
theorem turned_down_rightly_iff {config : ClientConfig} {node : ScriptedNode}
    (hn : node.scripts = [])
    (h : Runs ScriptedNode.Steady (fresh config ScriptedNode.remote node) s)
    (hd : s.TurnsDown pos msg p expected got) :
    (∃ e, expected = some e ∧ e.toNat = s.log.length ∧
        (MemoryNode.applyWrite { s.client.node.node with leaseHeld := true } pos msg).1 =
          .error (.outOfOrder expected got)) ↔
      anchored s.journal = true := by
  obtain ⟨hs, hup, t, htail, hlt, rfl, rfl⟩ := hd.check (owned_of_runs h)
  obtain hdown | ⟨length, hg⟩ := gauged_of_runs hn h
  · cases hup.symm.trans hdown
  have hlength := hg.length_eq (by simp [atHand, hs])
  have hcharted := hg.charted
  rw [htail, ← hlength] at hcharted
  obtain ⟨-, htold⟩ := hcharted
  have hnext : t.next.toNat = t.toNat + 1 := by
    have hsat := t.toNat_next
    have hword := got.toNat_lt
    rw [MessageIndex.lt_def] at hlt
    omega
  -- the coordinator reports the position after its tail
  rw [htold]
  constructor
  · rintro ⟨e, he, hlen, -⟩
    cases he
    exact hnext.symm.trans hlen
  · intro hlast
    have hlen : t.next.toNat = s.log.length := hnext.trans hlast
    refine ⟨t.next, rfl, hlen, ?_⟩
    have hlog : s.log.length < got.toNat := by
      rw [← hlen]
      exact hlt
    have hword : MessageIndex.ofNat s.log.length = t.next := by
      rw [← hlen, MessageIndex.ofNat_toNat]
    rw [← hword]
    exact MemoryNode.applyWrite_beyond { s.client.node.node with leaseHeld := true } got msg rfl
      hlog

/-! ## Two coordinators that are turned to -/

/-- A client of a node with three messages, right after it was asked for two writes and has started
on the first. -/
def asking (pos pos' : Nat) : LocalSituation :=
  (fresh {} ScriptedNode.remote
      { node := { leaseHeld := true, log := [.sample 0, .sample 1, .sample 2] } }).afterAll
    [.order .start, .ask (.sequence (.write (.ofNat pos) (.sample 0))),
      .ask (.sequence (.write (.ofNat pos') (.sample 3))), .advance, .advance, .advance]

lemma runs_asking (pos pos' : Nat) :
    Runs ScriptedNode.Steady
      (fresh {} ScriptedNode.remote
        { node := { leaseHeld := true, log := [.sample 0, .sample 1, .sample 2] } })
      (asking pos pos') :=
  runs_afterAll rfl _

/-- Told that the log ends after three messages, the coordinator turns down what is beyond. -/
theorem turned_down_rightly_asking :
    (asking 7 9).TurnsDown (.ofNat 9) (.sample 3) ⟨1⟩ (some (.ofNat 3)) (.ofNat 9) ∧
      ∃ e, some (MessageIndex.ofNat 3) = some e ∧ e.toNat = (asking 7 9).log.length ∧
        (MemoryNode.applyWrite { (asking 7 9).client.node.node with leaseHeld := true } (.ofNat 9)
          (.sample 3)).1 = .error (.outOfOrder (some (.ofNat 3)) (.ofNat 9)) := by
  have hd : (asking 7 9).TurnsDown (.ofNat 9) (.sample 3) ⟨1⟩ (some (.ofNat 3)) (.ofNat 9) :=
    ⟨List.mem_cons_self, rfl, rfl, rfl⟩
  exact ⟨hd, (turned_down_rightly_iff rfl (runs_asking 7 9) hd).2 rfl⟩

/-- After an old message was written again, the coordinator turns down the very next position. -/
theorem not_rightly_of_turned_down :
    ¬∀ (config : ClientConfig) (node : ScriptedNode) (s : LocalSituation) (pos : MessageIndex)
      (msg : Message) (p : Id) (expected : Option MessageIndex) (got : MessageIndex),
      node.scripts = [] → Runs ScriptedNode.Steady (fresh config ScriptedNode.remote node) s →
      s.TurnsDown pos msg p expected got →
      ∃ e, expected = some e ∧ e.toNat = s.log.length ∧
        (MemoryNode.applyWrite { s.client.node.node with leaseHeld := true } pos msg).1 =
          .error (.outOfOrder expected got) := by
  intro hclaim
  obtain ⟨e, he, hlen, -⟩ := hclaim _ _ (asking 0 3) (.ofNat 3) (.sample 3) ⟨1⟩ (some (.ofNat 1))
    (.ofNat 3) rfl (runs_asking 0 3) ⟨List.mem_cons_self, rfl, rfl, rfl⟩
  cases he
  exact absurd hlen (by decide)

end Situation

end ConsensusLink
