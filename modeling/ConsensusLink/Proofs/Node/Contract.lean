import ConsensusLink.Proofs.Client.Debts
/-!
# What a node in memory does to its log

The log of a node in memory is changed by writes alone, and a write changes it in one way only: it
appends its message, and only at the position right after the log. `WriteReply` lists the replies
that the node can give to a write, each with the log before and the log after. A call that a
scripted node was given no script for goes to the node in memory.
-/

namespace ConsensusLink

open Relation Client

/-- How a node words that a write was applied without being acknowledged. -/
def lostReply : String := "write response lost"

/-- The contract of a write of `msg` at `pos`: the replies that the node can give when its log is
`log`, with the log after. -/
inductive WriteReply (pos : MessageIndex) (msg : Message) (log : List Message) :
    Outcome Unit → List Message → Prop
  /-- Another node holds the lease. -/
  | refused : WriteReply pos msg log (.error .notChosenSequencer) log
  /-- The call failed before it was served. -/
  | failed {reason} (hr : reason ≠ lostReply) :
      WriteReply pos msg log (.error (.transport reason)) log
  /-- The log holds the message at the position already. -/
  | again {o} (h : log[pos.toNat]? = some msg)
      (ho : o = .ok () ∨ o = .error (.transport lostReply)) : WriteReply pos msg log o log
  /-- The message is appended. -/
  | appended {o} (h : pos.toNat = log.length)
      (ho : o = .ok () ∨ o = .error (.transport lostReply)) :
      WriteReply pos msg log o (log ++ [msg])
  /-- The log holds another message at the position. -/
  | conflicts {other} (h : log[pos.toNat]? = some other) (hne : other ≠ msg) :
      WriteReply pos msg log (.error (.conflictingWrite pos)) log
  /-- The position is beyond the one after the log. -/
  | beyond (h : log.length < pos.toNat) :
      WriteReply pos msg log (.error (.outOfOrder (some (.ofNat log.length)) pos)) log

/-- What the attempts of a write can still end with once one of them was applied. The node does not
contradict itself, but it may have lost the lease. -/
inductive AfterApplied : Outcome Unit → Prop
  | ok : AfterApplied (.ok ())
  | transient {e : Failure} (h : e.isTransient = true) : AfterApplied (.error e)
  | refused : AfterApplied (.error .notChosenSequencer)
  | shutDown : AfterApplied (.error .shutDown)

/-- The results of an attempt of a write: there may be no reply, and then nothing was written. -/
inductive WriteEnds (pos : MessageIndex) (msg : Message) (log : List Message) :
    Outcome Unit → List Message → Prop
  /-- The node was not asked, or did not reply in time. -/
  | unanswered {e} (he : e = .timeout ∨ e = .overloaded ∨ e = .shutDown) :
      WriteEnds pos msg log (.error e) log
  /-- The node replied. -/
  | replied {o log'} (h : WriteReply pos msg log o log') : WriteEnds pos msg log o log'

section

variable {pos : MessageIndex} {msg : Message} {log log' : List Message} {o : Outcome Unit}

lemma WriteReply.ne_shutDown (h : WriteReply pos msg log o log') : o ≠ .error .shutDown := by
  rintro rfl
  cases h with
  | again _ ho => obtain ho | ho := ho <;> cases ho
  | appended _ ho => obtain ho | ho := ho <;> cases ho

lemma WriteEnds.log_grows (h : WriteEnds pos msg log o log') : log <+: log' := by
  cases h with
  | unanswered => exact List.prefix_refl _
  | replied h =>
    cases h with
    | appended => exact List.prefix_append _ _
    | _ => exact List.prefix_refl _

/-- An attempt changes the log in one way only, and may fail to say so. -/
lemma WriteEnds.appended (h : WriteEnds pos msg log o log') (hne : log' ≠ log) :
    pos.toNat = log.length ∧ log' = log ++ [msg] ∧
      (o = .ok () ∨ o = .error (.transport lostReply)) := by
  cases h with
  | unanswered => exact absurd rfl hne
  | replied h =>
    cases h with
    | appended hpos ho => exact ⟨hpos, rfl, ho⟩
    | _ => exact absurd rfl hne

/-- Once the message is in the log an attempt cannot be turned down for what the log holds. -/
lemma WriteEnds.afterApplied (h : WriteEnds pos msg log o log')
    (hlog : log'[pos.toNat]? = some msg) : AfterApplied o := by
  have hacknowledged : o = .ok () ∨ o = .error (.transport lostReply) → AfterApplied o := by
    rintro (rfl | rfl)
    · exact .ok
    · exact .transient rfl
  cases h with
  | unanswered he =>
    rcases he with rfl | rfl | rfl
    · exact .transient rfl
    · exact .transient rfl
    · exact .shutDown
  | replied h =>
    cases h with
    | refused => exact .refused
    | failed => exact .transient rfl
    | again _ ho => exact hacknowledged ho
    | appended _ ho => exact hacknowledged ho
    | conflicts hother hne => exact absurd (Option.some.inj (hother.symm.trans hlog)) hne
    | beyond hlt =>
      obtain ⟨hlt', -⟩ := List.getElem?_eq_some_iff.1 hlog
      exact absurd hlt (Nat.lt_asymm hlt')

/-- A lost reply at the end of the log means that the message was appended. -/
lemma WriteEnds.log_of_lostReply (h : WriteEnds pos msg log (.error (.transport lostReply)) log')
    (hpos : pos.toNat = log.length) : log' = log ++ [msg] := by
  generalize ho : (Except.error (.transport lostReply) : Outcome Unit) = o at h
  cases h with
  | unanswered he => rcases he with rfl | rfl | rfl <;> cases ho
  | replied h =>
    cases h with
    | failed hr =>
      cases ho
      exact absurd rfl hr
    | again hlog =>
      obtain ⟨hlt, -⟩ := List.getElem?_eq_some_iff.1 hlog
      exact absurd hlt (by omega)
    | appended => rfl
    | refused | conflicts | beyond => cases ho

end

namespace MemoryNode

variable (n : MemoryNode) (pos : MessageIndex) (msg : Message)

lemma acknowledge_cases (n : MemoryNode) :
    ((applyWrite.acknowledge n).1 = .ok () ∨
      (applyWrite.acknowledge n).1 = .error (.transport lostReply)) ∧
    (applyWrite.acknowledge n).2.log = n.log := by
  unfold applyWrite.acknowledge
  split
  · exact ⟨.inr rfl, rfl⟩
  · exact ⟨.inl rfl, rfl⟩

lemma applyWrite_reply :
    WriteReply pos msg n.log (n.applyWrite pos msg).1 (n.applyWrite pos msg).2.log := by
  unfold applyWrite
  split
  · exact .refused
  · split
    · rename_i logged hlog
      split
      · rename_i he
        obtain ⟨ho, hl⟩ := acknowledge_cases n
        rw [hl]
        exact .again (he ▸ hlog) ho
      · rename_i hne
        exact .conflicts hlog hne
    · -- there is no message at the position yet
      rename_i hlog
      have hle := List.getElem?_eq_none_iff.1 hlog
      split
      · rename_i he
        obtain ⟨ho, hl⟩ := acknowledge_cases { n with log := n.log ++ [msg] }
        rw [hl]
        exact .appended he ho
      · rename_i hne
        exact .beyond (by omega)

/-- With the lease, the node turns down what is beyond the position after its log. -/
lemma applyWrite_beyond (hlease : n.leaseHeld = true) (h : n.log.length < pos.toNat) :
    (n.applyWrite pos msg).1 = .error (.outOfOrder (some (.ofNat n.log.length)) pos) := by
  have hnone : n.log[pos.toNat]? = none := List.getElem?_eq_none_iff.2 (Nat.le_of_lt h)
  have hne : pos.toNat ≠ n.log.length := by omega
  unfold applyWrite
  simp only [hlease, Bool.not_true, Bool.false_eq_true, if_false, hnone, hne]

/-- A call that the node answers: a write, or anything that leaves the log alone. -/
lemma answer_write {o : Outcome Answer} {n' : MemoryNode}
    (h : n.answer (.write pos msg) = (o, n')) :
    WriteReply pos msg n.log (o.map fun _ => ()) n'.log := by
  unfold answer at h
  split at h
  · have hend := applyWrite_reply n pos msg
    rw [serve] at h
    generalize n.applyWrite pos msg = r at h hend
    obtain ⟨rfl, rfl⟩ := Prod.mk.inj h
    rcases r with ⟨e | u, n'⟩
    · exact hend
    · exact hend
  · obtain ⟨rfl, rfl⟩ := Prod.mk.inj h
    have hne : "injected " ++ CallKind.write.label ++ " failure" ≠ lostReply := by decide
    exact .failed hne

lemma log_answer {call : Call} (hcall : ∀ pos msg, call ≠ .write pos msg) :
    (n.answer call).2.log = n.log := by
  unfold answer
  split
  · cases call with
    | write pos msg => exact absurd rfl (hcall pos msg)
    | _ => rfl
  · rfl

end MemoryNode

namespace ScriptedNode

/-- How the node may change while nobody calls it: anything may happen, but messages stay in the
log. -/
def Grows (n n' : ScriptedNode) : Prop := n'.scripts = [] ∧ n.node.log <+: n'.node.log

variable {s s' : ScriptedNode} {call : Call} {now : Nat} {start : Option Phase}
  {progress : CallProgress Phase}

/-- A call of a node without scripts waits at the node in memory or is answered by it. -/
lemma goes_cases (hs : s.scripts = []) (hstart : ∀ phase, start = some phase → phase = .atNode)
    (h : remote.Goes call now start s progress s') :
    s'.scripts = [] ∧
      ((∃ ms, progress = .waits ms .atNode ∧ s'.node.log = s.node.log) ∨
        ∃ (n : MemoryNode) (o : Outcome Answer),
          n.log = s.node.log ∧ n.answer call = (o, s'.node) ∧ progress = .ends o) := by
  cases h with
  | begun hb =>
    have hnext : ∀ record, nextReply { s with record } call.topic = (none, { s with record }) := by
      intro record
      rw [nextReply, hs]
      rfl
    simp only [remote, hnext, atNode] at hb
    split at hb
    · obtain ⟨rfl, rfl⟩ := Prod.mk.inj hb
      exact ⟨hs, .inr ⟨s.node.arrive call.kind, _, rfl, rfl, rfl⟩⟩
    · obtain ⟨rfl, rfl⟩ := Prod.mk.inj hb
      exact ⟨hs, .inl ⟨_, rfl, rfl⟩⟩
  | resumed hr =>
    rename_i phase
    obtain rfl := hstart phase rfl
    obtain ⟨rfl, rfl⟩ := Prod.mk.inj hr
    exact ⟨hs, .inr ⟨s.node, _, rfl, rfl, rfl⟩⟩

lemma log_atNode (hcall : ∀ pos msg, call ≠ .write pos msg) (s : ScriptedNode) :
    (s.atNode call).2.scripts = s.scripts ∧ (s.atNode call).2.node.log = s.node.log := by
  unfold atNode
  dsimp only
  split
  · exact ⟨rfl, MemoryNode.log_answer _ hcall⟩
  · exact ⟨rfl, rfl⟩

/-- Calls that write nothing leave the log alone, wherever they wait. -/
lemma log_of_goes (hcall : ∀ pos msg, call ≠ .write pos msg) (hs : s.scripts = [])
    (h : remote.Goes call now start s progress s') :
    s'.scripts = [] ∧ s'.node.log = s.node.log := by
  cases h with
  | begun hb =>
    have hgo := goes_cases hs (by simp) (.begun hb)
    refine ⟨hgo.1, ?_⟩
    obtain ⟨ms, -, hlog⟩ | ⟨n, o, hlog, hans, -⟩ := hgo.2
    · exact hlog
    · have hsame := n.log_answer hcall
      rw [hans, hlog] at hsame
      exact hsame
  | resumed hr =>
    rename_i phase
    cases phase with
    | atNode =>
      obtain ⟨rfl, rfl⟩ := Prod.mk.inj hr
      exact ⟨hs, MemoryNode.log_answer _ hcall⟩
    | scripted finish =>
      cases finish with
      | proceed =>
        -- only now the call gets to the node
        obtain ⟨hscripts, hlog⟩ := log_atNode hcall s
        rw [show s.atNode call = (progress, s') from hr] at hscripts hlog
        exact ⟨hscripts.trans hs, hlog⟩
      | answer result =>
        obtain ⟨rfl, rfl⟩ := Prod.mk.inj hr
        exact ⟨hs, rfl⟩
      | breaks =>
        obtain ⟨rfl, rfl⟩ := Prod.mk.inj hr
        exact ⟨hs, rfl⟩

lemma log_of_browses (hs : s.scripts = []) (h : remote.Browses s s') :
    s'.scripts = [] ∧ s'.node.log = s.node.log := by
  induction h with
  | refl => exact ⟨hs, rfl⟩
  | tail _ hgo ih =>
    obtain ⟨call, _, _, _, hread, hgo⟩ := hgo
    have hcall : ∀ pos msg, call ≠ .write pos msg := by
      rintro pos msg rfl
      cases hread
    obtain ⟨hscripts, hlog⟩ := log_of_goes hcall ih.1 hgo
    exact ⟨hscripts, hlog.trans ih.2⟩

end ScriptedNode

end ConsensusLink
