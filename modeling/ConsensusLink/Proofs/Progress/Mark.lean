import ConsensusLink.Proofs.Progress.Queries
import Mathlib.Data.List.Nodup
/-!
# The finality mark in two halves

A query of the finalized count records its answer with the observations and then moves the finality
mark; a new session forgets the observations and then takes the mark away. As long as both halves
fall into one turn the mark is what was recorded last (`isCurrent_of_runs`). If operations of
several threads interleave, others may have their halves in between. A `Relay` keeps the changes
that were made with a first half and are due to be written to the mark with the second.
`mark_recorded_iff` says when the mark is right once nothing is due: unless the change that was
written last had been overtaken, while it was due, by the one that was made last.
-/

namespace ConsensusLink

open Promise Relation

/-- A query of a count that is under way. -/
structure Inquiry where
  /-- Its promise. -/
  promise : Id
  /-- The count. -/
  counter : Counter
  /-- Its ticket. -/
  ticket : Ticket
deriving DecidableEq

/-- What the first half of an operation has changed of the finalized count. -/
inductive Change where
  /-- A query has recorded its answer. -/
  | recorded (query : Inquiry) (value : MessageIndex)
  /-- A session was started, and what was recorded is forgotten. -/
  | started (session : Nat)
deriving DecidableEq

namespace Change

/-- The finalized count as it is recorded since. -/
def value : Change → Option MessageIndex
  | recorded _ v => some v
  | started _ => none

/-- The session of the operation. -/
def session : Change → Nat
  | recorded q _ => q.ticket.session
  | started n => n

/-- The second half of the operation. -/
def write : Change → Tracker → Tracker
  | recorded _ v, t => t.publish v
  | started _, t => t.clearFinality

@[simp] lemma finality_write (c : Change) (t : Tracker) : (c.write t).finality = c.value := by
  cases c with
  | recorded q v =>
    obtain ⟨_, h⟩ := t.publish_eq v
    rw [write, h]
    rfl
  | started n => rfl

/-- The second half does not touch what the first half is about. -/
@[simp] lemma observations_write (c : Change) (t : Tracker) :
    (c.write t).observations = t.observations := by
  cases c with
  | recorded q v =>
    obtain ⟨_, h⟩ := t.publish_eq v
    rw [write, h]
  | started n => rfl

@[simp] lemma pending?_write (c : Change) (t : Tracker) (k : Counter) :
    (c.write t).pending? k = t.pending? k := by
  cases c with
  | recorded q v =>
    obtain ⟨_, h⟩ := t.publish_eq v
    rw [write, h]
    rfl
  | started n => rfl

end Change

/-- The counts while operations are between their halves. -/
structure Relay where
  /-- The counts. -/
  tracker : Tracker := {}
  /-- The queries without an answer. -/
  underWay : List Inquiry := []
  /-- The changes that have still to be written to the mark. -/
  due : List Change := []
  /-- The change that was made last. -/
  last : Option Change := none
  /-- The changes that were due when it was made. -/
  behind : List Change := []
  /-- The change that was written last. -/
  written : Option Change := none

namespace Relay

/-- A promise that is not that of a query between issue and publication. -/
def Idle (r : Relay) (p : Id) : Prop :=
  (∀ q ∈ r.underWay, q.promise ≠ p) ∧ ∀ q v, .recorded q v ∈ r.due → q.promise ≠ p

/-- A query is issued, and noted to be under way. -/
def ask (r : Relay) (k : Counter) (p : Id) : Relay :=
  { r with
    tracker := r.tracker.issue.2.setPending k p
    underWay := ⟨p, k, r.tracker.issue.1⟩ :: r.underWay }

/-- Something has changed, and is due to be written. -/
def make (r : Relay) (c : Change) : Relay :=
  { r with due := c :: r.due, last := some c, behind := r.due }

/-- The first half of what a query does with its answer. -/
def answer (r : Relay) (q : Inquiry) (value : MessageIndex) (now : Nat) : Relay :=
  let (result, tracker) := r.tracker.observe q.counter value q.ticket now
  let r := { r with tracker, underWay := r.underWay.erase q }
  match result with
  | .ok true => if q.counter = .finalized then r.make (.recorded q value) else r
  | _ => r

/-- The first half of the start of a session. -/
def start (r : Relay) : Relay :=
  { r with tracker := r.tracker.forget }.make (.started r.tracker.forget.observations.session)

/-- The second half of an operation. -/
def write (r : Relay) (c : Change) : Relay :=
  { r with tracker := c.write r.tracker, due := r.due.erase c, written := some c }

/-- What can happen next, to any of the operations. -/
inductive Step (r : Relay) : Relay → Prop
  | asks {k p} (hp : r.Idle p) (hfree : r.tracker.pending? k = none) : Step r (r.ask k p)
  | fails {q} (hq : q ∈ r.underWay) : Step r { r with underWay := r.underWay.erase q }
  | answers {q} (value now) (hq : q ∈ r.underWay) : Step r (r.answer q value now)
  | starts : Step r r.start
  | writes {c} (hc : c ∈ r.due) : Step r (r.write c)
  /-- It is noted that a query is not under way any more. -/
  | ends {k p} (hp : r.Idle p) : Step r { r with tracker := r.tracker.clearPending k p }

/-- Operations in any order. -/
def Runs : Relay → Relay → Prop := ReflTransGen Step

/-- The finalized count last recorded in the current session. -/
def recorded? (r : Relay) : Option MessageIndex := r.tracker.observations.value? .finalized

/-- The number of the current session. -/
def session (r : Relay) : Nat := r.tracker.observations.session

variable {r r' : Relay}

/-- An answer is recorded, which is a change if it is the finalized count, or nothing comes of it.
-/
lemma answer_cases (r : Relay) (q : Inquiry) (value : MessageIndex) (now : Nat) :
    let observations := r.tracker.observations.record q.counter value q.ticket now
    let left := { r with underWay := r.underWay.erase q }
    (r.tracker.observations.Passes q.counter value q.ticket ∧ q.counter = .finalized ∧
        r.answer q value now =
          { left with tracker := { r.tracker with observations } }.make (.recorded q value)) ∨
      (q.counter ≠ .finalized ∧
        r.answer q value now = { left with tracker := { r.tracker with observations } }) ∨
      r.answer q value now = left := by
  obtain ⟨hpasses, he⟩ | ⟨-, he⟩ | ⟨-, -, e, he⟩ :=
    r.tracker.observations.observe_cases q.counter value q.ticket now
  · simp only [answer, Tracker.observe, he]
    split
    · rename_i hk
      exact .inl ⟨hpasses, hk, rfl⟩
    · rename_i hk
      exact .inr (.inl ⟨hk, rfl⟩)
  · simp only [answer, Tracker.observe, he]
    exact .inr (.inr trivial)
  · simp only [answer, Tracker.observe, he]
    exact .inr (.inr trivial)

/-! ## Changes and the mark -/

/-- How the changes bear on what was recorded and on the mark. -/
structure Tracks (r : Relay) : Prop where
  recorded : r.recorded? = r.last.bind Change.value
  mark : r.tracker.finality = r.written.bind Change.value
  /-- What is due was made last, or was due then already. -/
  due : ∀ c ∈ r.due, r.last = some c ∨ c ∈ r.behind
  /-- What was made last is written last, is due, or was overtaken by what is written last. -/
  written : r.written = r.last ∨ (∃ c ∈ r.due, r.last = some c) ∨ ∃ c ∈ r.behind, r.written = some c
  behind : r.last = none → r.behind = []

lemma tracks_empty : Tracks {} := ⟨rfl, rfl, nofun, .inl rfl, fun _ => rfl⟩

/-- Whether a query is answered or given up makes no difference. -/
lemma Tracks.congr (h : r.Tracks) (hrecorded : r'.recorded? = r.recorded?)
    (hfinality : r'.tracker.finality = r.tracker.finality) (hdue : r'.due = r.due)
    (hlast : r'.last = r.last) (hbehind : r'.behind = r.behind)
    (hwritten : r'.written = r.written) : r'.Tracks where
  recorded := by rw [hrecorded, hlast, h.recorded]
  mark := by rw [hfinality, hwritten, h.mark]
  due := by rw [hdue, hlast, hbehind]; exact h.due
  written := by rw [hwritten, hlast, hdue, hbehind]; exact h.written
  behind := by rw [hlast, hbehind]; exact h.behind

lemma Tracks.make (h : r.Tracks) {c : Change} {tracker : Tracker} {underWay : List Inquiry}
    (hfinality : tracker.finality = r.tracker.finality)
    (hvalue : tracker.observations.value? .finalized = c.value) :
    (make { r with tracker, underWay } c).Tracks where
  recorded := hvalue
  mark := hfinality.trans h.mark
  due d hd := by
    rcases List.mem_cons.1 hd with rfl | hd
    · exact .inl rfl
    · exact .inr hd
  written := .inr (.inl ⟨c, List.mem_cons_self, rfl⟩)
  behind := nofun

lemma Tracks.write (h : r.Tracks) {c : Change} (hc : c ∈ r.due) : (r.write c).Tracks where
  recorded := by
    rw [recorded?, Relay.write, Change.observations_write]
    exact h.recorded
  mark := c.finality_write r.tracker
  due d hd := h.due d (List.mem_of_mem_erase hd)
  written := by
    obtain hlast | hbehind := h.due c hc
    · exact .inl hlast.symm
    · exact .inr (.inr ⟨c, hbehind, rfl⟩)
  behind := h.behind

lemma Tracks.answer (h : r.Tracks) (q : Inquiry) (value : MessageIndex) (now : Nat) :
    (r.answer q value now).Tracks := by
  obtain ⟨-, hk, he⟩ | ⟨hk, he⟩ | he := r.answer_cases q value now
  · rw [he]
    refine h.make rfl ?_
    rw [Observations.value?, hk, Observations.latest_record_self]
    rfl
  · rw [he]
    refine h.congr ?_ rfl rfl rfl rfl rfl
    rw [recorded?, Observations.value?, Observations.latest_record_of_ne (Ne.symm hk)]
    rfl
  · rw [he]
    exact h.congr rfl rfl rfl rfl rfl rfl

lemma Tracks.step (h : r.Tracks) (hstep : Step r r') : r'.Tracks := by
  cases hstep with
  | asks => exact h.congr rfl rfl rfl rfl rfl rfl
  | fails => exact h.congr rfl rfl rfl rfl rfl rfl
  | answers value now => exact h.answer _ value now
  | starts => exact h.make rfl rfl
  | writes hc => exact h.write hc
  | @ends k p =>
    have hfrees := Client.frees_clearPending r.tracker k p
    exact h.congr (congrArg (·.value? .finalized) hfrees.observations) hfrees.finality rfl rfl rfl
      rfl

/-! ## Sessions -/

/-- The queries of the current session are noted to be under way until their changes are written, so
that a query of the finalized count is the only one of its session. -/
structure Gated (r : Relay) : Prop where
  nodup : (r.underWay.map Inquiry.promise).Nodup
  apart : ∀ q ∈ r.underWay, ∀ q' v, .recorded q' v ∈ r.due → q'.promise ≠ q.promise
  underWay : ∀ q ∈ r.underWay, q.ticket.session = r.session →
    r.tracker.pending? q.counter = some q.promise
  publishing : ∀ q v, .recorded q v ∈ r.due → q.ticket.session = r.session →
    r.tracker.pending? .finalized = some q.promise
  issued : ∀ q ∈ r.underWay, q.ticket.session ≤ r.session
  made : ∀ c ∈ r.due, c.session ≤ r.session
  /-- What was due when the last change was made is of an earlier session, or is the start of the
  session. -/
  earlier : ∀ w ∈ r.behind, ∀ c, r.last = some c → w.session < c.session ∨ w = .started c.session

lemma gated_empty : Gated {} where
  nodup := List.nodup_nil
  apart _ hq := nomatch hq
  underWay _ hq := nomatch hq
  publishing _ _ hq := nomatch hq
  issued _ hq := nomatch hq
  made _ hc := nomatch hc
  earlier _ hw := nomatch hw

/-- Less is under way, and less is due. -/
lemma Gated.mono (h : r.Gated) (hunderWay : r'.underWay.Sublist r.underWay)
    (hdue : r'.due.Sublist r.due) (hsession : r'.session = r.session)
    (hpending : ∀ k p, ¬r'.Idle p → r.tracker.pending? k = some p →
      r'.tracker.pending? k = some p)
    (hlast : r'.last = r.last) (hbehind : r'.behind = r.behind) : r'.Gated where
  nodup := h.nodup.sublist (hunderWay.map _)
  apart q hq q' v hq' := h.apart q (hunderWay.subset hq) q' v (hdue.subset hq')
  underWay q hq hs :=
    hpending _ _ (fun hidle => hidle.1 q hq rfl)
      (h.underWay q (hunderWay.subset hq) (hs.trans hsession))
  publishing q v hq hs :=
    hpending _ _ (fun hidle => hidle.2 q v hq rfl)
      (h.publishing q v (hdue.subset hq) (hs.trans hsession))
  issued q hq := hsession ▸ h.issued q (hunderWay.subset hq)
  made c hc := hsession ▸ h.made c (hdue.subset hc)
  earlier := by rw [hlast, hbehind]; exact h.earlier

lemma Gated.ask (h : r.Gated) {k : Counter} {p : Id} (hp : r.Idle p)
    (hfree : r.tracker.pending? k = none) : (r.ask k p).Gated := by
  have hnoted : ∀ {k' q}, r.tracker.pending? k' = some q →
      (r.ask k p).tracker.pending? k' = some q := by
    intro k' q hq
    have hk : k' ≠ k := by
      rintro rfl
      cases hfree.symm.trans hq
    exact (PerCounter.get_set_of_ne hk _ _).trans hq
  refine ⟨?_, ?_, ?_, fun q v hq hs => hnoted (h.publishing q v hq hs), ?_, h.made, h.earlier⟩
  · refine List.nodup_cons.2 ⟨fun hmem => ?_, h.nodup⟩
    obtain ⟨q, hq, hqp⟩ := List.mem_map.1 hmem
    exact hp.1 q hq hqp
  · intro q hq q' v hq'
    rcases List.mem_cons.1 hq with rfl | hq
    · exact hp.2 q' v hq'
    · exact h.apart q hq q' v hq'
  · intro q hq hs
    rcases List.mem_cons.1 hq with rfl | hq
    · exact PerCounter.get_set_self _ _ _
    · exact hnoted (h.underWay q hq hs)
  · intro q hq
    rcases List.mem_cons.1 hq with rfl | hq
    · exact Nat.le_refl _
    · exact h.issued q hq

/-- Of the queries that are under way none has the promise of the one that is taken out. -/
lemma Gated.promise_ne (h : r.Gated) {q q' : Inquiry} (hq : q ∈ r.underWay)
    (hq' : q' ∈ r.underWay.erase q) : q.promise ≠ q'.promise := by
  intro he
  obtain ⟨hne, hmem⟩ := (List.Nodup.mem_erase_iff (List.Nodup.of_map _ h.nodup)).1 hq'
  exact hne (List.inj_on_of_nodup_map h.nodup hmem hq he.symm)

lemma Gated.answer (h : r.Gated) {q : Inquiry} (hq : q ∈ r.underWay) (value : MessageIndex)
    (now : Nat) : (r.answer q value now).Gated := by
  have hleft : r.underWay.erase q |>.Sublist r.underWay := List.erase_sublist
  obtain ⟨hpasses, hk, he⟩ | ⟨-, he⟩ | he := r.answer_cases q value now
  · have hnoted := h.underWay q hq hpasses.session
    rw [hk] at hnoted
    rw [he]
    refine ⟨h.nodup.sublist (hleft.map _), ?_, fun q' hq' => h.underWay q' (hleft.subset hq'), ?_,
      fun q' hq' => h.issued q' (hleft.subset hq'), ?_, ?_⟩
    · intro q' hq' q'' v hq''
      rcases List.mem_cons.1 hq'' with he | hq''
      · cases he
        exact h.promise_ne hq hq'
      · exact h.apart q' (hleft.subset hq') q'' v hq''
    · intro q' v hq' hs
      rcases List.mem_cons.1 hq' with he | hq'
      · cases he
        exact hnoted
      · exact h.publishing q' v hq' hs
    · intro c hc
      rcases List.mem_cons.1 hc with rfl | hc
      · exact Nat.le_of_eq hpasses.session
      · exact h.made c hc
    · rintro w hw _ ⟨⟩
      obtain hlt | hs := Nat.lt_or_eq_of_le (h.made w hw)
      · exact .inl (Nat.lt_of_lt_of_eq hlt hpasses.session.symm)
      · -- a second query of this session would be noted to be under way in place of this one
        cases w with
        | started n => exact .inr (congrArg Change.started (hs.trans hpasses.session.symm))
        | recorded q' v =>
          have hsame := (h.publishing q' v hw hs).symm.trans hnoted
          exact absurd (Option.some.inj hsame) (h.apart q hq q' v hw)
  · rw [he]
    exact h.mono hleft (List.Sublist.refl _) rfl (fun _ _ _ => id) rfl rfl
  · rw [he]
    exact h.mono hleft (List.Sublist.refl _) rfl (fun _ _ _ => id) rfl rfl

/-- All that is under way or due is of an earlier session than the one that is started. -/
lemma Gated.start (h : r.Gated) : r.start.Gated := by
  have hlater : r.start.session = r.session + 1 := rfl
  refine ⟨h.nodup, ?_, ?_, ?_, fun q hq => Nat.le_succ_of_le (h.issued q hq), ?_, ?_⟩
  · intro q hq q' v hq'
    rcases List.mem_cons.1 hq' with he | hq'
    · cases he
    · exact h.apart q hq q' v hq'
  · intro q hq hs
    exact absurd (hs ▸ h.issued q hq) (Nat.not_succ_le_self _)
  · intro q v hq hs
    rcases List.mem_cons.1 hq with he | hq
    · cases he
    · exact absurd (Nat.le_trans (Nat.le_of_eq hs.symm) (h.made _ hq)) (Nat.not_succ_le_self _)
  · intro c hc
    rcases List.mem_cons.1 hc with rfl | hc
    · exact Nat.le_refl _
    · exact Nat.le_succ_of_le (h.made c hc)
  · rintro w hw _ ⟨⟩
    exact .inl (Nat.lt_succ_of_le (h.made w hw))

lemma Gated.step (h : r.Gated) (hstep : Step r r') : r'.Gated := by
  cases hstep with
  | asks hp hfree => exact h.ask hp hfree
  | fails => exact h.mono List.erase_sublist (List.Sublist.refl _) rfl (fun _ _ _ => id) rfl rfl
  | answers value now hq => exact h.answer hq value now
  | starts => exact h.start
  | @writes c hc =>
    refine h.mono (List.Sublist.refl _) List.erase_sublist ?_ (fun k p _ hp => ?_) rfl rfl
    · rw [session, Relay.write, Change.observations_write, session]
    · rwa [Relay.write, Change.pending?_write]
  | @ends k p hp =>
    have hfrees := Client.frees_clearPending r.tracker k p
    refine h.mono (List.Sublist.refl _) (List.Sublist.refl _)
      (congrArg Observations.session hfrees.observations) (fun k' q hidle hq => ?_) rfl rfl
    refine (hfrees.pending k' q).2 ⟨hq, ?_⟩
    rintro ⟨-, rfl⟩
    exact hidle hp

theorem invariant_of_runs (h : Runs {} r) : r.Tracks ∧ r.Gated := by
  induction h with
  | refl => exact ⟨tracks_empty, gated_empty⟩
  | tail _ hstep ih => exact ⟨ih.1.step hstep, ih.2.step hstep⟩

/-! ## When the mark is right -/

/-- The change that was written last had been overtaken by the one that was made last, which was
made while it was due. -/
structure Overtaken (r : Relay) (w c : Change) : Prop where
  written : r.written = some w
  last : r.last = some c
  behind : w ∈ r.behind

/-- **The mark and what was recorded.** When no operation is between its halves, the mark is the
finalized count last recorded in the current session, if and only if the change that was written
last was not overtaken by one that says something else. Only a change of an earlier session can be
overtaken, or the start of the current one. -/
theorem mark_recorded_iff (h : Runs {} r) (hdue : r.due = []) :
    (r.tracker.finality = r.recorded? ↔ ∀ w c, r.Overtaken w c → w.value = c.value) ∧
      ∀ w c, r.Overtaken w c → w.session < c.session ∨ w = .started c.session := by
  obtain ⟨htracks, hgated⟩ := invariant_of_runs h
  refine ⟨?_, fun w c ho => hgated.earlier w ho.behind c ho.last⟩
  rw [htracks.mark, htracks.recorded]
  constructor
  · intro hmark w c ho
    rwa [ho.written, ho.last] at hmark
  · intro hall
    obtain hsame | ⟨c, hc, -⟩ | ⟨w, hw, hwritten⟩ := htracks.written
    · rw [hsame]
    · rw [hdue] at hc
      cases hc
    · cases hlast : r.last with
      | none =>
        rw [htracks.behind hlast] at hw
        cases hw
      | some c =>
        rw [hwritten]
        exact hall w c ⟨hwritten, hlast, hw⟩

/-! ### Sessions that are started meanwhile -/

/-- A query of the finalized count, issued first of all in a session. -/
def first (session : Nat) : Inquiry := ⟨⟨0⟩, .finalized, ⟨session, 1⟩⟩

/-- A query is issued and answered while the start of its session is between its halves. -/
def resetLate : Relay :=
  ((((({} : Relay).start.ask .finalized ⟨0⟩).answer (first 1) (.ofNat 7) 0).write
    (.recorded (first 1) (.ofNat 7))).write (.started 1))

lemma runs_resetLate : Runs {} resetLate := by
  have hstart : Runs {} ({} : Relay).start := .single .starts
  have hidle : ({} : Relay).start.Idle ⟨0⟩ := ⟨nofun, fun q v hq => nomatch List.mem_singleton.1 hq⟩
  have hask := hstart.tail (.asks (k := .finalized) hidle rfl)
  have hanswer := hask.tail (.answers (q := first 1) (.ofNat 7) 0 (by decide))
  have hwrite := hanswer.tail (.writes (c := .recorded (first 1) (.ofNat 7)) (by decide))
  exact hwrite.tail (.writes (c := .started 1) (by decide))

/-- The reset of the mark comes after the count of the new session was written to it, and takes it
away for good. -/
theorem mark_recorded_iff_resetLate :
    resetLate.due = [] ∧ resetLate.recorded? = some (.ofNat 7) ∧ resetLate.tracker.finality = none ∧
      resetLate.Overtaken (.started 1) (.recorded (first 1) (.ofNat 7)) ∧
      ¬∀ w c, resetLate.Overtaken w c → w.value = c.value := by
  have hdue : resetLate.due = [] := by decide
  have hrecorded : resetLate.recorded? = some (.ofNat 7) := by decide
  have hmark : resetLate.tracker.finality = none := by decide
  refine ⟨hdue, hrecorded, hmark, ⟨by decide, by decide, by decide⟩, fun hall => ?_⟩
  have hsame := (mark_recorded_iff runs_resetLate hdue).1.2 hall
  rw [hmark, hrecorded] at hsame
  cases hsame

/-- A session is started while a query of the one before is between its halves. -/
def publishedLate : Relay :=
  ((((({} : Relay).ask .finalized ⟨0⟩).answer (first 0) (.ofNat 5) 0).start).write
    (.started 1)).write (.recorded (first 0) (.ofNat 5))

lemma runs_publishedLate : Runs {} publishedLate := by
  have hidle : ({} : Relay).Idle ⟨0⟩ := ⟨nofun, nofun⟩
  have hask : Runs {} (({} : Relay).ask .finalized ⟨0⟩) := .single (.asks hidle rfl)
  have hanswer := hask.tail (.answers (q := first 0) (.ofNat 5) 0 (by decide))
  have hstart := hanswer.tail .starts
  have hreset := hstart.tail (.writes (c := .started 1) (by decide))
  exact hreset.tail (.writes (c := .recorded (first 0) (.ofNat 5)) (by decide))

/-- Then the count of the earlier session is left on the mark of the new one, in which nothing was
recorded. -/
theorem not_mark_recorded :
    ¬∀ r, Runs {} r → r.due = [] → r.tracker.finality = r.recorded? := by
  intro hall
  have hmark : publishedLate.tracker.finality = some (.ofNat 5) := by decide
  have hrecorded : publishedLate.recorded? = none := by decide
  have hsame := hall publishedLate runs_publishedLate (by decide)
  rw [hmark, hrecorded] at hsame
  cases hsame

/-! ## Both halves in one turn -/

/-- What a query does with its answer is its first half, and the second if something has changed. -/
lemma tracker_answer (r : Relay) (q : Inquiry) (value : MessageIndex) (now : Nat) :
    ((r.answer q value now).due = r.due ∧
        (r.answer q value now).tracker = (r.tracker.answer q.counter value q.ticket now).2) ∨
      (r.answer q value now).due = .recorded q value :: r.due ∧
        ((r.answer q value now).write (.recorded q value)).tracker =
          (r.tracker.answer q.counter value q.ticket now).2 := by
  obtain ⟨-, he⟩ | ⟨-, he⟩ | ⟨-, -, e, he⟩ :=
    r.tracker.observations.observe_cases q.counter value q.ticket now
  · simp only [Relay.answer, Tracker.answer, Tracker.observe, he]
    by_cases hk : q.counter = .finalized
    · simp only [hk, and_self, if_true]
      exact .inr ⟨rfl, rfl⟩
    · simp only [hk, and_false, if_false]
      exact .inl ⟨trivial, trivial⟩
  · simp only [Relay.answer, Tracker.answer, Tracker.observe, he]
    exact .inl ⟨trivial, rfl⟩
  · simp only [Relay.answer, Tracker.answer, Tracker.observe, he]
    exact .inl ⟨trivial, trivial⟩

/-- The two halves of the start of a session are all of it. -/
lemma tracker_start (r : Relay) :
    (r.start.write (.started r.start.session)).tracker = r.tracker.newSession := rfl

end Relay

/-- The mark is the finalized count last recorded in the current session. -/
def Tracker.IsCurrent (t : Tracker) : Prop := t.finality = t.observations.value? .finalized

namespace Tracker

variable {t t' : Tracker}

lemma IsCurrent.congr (h : t.IsCurrent) (hfinality : t'.finality = t.finality)
    (hobs : t'.observations = t.observations ∨ t'.observations = t.observations.issue.2) :
    t'.IsCurrent := by
  rw [IsCurrent, hfinality, h]
  obtain hobs | hobs := hobs
  · rw [hobs]
  · rw [hobs]
    rfl

lemma isCurrent_newSession (t : Tracker) : t.newSession.IsCurrent := rfl

lemma IsCurrent.answer (h : t.IsCurrent) (c : Counter) (value : MessageIndex) (ticket : Ticket)
    (now : Nat) : (t.answer c value ticket now).2.IsCurrent := by
  obtain ⟨-, -, hobs, hfinality⟩ | ⟨-, he⟩ | ⟨-, -, _, he⟩ := t.answer_cases c value ticket now
  · rw [IsCurrent, hfinality, hobs, Observations.value?]
    split
    · rename_i hc
      rw [hc, Observations.latest_record_self]
      rfl
    · rename_i hc
      rw [Observations.latest_record_of_ne (Ne.symm hc)]
      exact h
  · rw [he]
    exact h
  · rw [he]
    exact h

end Tracker

namespace Situation

open Client

variable {σ φ : Type} {s : Situation σ φ} {moves : σ → σ → Prop}

lemma isCurrent_ask (h : s.client.tracker.IsCurrent) (a : Ask) :
    (s.after (.ask a)).client.tracker.IsCurrent := by
  rw [after]
  by_cases ha : ∃ k, a = .count k
  · obtain ⟨k, rfl⟩ := ha
    have heff := count_effect s.client k
    rw [take]
    generalize s.client.count k = pc at heff
    obtain ⟨p, c⟩ := pc
    dsimp only at heff ⊢
    cases heff with
    | serves => exact h
    | joins => exact h
    | refuses _ _ _ hobs hfinality => exact h.congr hfinality (.inr hobs)
    | queries _ _ _ _ hobs hfinality => exact h.congr hfinality (.inr hobs)
  · have hother : ∀ k, a ≠ .count k := fun k hk => ha ⟨k, hk⟩
    have heff := take_effect s.client a
    generalize s.client.take a = pc at heff
    obtain ⟨p, c⟩ := pc
    dsimp only at heff ⊢
    cases heff with
    | reuses => exact h
    | answers _ _ _ ht => exact ht hother ▸ h
    | submits _ _ _ _ _ ht => exact (ht hother).1 ▸ h
    | queues => exact h

lemma Owned.isCurrent_job (howned : s.Owned) (h : s.client.tracker.IsCurrent) (i : Nat) :
    (s.after (.job i)).client.tracker.IsCurrent := by
  have heff := turn_effect i howned.no_direct
  rw [Situation.after]
  generalize s.client.turn (.task i) = c at heff
  cases heff with
  | stays => exact h
  | service => exact h
  | @job job p stage _ hi heff =>
    have ho : s.client.Owes i job p := ⟨stage, hi⟩
    obtain ⟨_, _, _, _, _, _, _, _, _, _, rfl, -, -, hcase⟩ :=
      heff.outline (howned.jobs_pending i job p ho) (howned.jobs_read i job p ho)
    obtain ⟨-, -, rfl, -⟩ | ⟨-, t, o, hends, hset⟩ := hcase
    · exact h
    · have ht : t.IsCurrent := by
        cases hends with
        | drops => exact h
        | @answers _ result =>
          obtain ⟨k, ticket, v, -, -, -, ht⟩ | ⟨ht, -⟩ := concludeJob_cases s.client job result
          · rw [ht]
            exact h.answer k v ticket s.client.now
          · rw [ht]
            exact h
      exact ht.congr hset.frees.finality (.inl hset.frees.observations)

lemma Owned.isCurrent_after (howned : s.Owned) (h : s.client.tracker.IsCurrent) (e : Event σ) :
    (s.after e).client.tracker.IsCurrent := by
  cases e with
  | ask a => exact isCurrent_ask h a
  | order o =>
    by_cases ho : o = .newSession
    · subst ho
      exact Tracker.isCurrent_newSession _
    · obtain ⟨_, _, _, _, _, _, _, _, hc, -, -, -, ht, -⟩ := obey_eq s.client o
      rw [Situation.after, hc]
      exact ht ho ▸ h
  | job i => exact howned.isCurrent_job h i
  | advance =>
    obtain ⟨-, -, -, _, _, hset, -⟩ := howned.advances_outline howned.advances
    exact h.congr hset.frees.finality (.inl hset.frees.observations)
  | clock schedule => exact h
  | node n => exact h

/-- In a client tasks have their turns one after the other, and the mark is never wrong. -/
theorem isCurrent_of_runs {config : ClientConfig} {remote : Remote σ φ} {node : σ}
    (h : Runs moves (fresh config remote node) s) : s.client.tracker.IsCurrent := by
  induction h with
  | refl => rfl
  | tail hruns hstep ih =>
    obtain ⟨e, -, rfl⟩ := hstep
    exact (owned_of_runs hruns).isCurrent_after ih e

end Situation

end ConsensusLink
