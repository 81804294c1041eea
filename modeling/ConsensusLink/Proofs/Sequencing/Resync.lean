import ConsensusLink.Proofs.Cache.Recency
import ConsensusLink.Sequencer.LogView
/-!
# What is still remembered when the node reports its tail

The node may report that it accepts a position next that was accepted before: it has lost the
writes from there on. The coordinator then takes over the tail, but keeps the record of recent
writes, and goes on to answer these positions by itself. Whether it does is read off what was done
with the view: a position is answered from the record exactly if a write was accepted there before,
the lease was not lost since, fewer other positions than the record has room for were used since the
position was, and the lease need not be confirmed.
-/

namespace ConsensusLink

/-! ## What is done with a view -/

/-- One use of the view of the log. -/
inductive LogOp where
  | check (pos : MessageIndex) (msg : Message)
  | accept (pos : MessageIndex) (msg : Message)
  | resync (expected : Option MessageIndex)
  | loseLease
  | outcomeUnknown
  | probeConfirmed

/-- The view after it. -/
def LogView.after (v : LogView) : LogOp → LogView
  | .check pos msg => (v.check pos msg).2
  | .accept pos msg => v.accept pos msg
  | .resync expected => v.resync expected
  | .loseLease => v.loseLease
  | .outcomeUnknown => v.outcomeUnknown
  | .probeConfirmed => v.probeConfirmed

/-- The message known at a position. -/
def LogOp.noted (pos : MessageIndex) (known : Option Message) : LogOp → Option Message
  | .accept pos' msg => if pos' = pos then some msg else known
  | .loseLease => none
  | _ => known

/-- The message that was accepted last at a position, unless the lease was lost since. -/
def LogOp.accepted? (ops : List LogOp) (pos : MessageIndex) : Option Message :=
  ops.foldl (noted pos) none

/-- A view of the log, with the writes that were accepted or found in the record since the lease was
last lost, the latest first. -/
structure LogUsage where
  view : LogView
  uses : List (MessageIndex × Message)

namespace LogUsage

/-- Nothing was done yet. -/
def fresh (capacity : Nat) : LogUsage := ⟨.empty capacity, []⟩

/-- The writes in use after one more use of the view. -/
def usesAfter (u : LogUsage) : LogOp → List (MessageIndex × Message)
  | .check pos _ =>
    if u.view.probeRequired then u.uses
    else ((u.view.recent.peek? pos).map (pos, ·)).toList ++ u.uses
  | .accept pos msg => (pos, msg) :: u.uses
  | .loseLease => []
  | _ => u.uses

def after (u : LogUsage) (op : LogOp) : LogUsage := ⟨u.view.after op, u.usesAfter op⟩

def afterAll (u : LogUsage) (ops : List LogOp) : LogUsage := ops.foldl after u

/-- The write `msg` was accepted at a position in the first place, the lease was not lost later, and
fewer other positions than the record has room for were used since that one was. -/
structure Retains (u : LogUsage) (capacity : Nat) (before later : List LogOp) (pos : MessageIndex)
    (msg : Message) : Prop where
  accepted : LogOp.accepted? before pos = some msg
  held : .loseLease ∉ later
  recent : (Lru.usedSince u.uses pos).card < max capacity 1

end LogUsage

/-! ## The answers of a view -/

namespace LogView

variable {v : LogView} {pos e : MessageIndex} {msg : Message}

lemma check_eq_ok_iff : (v.check pos msg).1 = some (.ok ()) ↔
    v.probeRequired = false ∧ v.recent.peek? pos = some msg := by
  rw [check, Lru.get?]
  cases v.probeRequired with
  | true => simp
  | false =>
    cases hp : v.recent.peek? pos with
    | some m => by_cases hm : m = msg <;> simp [hm]
    | none =>
      cases v.tail with
      | none => simp
      | some t => by_cases ht : t.next < pos <;> simp [ht]

lemma check_eq_conflicting_iff : (v.check pos msg).1 = some (.error (.conflictingWrite pos)) ↔
    v.probeRequired = false ∧ ∃ m, v.recent.peek? pos = some m ∧ m ≠ msg := by
  rw [check, Lru.get?]
  cases v.probeRequired with
  | true => simp
  | false =>
    cases hp : v.recent.peek? pos with
    | some m => by_cases hm : m = msg <;> simp [hm]
    | none =>
      cases v.tail with
      | none => simp
      | some t => by_cases ht : t.next < pos <;> simp [ht]

/-- The position that the node reports is not out of order. -/
lemma check_resync_eq_none_iff : ((v.resync (some e)).check e msg).1 = none ↔
    (v.resync (some e)).probeRequired = false ∧ (v.resync (some e)).recent.peek? e = none := by
  rw [check, Lru.get?, resync, Option.bind_some]
  cases v.probeRequired with
  | true => simp
  | false =>
    cases hp : v.recent.peek? e with
    | some m => by_cases hm : m = msg <;> simp [hm]
    | none =>
      cases ht : e.prev? with
      | none => simp
      | some t =>
        have hnext : ¬t.next < e := by
          rw [MessageIndex.lt_def, t.toNat_next]
          have := MessageIndex.prev?_eq_some ht
          have := e.toNat_lt
          omega
        simp [hnext]

end LogView

/-! ## What the record holds -/

namespace LogUsage

variable {u : LogUsage} {capacity : Nat} {ops before later : List LogOp} {pos e : MessageIndex}
  {msg : Message}

/-- The record holds the writes used last, which are the ones accepted last. -/
structure Recorded (u : LogUsage) (capacity : Nat) (ops : List LogOp) : Prop where
  holds : u.view.recent.HoldsLast u.uses
  capacity : u.view.recent.capacity = max capacity 1
  lookup : ∀ pos, u.uses.lookup pos = LogOp.accepted? ops pos

lemma recorded_fresh (capacity : Nat) : (fresh capacity).Recorded capacity [] where
  holds := Lru.holdsLast_empty capacity
  capacity := rfl
  lookup _ := rfl

lemma accepted?_concat (ops : List LogOp) (op : LogOp) (pos : MessageIndex) :
    LogOp.accepted? (ops ++ [op]) pos = LogOp.noted pos (LogOp.accepted? ops pos) op :=
  List.foldl_concat ..

lemma Recorded.peek?_eq (h : u.Recorded capacity ops) (pos : MessageIndex) :
    u.view.recent.peek? pos =
      if (Lru.usedSince u.uses pos).card < max capacity 1 then LogOp.accepted? ops pos
      else none := by
  rw [h.holds.peek?_eq, h.capacity, h.lookup]

/-- A write found in the record is used again, and stays what was accepted. -/
lemma Recorded.check (h : u.Recorded capacity ops) (pos : MessageIndex) (msg : Message) :
    (u.after (.check pos msg)).Recorded capacity (ops ++ [.check pos msg]) := by
  have hsame : ∀ pos', LogOp.accepted? (ops ++ [.check pos msg]) pos' = LogOp.accepted? ops pos' :=
    fun pos' => accepted?_concat ..
  simp only [after, usesAfter, LogView.after, LogView.check]
  split
  · exact ⟨h.holds, h.capacity, fun pos' => (h.lookup pos').trans (hsame pos').symm⟩
  · cases hget : u.view.recent.get? pos with
    | none =>
      have hnone : u.view.recent.peek? pos = none := by simpa [Lru.get?] using hget
      rw [hnone]
      cases u.view.tail <;>
        exact ⟨h.holds, h.capacity, fun pos' => (h.lookup pos').trans (hsame pos').symm⟩
    | some found =>
      obtain ⟨m, recent⟩ := found
      have hput : u.view.recent.peek? pos = some m ∧ u.view.recent.put pos m = recent := by
        simpa [Lru.get?] using hget
      obtain ⟨hpeek, rfl⟩ := hput
      rw [hpeek]
      refine ⟨h.holds.put pos m, h.capacity, fun pos' => ?_⟩
      -- the record only holds what was accepted last
      have hfound : u.uses.lookup pos = some m := by
        have := h.holds.peek?_eq pos
        rw [hpeek] at this
        split at this
        · exact this.symm
        · cases this
      rw [hsame, ← h.lookup]
      change ((pos, m) :: u.uses).lookup pos' = u.uses.lookup pos'
      by_cases hp : pos' = pos
      · rw [hp, hfound, List.lookup_cons_self]
      · rw [List.lookup_cons, beq_eq_false_iff_ne.2 hp]

lemma Recorded.accept (h : u.Recorded capacity ops) (pos : MessageIndex) (msg : Message) :
    (u.after (.accept pos msg)).Recorded capacity (ops ++ [.accept pos msg]) where
  holds := h.holds.put pos msg
  capacity := h.capacity
  lookup pos' := by
    rw [accepted?_concat, LogOp.noted, ← h.lookup]
    by_cases hp : pos = pos'
    · simp [after, usesAfter, hp]
    · rw [if_neg hp, after, usesAfter, List.lookup_cons, beq_eq_false_iff_ne.2 (Ne.symm hp)]

lemma Recorded.after (h : u.Recorded capacity ops) (op : LogOp) :
    (u.after op).Recorded capacity (ops ++ [op]) := by
  cases op with
  | check pos msg => exact h.check pos msg
  | accept pos msg => exact h.accept pos msg
  | loseLease =>
    exact ⟨Lru.holdsLast_clear _, h.capacity, fun pos => by rw [accepted?_concat]; rfl⟩
  | resync expected =>
    exact ⟨h.holds, h.capacity, fun pos => by rw [accepted?_concat]; exact h.lookup pos⟩
  | outcomeUnknown =>
    exact ⟨h.holds, h.capacity, fun pos => by rw [accepted?_concat]; exact h.lookup pos⟩
  | probeConfirmed =>
    exact ⟨h.holds, h.capacity, fun pos => by rw [accepted?_concat]; exact h.lookup pos⟩

lemma recorded_afterAll (capacity : Nat) (ops : List LogOp) :
    ((fresh capacity).afterAll ops).Recorded capacity ops := by
  suffices h : ∀ {u : LogUsage} {done : List LogOp}, u.Recorded capacity done →
      (u.afterAll ops).Recorded capacity (done ++ ops) from h (recorded_fresh capacity)
  induction ops with
  | nil =>
    intro u done h
    rwa [List.append_nil]
  | cons op ops ih =>
    intro u done h
    have := ih (h.after op)
    rwa [List.append_assoc] at this

/-- What was accepted is forgotten with the lease only, as long as nothing is accepted at the
position again. -/
lemma accepted?_append (hagain : ∀ m, .accept pos m ∉ later) :
    LogOp.accepted? (before ++ later) pos = some msg ↔
      LogOp.accepted? before pos = some msg ∧ .loseLease ∉ later := by
  rw [LogOp.accepted?, List.foldl_append, ← LogOp.accepted?]
  generalize LogOp.accepted? before pos = known
  induction later generalizing known with
  | nil => simp
  | cons op later ih =>
    have hlater : ∀ m, .accept pos m ∉ later := fun m hm => hagain m (List.mem_cons_of_mem _ hm)
    rw [List.foldl_cons, ih hlater]
    cases op with
    | accept pos' m =>
      have hne : pos' ≠ pos := fun hc => hagain m (hc ▸ List.mem_cons_self)
      simp [LogOp.noted, hne]
    | loseLease => simp [LogOp.noted]
    | _ => simp [LogOp.noted]

/-- What is found at a position that was not accepted since the node reported its tail. -/
lemma peek?_eq_some_iff (hagain : ∀ m, .accept pos m ∉ later) :
    ((fresh capacity).afterAll (before ++ .resync (some e) :: later)).view.recent.peek? pos =
        some msg ↔
      ((fresh capacity).afterAll (before ++ .resync (some e) :: later)).Retains capacity before
        later pos msg := by
  have hagain' : ∀ m, .accept pos m ∉ .resync (some e) :: later := fun m hm =>
    (List.mem_cons.1 hm).elim nofun (hagain m)
  have hlost : .loseLease ∉ .resync (some e) :: later ↔ .loseLease ∉ later := by simp
  rw [(recorded_afterAll capacity _).peek?_eq, Option.ite_none_right_eq_some,
    accepted?_append hagain', hlost]
  exact ⟨fun ⟨hrecent, hacc, hheld⟩ => ⟨hacc, hheld, hrecent⟩,
    fun h => ⟨h.recent, h.accepted, h.held⟩⟩

/-- After the node has reported that it accepts `e` next, and as long as nothing is accepted at a
position again, a write there is confirmed, or refused as a conflict, exactly by what is retained
from before the report; and directly after the report a write at `e` itself goes to the node exactly
if nothing is retained at `e`. Neither holds while the lease must be confirmed. -/
theorem answered_after_resync_iff (capacity : Nat) (before later : List LogOp)
    (e pos : MessageIndex) (msg : Message) (hagain : ∀ m, .accept pos m ∉ later) :
    let u := (fresh capacity).afterAll (before ++ .resync (some e) :: later)
    let atOnce := (fresh capacity).afterAll (before ++ [.resync (some e)])
    ((u.view.check pos msg).1 = some (.ok ()) ↔
        u.view.probeRequired = false ∧ u.Retains capacity before later pos msg) ∧
      ((u.view.check pos msg).1 = some (.error (.conflictingWrite pos)) ↔
        u.view.probeRequired = false ∧
          ∃ other, u.Retains capacity before later pos other ∧ other ≠ msg) ∧
      ((atOnce.view.check e msg).1 = none ↔
        atOnce.view.probeRequired = false ∧
          ∀ other, ¬atOnce.Retains capacity before [] e other) := by
  intro u atOnce
  refine ⟨?_, ?_, ?_⟩
  · rw [LogView.check_eq_ok_iff, peek?_eq_some_iff hagain]
  · rw [LogView.check_eq_conflicting_iff]
    simp only [u, peek?_eq_some_iff hagain]
  · have hview : atOnce.view = ((fresh capacity).afterAll before).view.resync (some e) := by
      rw [show atOnce = _ from List.foldl_concat ..]
      rfl
    have hretains : ∀ other, atOnce.view.recent.peek? e = some other ↔
        atOnce.Retains capacity before [] e other := fun other =>
      peek?_eq_some_iff fun m => List.not_mem_nil
    rw [hview, LogView.check_resync_eq_none_iff, ← hview, Option.eq_none_iff_forall_ne_some]
    simp only [ne_eq, hretains]

/-- The first message was accepted, then the node reports that it accepts the first position. -/
theorem answered_after_resync_iff_wiped :
    let u := (fresh 8).afterAll ([.accept (.ofNat 0) (.sample 0)] ++ [.resync (some (.ofNat 0))])
    (∀ m, .accept (.ofNat 0) m ∉ ([] : List LogOp)) ∧
      (u.view.check (.ofNat 0) (.sample 0)).1 = some (.ok ()) := by
  intro u
  have hagain : ∀ m, .accept (.ofNat 0) m ∉ ([] : List LogOp) := fun m => List.not_mem_nil
  exact ⟨hagain, (answered_after_resync_iff 8 [.accept (.ofNat 0) (.sample 0)] [] (.ofNat 0)
    (.ofNat 0) (.sample 0) hagain).1.2 ⟨rfl, ⟨rfl, List.not_mem_nil, by decide⟩⟩⟩

/-- The record goes on to answer a position from which on the node has nothing any more. -/
theorem not_forgotten_after_resync :
    ¬∀ (capacity : Nat) (before later : List LogOp) (e pos : MessageIndex) (msg : Message),
      e ≤ pos → (∀ m, .accept pos m ∉ later) →
      let u := (fresh capacity).afterAll (before ++ .resync (some e) :: later)
      (u.view.check pos msg).1 ≠ some (.ok ()) ∧
        (u.view.check pos msg).1 ≠ some (.error (.conflictingWrite pos)) := by
  intro hclaim
  obtain ⟨hok, -⟩ := hclaim 8 [.accept (.ofNat 0) (.sample 0)] [] (.ofNat 0) (.ofNat 0) (.sample 0)
    (by decide) (fun m => List.not_mem_nil)
  exact hok rfl

end LogUsage

end ConsensusLink
