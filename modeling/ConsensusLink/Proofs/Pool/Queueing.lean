import ConsensusLink.Client.Basic
import Mathlib.Data.List.Basic
import Mathlib.Logic.Relation
/-!
# How many requests queue for a slot

A request of the pool queues from the moment it is admitted until it is granted or refused a slot,
or is given up by its caller. The pool does not know who queues, it only counts: up when a request
is admitted, and down when a request that asked for its slot gets an answer. A request that is given
up before this is never subtracted, so that the count is that of the requests that queue, together
with all that were given up while they did.
-/

namespace ConsensusLink

open Relation

namespace Pool

section Admission

variable {τ : Type} {p p' : Pool τ}

lemma enter_eq_ok (h : p.enter = .ok p') :
    p.isDown = false ∧ p.queued < p.room ∧ p' = { p with queued := p.queued + 1 } := by
  unfold enter at h
  split at h
  · cases h
  · rename_i hdown
    split at h
    · cases h
    · rename_i hroom
      exact ⟨Bool.not_eq_true _ ▸ hdown, Nat.lt_of_not_le hroom, (Except.ok.inj h).symm⟩

lemma enter_eq_overloaded :
    p.enter = .error .overloaded ↔ p.isDown = false ∧ p.room ≤ p.queued := by
  unfold enter
  by_cases hdown : p.isDown = true
  · simp [hdown]
  · by_cases hroom : p.room ≤ p.queued <;> simp [hdown, hroom]

lemma queued_release : p.release.2.queued = p.queued := by
  unfold release
  split <;> rfl

end Admission

variable {τ : Type} [DecidableEq τ] {p : Pool τ} {t : τ}

lemma queued_leave : (p.leave t).2.queued = p.queued := by
  unfold leave
  split
  · exact queued_release
  · rfl

/-- Who asks for a slot and gets an answer no longer counts. -/
lemma queued_ask :
    (p.ask t).2.2.queued = if (p.ask t).1 = .wait then p.queued else p.queued - 1 := by
  unfold ask
  split
  · simp [queued_leave]
  · split
    · rfl
    · split
      · rfl
      · split <;> rfl

end Pool

/-- A pool, and what has become of the requests that it admitted and that have not ended. -/
structure Attendance (τ : Type) where
  /-- The pool. -/
  pool : Pool τ
  /-- The requests that are neither granted nor refused a slot. -/
  queueing : List τ := []
  /-- The requests that have a slot. -/
  running : List τ := []
  /-- The requests that were given up while they queued. -/
  givenUp : List τ := []

namespace Attendance

section Steps

variable {τ : Type} [DecidableEq τ]

/-- A request is made, and admitted if there is room. -/
def enter (s : Attendance τ) (t : τ) : Attendance τ :=
  match s.pool.enter with
  | .error _ => s
  | .ok pool => { s with pool, queueing := s.queueing ++ [t] }

/-- A request that queues asks for its slot. -/
def ask (s : Attendance τ) (t : τ) : Attendance τ :=
  match s.pool.ask t with
  | (.taken, _, pool) =>
    { s with pool, queueing := s.queueing.erase t, running := s.running ++ [t] }
  | (.refused, _, pool) => { s with pool, queueing := s.queueing.erase t }
  | (.wait, _, pool) => { s with pool }

/-- A request that has a slot gives it back: it has finished, broken down or been given up. -/
def finish (s : Attendance τ) (t : τ) : Attendance τ :=
  { s with pool := s.pool.release.2, running := s.running.erase t }

/-- A request that queues is given up. -/
def giveUp (s : Attendance τ) (t : τ) : Attendance τ :=
  { s with
    pool := (s.pool.leave t).2
    queueing := s.queueing.erase t
    givenUp := s.givenUp ++ [t] }

/-- What can happen to a pool. -/
inductive Step (s : Attendance τ) : Attendance τ → Prop
  | enters {t} (h : t ∉ s.queueing ++ s.running) : Step s (s.enter t)
  | asks {t} (h : t ∈ s.queueing) : Step s (s.ask t)
  | finishes {t} (h : t ∈ s.running) : Step s (s.finish t)
  | givesUp {t} (h : t ∈ s.queueing) : Step s (s.giveUp t)
  | shutsDown : Step s { s with pool := s.pool.shutDown }

/-- What can become of a new pool. -/
def Reachable (config : PoolConfig) : Attendance τ → Prop :=
  ReflTransGen Step { pool := .empty config }

variable {s s' : Attendance τ} {t : τ}

/-- The pool counts the requests that queue and those that were given up while they did. -/
def Accounted (s : Attendance τ) : Prop := s.pool.queued = s.queueing.length + s.givenUp.length

omit [DecidableEq τ] in
lemma Accounted.enter (h : s.Accounted) : (s.enter t).Accounted := by
  unfold Attendance.enter
  split
  · exact h
  · rename_i pool hp
    obtain ⟨-, -, rfl⟩ := Pool.enter_eq_ok hp
    simp only [Accounted] at h ⊢
    simp only [List.length_append, List.length_singleton]
    omega

lemma Accounted.ask (h : s.Accounted) (ht : t ∈ s.queueing) : (s.ask t).Accounted := by
  have hcount := s.pool.queued_ask (t := t)
  have hpos : 0 < s.queueing.length := List.length_pos_of_mem ht
  have herase : (s.queueing.erase t).length = s.queueing.length - 1 := List.length_erase_of_mem ht
  simp only [Accounted] at h
  unfold Attendance.ask
  split <;> rename_i hask <;> rw [hask] at hcount
  -- an answer is subtracted from both sides
  case h_1 | h_2 =>
    simp only [reduceCtorEq, if_false] at hcount
    simp only [Accounted]
    omega
  case h_3 => exact hcount.trans h

lemma Accounted.giveUp (h : s.Accounted) (ht : t ∈ s.queueing) : (s.giveUp t).Accounted := by
  have hpos : 0 < s.queueing.length := List.length_pos_of_mem ht
  simp only [Accounted] at h
  simp only [Accounted, Attendance.giveUp, Pool.queued_leave, List.length_erase_of_mem ht,
    List.length_append, List.length_singleton]
  omega

lemma Step.accounted (hs : Step s s') (h : s.Accounted) : s'.Accounted := by
  cases hs with
  | enters => exact h.enter
  | asks ht => exact h.ask ht
  | finishes => exact Pool.queued_release.trans h
  | givesUp ht => exact h.giveUp ht
  | shutsDown => exact h

lemma accounted_of_reachable {config : PoolConfig} (h : Reachable config s) : s.Accounted := by
  induction h with
  | refl => rfl
  | tail _ hs ih => exact hs.accounted ih

/-- **How many requests queue.** Whatever happens to a pool, the count is that of the requests that
queue, together with all that were given up while they did; it is that of the requests that queue
exactly if none was ever given up so; and a request finds the pool overloaded exactly if those that
queue now and those that were given up before take all the room. -/
theorem queued_eq_length_iff {config : PoolConfig} (h : Reachable config s) :
    s.pool.queued = s.queueing.length + s.givenUp.length ∧
      (s.pool.queued = s.queueing.length ↔ s.givenUp = []) ∧
      (s.pool.enter = .error .overloaded ↔
        s.pool.isDown = false ∧ s.pool.room ≤ s.queueing.length + s.givenUp.length) := by
  have hcount : s.pool.queued = s.queueing.length + s.givenUp.length := accounted_of_reachable h
  refine ⟨hcount, ?_, ?_⟩
  · rw [hcount, ← List.length_eq_zero_iff]
    omega
  · rw [Pool.enter_eq_overloaded, hcount]

end Steps

/-! ## A write that is given up -/

/-- A pool with one slot and room for one. -/
def narrow : PoolConfig := ⟨1, 1⟩

/-- A task takes the only slot; a write queues for it and is given up; the task finishes. -/
def deserted : Attendance TaskId :=
  let taken := ((Attendance.mk (.empty narrow) [] [] []).enter (.task 0)).ask (.task 0)
  (((taken.enter .coordinator).ask .coordinator).giveUp .coordinator).finish (.task 0)

lemma reachable_deserted : Reachable narrow deserted := by
  refine ReflTransGen.refl.tail (.enters ?_) |>.tail (.asks ?_)
    |>.tail (.enters ?_) |>.tail (.asks ?_) |>.tail (.givesUp ?_)
    |>.tail (.finishes ?_)
  all_goals decide

/-- After the write was given up and the task has finished, the pool is overloaded. -/
theorem queued_eq_length_iff_deserted :
    deserted.pool.queued ≠ deserted.queueing.length ∧
      deserted.pool.enter = .error .overloaded := by
  obtain ⟨-, hcount, hfull⟩ := queued_eq_length_iff reachable_deserted
  refine ⟨fun h => absurd (hcount.1 h) (by decide), hfull.2 ⟨rfl, by decide⟩⟩

/-- The count need not be that of the requests that queue, and a request can be refused by a pool
in which none does. -/
theorem not_queued_eq_length :
    ¬∀ (config : PoolConfig) (s : Attendance TaskId), Reachable config s →
      s.pool.queued = s.queueing.length ∧
        (s.queueing = [] → s.pool.enter ≠ .error .overloaded) := by
  intro h
  exact absurd (h narrow deserted reachable_deserted).1 (by decide)

end Attendance

end ConsensusLink
