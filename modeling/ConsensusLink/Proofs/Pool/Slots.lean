import ConsensusLink.Proofs.Pool.Queueing
import Mathlib.Data.List.Nodup
/-!
# Where the slots are

Every slot of a pool is free, or was handed to a request that has not taken it up yet, or is held by
a request that runs. Asking for a slot, giving one back and giving up the wait keep this, so that
never more requests run than there are slots, and whoever ends gives a slot to someone else. A slot
is only free when nobody waits for one. Once the pool is down no request starts to run any more.
-/

namespace ConsensusLink

open Relation

namespace Pool

variable {τ : Type}

/-- The requests that wait for a slot, or were handed one that they have not taken up. -/
def line (p : Pool τ) : List τ := p.waiting ++ p.granted

/-- How many slots no running request holds. -/
def spare (p : Pool τ) : Nat := p.free + p.granted.length

/-- No request has two places, and no slot is free while a request waits for one. -/
structure Tidy (p : Pool τ) : Prop where
  nodup : p.line.Nodup
  idle : p.free = 0 ∨ p.waiting = []

/-- What stays as it is when slots change hands. -/
structure Alike (p p' : Pool τ) : Prop where
  slots : p'.slots = p.slots
  room : p'.room = p.room
  isDown : p'.isDown = p.isDown

variable {p : Pool τ}

lemma tidy_empty (config : PoolConfig) : (empty config : Pool τ).Tidy :=
  ⟨List.nodup_nil, .inr rfl⟩

lemma alike_release (p : Pool τ) : p.Alike p.release.2 := by
  unfold release
  split <;> exact ⟨rfl, rfl, rfl⟩

lemma spare_release (p : Pool τ) : p.release.2.spare = p.spare + 1 := by
  unfold release
  split
  · simp only [spare, List.length_append, List.length_singleton]
    omega
  · simp only [spare]
    omega

/-- A slot that is given back changes who waits for one, not who is there. -/
lemma line_release (p : Pool τ) : p.release.2.line.Perm p.line := by
  unfold release
  split
  · rename_i t rest hw
    rw [line, line, hw, ← List.append_assoc, List.cons_append]
    exact List.perm_append_singleton _ _
  · exact .refl _

lemma Tidy.release (h : p.Tidy) : p.release.2.Tidy := by
  refine ⟨(line_release p).nodup_iff.2 h.nodup, ?_⟩
  have hidle := h.idle
  unfold Pool.release
  split
  · rename_i t rest hw
    rw [hw] at hidle
    exact .inl (hidle.resolve_right nofun)
  · rename_i hw
    exact .inr hw

/-- Whoever waits longest is handed a slot that is given back. -/
lemma mem_granted_release {t : τ} (h : t ∈ p.waiting.head?) : t ∈ p.release.2.granted := by
  unfold Pool.release
  split
  · rename_i u rest hw
    rw [hw] at h
    obtain rfl := Option.some.inj h
    exact List.mem_append_right _ (List.mem_singleton_self u)
  · rename_i hw
    rw [hw] at h
    cases h

variable [DecidableEq τ] {t : τ}

lemma alike_leave (p : Pool τ) (t : τ) : p.Alike (p.leave t).2 := by
  unfold leave
  split
  · have hrelease := alike_release { p with granted := p.granted.erase t }
    exact ⟨hrelease.slots, hrelease.room, hrelease.isDown⟩
  · exact ⟨rfl, rfl, rfl⟩

/-- A slot that was handed to a request that leaves is handed on. -/
lemma spare_leave (p : Pool τ) (t : τ) : (p.leave t).2.spare = p.spare := by
  unfold leave
  split
  · rename_i ht
    have hpos := List.length_pos_of_mem ht
    rw [spare_release]
    simp only [spare, List.length_erase_of_mem ht]
    omega
  · rfl

lemma line_leave (h : p.Tidy) (t : τ) : (p.leave t).2.line.Perm (p.line.erase t) := by
  have hnodup := h.nodup
  rw [line, List.nodup_append] at hnodup
  unfold leave
  split
  · rename_i ht
    have hnot : t ∉ p.waiting := fun hw => hnodup.2.2 t hw t ht rfl
    refine (line_release _).trans ?_
    rw [line, line, List.erase_append_right _ hnot]
  · rename_i ht
    have hfilter : p.waiting.filter (· ≠ t) = p.waiting.erase t := by
      rw [hnodup.1.erase_eq_filter]
      refine List.filter_congr fun u _ => ?_
      rw [bne, Bool.beq_eq_decide_eq, decide_not]
    rw [line, line, hfilter]
    by_cases hw : t ∈ p.waiting
    · rw [List.erase_append_left _ hw]
    · rw [List.erase_append_right _ hw, List.erase_of_not_mem hw, List.erase_of_not_mem ht]

lemma Tidy.leave (h : p.Tidy) (t : τ) : (p.leave t).2.Tidy := by
  have hnodup := (line_leave h t).nodup_iff.2 (h.nodup.erase t)
  refine ⟨hnodup, ?_⟩
  unfold Pool.leave
  split
  · rename_i ht
    have herase : Tidy { p with granted := p.granted.erase t } :=
      ⟨h.nodup.sublist ((List.erase_sublist ..).append_left _), h.idle⟩
    exact herase.release.idle
  · refine h.idle.imp_right fun hw => ?_
    rw [hw, List.filter_nil]

/-- So it is with a slot that was handed to a request that leaves. -/
lemma mem_granted_leave {u : τ} (ht : t ∈ p.granted) (hu : u ∈ p.waiting.head?) :
    u ∈ (p.leave t).2.granted := by
  rw [Pool.leave, if_pos ht]
  exact mem_granted_release hu

/-- A request that asks takes its slot if one is free or was handed to it. -/
lemma Tidy.ask_taken (h : p.Tidy) (hup : p.isDown = false) (hslot : 0 < p.free ∨ t ∈ p.granted) :
    (p.ask t).1 = .taken := by
  rw [ask, if_neg (by simp [hup])]
  by_cases ht : t ∈ p.granted
  · rw [if_pos ht]
  · have hfree := hslot.resolve_right ht
    -- nobody waits while a slot is free
    have hnone : p.waiting = [] := h.idle.resolve_left (Nat.ne_of_gt hfree)
    rw [if_neg ht, if_neg (by simp [hnone]), if_pos hfree]

/-- What comes of asking for a slot, for the slots and for who waits. -/
inductive AskOutcome (p : Pool τ) (t : τ) : SlotReply → Pool τ → Prop
  | taken {p'} (hup : p.isDown = false) (hspare : p'.spare + 1 = p.spare)
      (hline : p'.line.Perm (p.line.erase t)) : AskOutcome p t .taken p'
  | waits {p'} (hup : p.isDown = false) (hspare : p'.spare = p.spare) (hmem : t ∈ p'.line)
      (hline : ∀ u ∈ p'.line, u = t ∨ u ∈ p.line) : AskOutcome p t .wait p'
  | refused {p'} (hdown : p.isDown = true) (hspare : p'.spare = p.spare)
      (hline : p'.line.Perm (p.line.erase t)) : AskOutcome p t .refused p'

lemma ask_outcome (h : p.Tidy) (t : τ) :
    p.AskOutcome t (p.ask t).1 (p.ask t).2.2 ∧ (p.ask t).2.2.Tidy ∧
      p.Alike (p.ask t).2.2 := by
  have hnodup := h.nodup
  rw [line, List.nodup_append] at hnodup
  unfold ask
  split
  · rename_i hdown
    have hleave := alike_leave p t
    exact ⟨.refused hdown (spare_leave p t) (line_leave h t),
      ⟨(h.leave t).nodup, (h.leave t).idle⟩, ⟨hleave.slots, hleave.room, hleave.isDown⟩⟩
  · rename_i hup
    rw [Bool.not_eq_true] at hup
    split
    · -- the slot had been handed to the request
      rename_i ht
      have hpos := List.length_pos_of_mem ht
      have hnot : t ∉ p.waiting := fun hw => hnodup.2.2 t hw t ht rfl
      refine ⟨.taken hup ?_ ?_, ⟨?_, h.idle⟩, rfl, rfl, rfl⟩
      · simp only [spare, List.length_erase_of_mem ht]
        omega
      · rw [line, line, List.erase_append_right _ hnot]
      · exact h.nodup.sublist ((List.erase_sublist ..).append_left _)
    · rename_i ht
      split
      · rename_i hw
        exact ⟨.waits hup rfl (List.mem_append_left _ hw) fun u hu => .inr hu, h, rfl, rfl, rfl⟩
      · rename_i hw
        have hline : t ∉ p.line := fun hmem => (List.mem_append.1 hmem).elim hw ht
        split
        · rename_i hfree
          refine ⟨.taken hup ?_ ?_, ⟨h.nodup, ?_⟩, rfl, rfl, rfl⟩
          · simp only [spare]
            omega
          · rw [List.erase_of_not_mem hline]
            exact .refl _
          · exact h.idle.imp (fun hz => by omega) id
        · rename_i hfree
          refine ⟨.waits hup rfl ?_ ?_, ⟨?_, .inl (Nat.eq_zero_of_not_pos hfree)⟩, rfl, rfl, rfl⟩
          · exact List.mem_append_left _ (List.mem_append_right _ (List.mem_singleton_self t))
          · simp only [line, List.mem_append, List.mem_singleton]
            tauto
          · have hperm : ((p.waiting ++ [t]) ++ p.granted).Perm (t :: p.line) := by
              rw [List.append_assoc, List.singleton_append]
              exact List.perm_middle
            exact hperm.nodup_iff.2 (List.nodup_cons.2 ⟨hline, h.nodup⟩)

end Pool

namespace Attendance

variable {τ : Type} {config : PoolConfig} {s s' : Attendance τ} {t : τ}

/-- Every slot is somewhere, and every request is in one place. -/
structure Balanced (config : PoolConfig) (s : Attendance τ) : Prop where
  slots : s.pool.slots = max config.maxConcurrentRequests.toNat 1
  room : s.pool.room = max config.maxQueuedRequests.toNat 1
  /-- No more requests are counted than there is room for. -/
  within : s.pool.queued ≤ s.pool.room
  tidy : s.pool.Tidy
  /-- Who waits for a slot, queues. -/
  line : ∀ t ∈ s.pool.line, t ∈ s.queueing
  /-- No request queues twice, runs twice, or does both. -/
  once : (s.queueing ++ s.running).Nodup
  /-- The slots that no running request holds and those that are held are all. -/
  balance : s.pool.spare + s.running.length = s.pool.slots

lemma balanced_new (config : PoolConfig) :
    ({ pool := .empty config } : Attendance τ).Balanced config where
  slots := rfl
  room := rfl
  within := Nat.zero_le _
  tidy := Pool.tidy_empty config
  line _ ht := nomatch ht
  once := List.nodup_nil
  balance := rfl

lemma Balanced.enter (h : s.Balanced config) (ht : t ∉ s.queueing ++ s.running) :
    (s.enter t).Balanced config := by
  unfold Attendance.enter
  split
  · exact h
  · rename_i pool hp
    obtain ⟨-, hroom, rfl⟩ := Pool.enter_eq_ok hp
    refine ⟨h.slots, h.room, hroom, ⟨h.tidy.nodup, h.tidy.idle⟩, ?_, ?_, h.balance⟩
    · exact fun u hu => List.mem_append_left _ (h.line u hu)
    · rw [List.append_assoc, List.singleton_append, List.nodup_middle]
      exact List.nodup_cons.2 ⟨ht, h.once⟩

/-- **Never more than configured.** Not more requests run, and not more queue, than the pool is
configured for, and a slot is free or handed over unless a request runs in it. -/
lemma Balanced.length_le (h : s.Balanced config) (hqueued : s.Accounted) :
    s.running.length ≤ max config.maxConcurrentRequests.toNat 1 ∧
      s.queueing.length ≤ max config.maxQueuedRequests.toNat 1 := by
  have hslots := h.slots
  have hbalance := h.balance
  have hroom := h.room
  have hwithin := h.within
  simp only [Accounted] at hqueued
  omega

variable [DecidableEq τ]

/-- Who leaves the queue is not in the line any more. -/
lemma Balanced.line_erase (h : s.Balanced config) {p : Pool τ}
    (hp : p.line.Perm (s.pool.line.erase t)) : ∀ u ∈ p.line, u ∈ s.queueing.erase t := by
  intro u hu
  obtain ⟨hne, hmem⟩ := h.tidy.nodup.mem_erase_iff.1 (hp.mem_iff.1 hu)
  exact (List.mem_erase_of_ne hne).2 (h.line u hmem)

lemma Balanced.ask (h : s.Balanced config) (ht : t ∈ s.queueing) : (s.ask t).Balanced config := by
  obtain ⟨hout, htidy, hsize⟩ := Pool.ask_outcome h.tidy t
  have hcount := s.pool.queued_ask (t := t)
  have hwithin : (s.pool.ask t).2.2.queued ≤ (s.pool.ask t).2.2.room := by
    have := h.within
    rw [hcount, hsize.room]
    split <;> omega
  have honce : ∀ {running : List τ}, running.Perm s.running ∨ running.Perm (t :: s.running) →
      (s.queueing.erase t ++ running).Nodup := by
    intro running hrun
    have hall : (t :: s.queueing.erase t ++ s.running).Nodup :=
      (((List.perm_cons_erase ht).append_right _).nodup_iff).1 h.once
    obtain hrun | hrun := hrun
    · exact ((hrun.append_left _).nodup_iff).2 (List.nodup_cons.1 hall).2
    · exact ((hrun.append_left _).nodup_iff).2 (List.nodup_middle.2 hall)
  have hbalance := h.balance
  unfold Attendance.ask
  generalize s.pool.ask t = answer at hout htidy hsize hwithin
  obtain ⟨reply, next, pool⟩ := answer
  cases hout with
  | taken hup hspare hline =>
    refine ⟨hsize.slots.trans h.slots, hsize.room.trans h.room, hwithin, htidy, h.line_erase hline,
      honce (.inr (List.perm_append_singleton t s.running)), ?_⟩
    rw [hsize.slots]
    simp only [List.length_append, List.length_singleton]
    dsimp only at hspare
    omega
  | waits hup hspare hmem hline =>
    refine ⟨hsize.slots.trans h.slots, hsize.room.trans h.room, hwithin, htidy, ?_, h.once, ?_⟩
    · intro u hu
      obtain rfl | hu := hline u hu
      · exact ht
      · exact h.line u hu
    · rw [hsize.slots]
      dsimp only at hspare ⊢
      omega
  | refused hdown hspare hline =>
    refine ⟨hsize.slots.trans h.slots, hsize.room.trans h.room, hwithin, htidy, h.line_erase hline,
      honce (.inl (.refl _)), ?_⟩
    rw [hsize.slots]
    dsimp only at hspare ⊢
    omega

lemma Balanced.finish (h : s.Balanced config) (ht : t ∈ s.running) :
    (s.finish t).Balanced config := by
  have hsize := Pool.alike_release s.pool
  have hpos := List.length_pos_of_mem ht
  have hbalance := h.balance
  refine ⟨hsize.slots.trans h.slots, hsize.room.trans h.room, ?_, h.tidy.release, ?_, ?_, ?_⟩
  · change s.pool.release.2.queued ≤ s.pool.release.2.room
    rw [Pool.queued_release, hsize.room]
    exact h.within
  · exact fun u hu => h.line u ((Pool.line_release _).mem_iff.1 hu)
  · exact h.once.sublist ((List.erase_sublist ..).append_left _)
  · change s.pool.release.2.spare + (s.running.erase t).length = s.pool.release.2.slots
    rw [hsize.slots, Pool.spare_release, List.length_erase_of_mem ht]
    omega

lemma Balanced.giveUp (h : s.Balanced config) (t : τ) : (s.giveUp t).Balanced config := by
  have hsize := Pool.alike_leave s.pool t
  refine ⟨hsize.slots.trans h.slots, hsize.room.trans h.room, ?_, h.tidy.leave t,
    h.line_erase (Pool.line_leave h.tidy t), ?_, ?_⟩
  · change (s.pool.leave t).2.queued ≤ (s.pool.leave t).2.room
    rw [Pool.queued_leave, hsize.room]
    exact h.within
  · exact h.once.sublist ((List.erase_sublist ..).append_right _)
  · change (s.pool.leave t).2.spare + s.running.length = (s.pool.leave t).2.slots
    rw [hsize.slots, Pool.spare_leave]
    exact h.balance

lemma Step.balanced (hs : Step s s') (h : s.Balanced config) : s'.Balanced config := by
  cases hs with
  | enters ht => exact h.enter ht
  | asks ht => exact h.ask ht
  | finishes ht => exact h.finish ht
  | givesUp => exact h.giveUp _
  | shutsDown =>
    exact ⟨h.slots, h.room, h.within, ⟨h.tidy.nodup, h.tidy.idle⟩, h.line, h.once, h.balance⟩

lemma balanced_of_reachable (h : Reachable config s) : s.Balanced config := by
  induction h with
  | refl => exact balanced_new config
  | tail _ hs ih => exact hs.balanced ih

/-- Once the pool is down, requests that run end, and none begins to. -/
lemma Step.running_of_isDown (hs : Step s s') (hd : s.pool.isDown = true)
    (h : s.Balanced config) : s'.pool.isDown = true ∧ s'.running.Sublist s.running := by
  cases hs with
  | enters =>
    unfold Attendance.enter
    split
    · exact ⟨hd, .refl _⟩
    · rename_i pool hp
      cases (Pool.enter_eq_ok hp).1.symm.trans hd
  | @asks t =>
    obtain ⟨hout, -, halike⟩ := Pool.ask_outcome h.tidy t
    unfold Attendance.ask
    generalize s.pool.ask t = answer at hout halike
    obtain ⟨reply, next, pool⟩ := answer
    cases hout with
    | taken hup => cases hup.symm.trans hd
    | waits => exact ⟨halike.isDown.trans hd, .refl _⟩
    | refused => exact ⟨halike.isDown.trans hd, .refl _⟩
  | finishes => exact ⟨(Pool.alike_release _).isDown.trans hd, List.erase_sublist ..⟩
  | givesUp => exact ⟨(Pool.alike_leave _ _).isDown.trans hd, .refl _⟩
  | shutsDown => exact ⟨rfl, .refl _⟩

lemma running_of_isDown (h : s.Balanced config) (hr : ReflTransGen Step s s')
    (hd : s.pool.isDown = true) : s'.pool.isDown = true ∧ s'.running.Sublist s.running := by
  suffices hall : s'.Balanced config ∧ s'.pool.isDown = true ∧ s'.running.Sublist s.running from
    hall.2
  induction hr with
  | refl => exact ⟨h, hd, .refl _⟩
  | tail _ hs ih =>
    obtain ⟨hbal, hdown, hsub⟩ := ih
    obtain ⟨hdown', hsub'⟩ := hs.running_of_isDown hdown hbal
    exact ⟨hs.balanced hbal, hdown', hsub'.trans hsub⟩

/-! ## Where a request is -/

/-- Where a request can be. -/
inductive Place where
  /-- It was not admitted, or has ended. -/
  | outside
  /-- It queues for a slot. -/
  | queueing
  /-- It has a slot. -/
  | running
deriving DecidableEq

/-- Where a request is. -/
def At (s : Attendance τ) (t : τ) (place : Place) : Prop :=
  (t ∈ s.queueing ↔ place = .queueing) ∧ (t ∈ s.running ↔ place = .running)

/-- Some steps bring a request to a place, and leave all others where they are. -/
structure Brings (s s' : Attendance τ) (t : τ) (place : Place) : Prop where
  steps : ReflTransGen Step s s'
  there : s'.At t place
  others : ∀ u place, u ≠ t → s.At u place → s'.At u place

lemma brings_refl {place : Place} (h : s.At t place) : s.Brings s t place :=
  ⟨.refl, h, fun _ _ _ => id⟩

lemma Brings.trans {s'' : Attendance τ} {place place' : Place} (h : s.Brings s' t place)
    (h' : s'.Brings s'' t place') : s.Brings s'' t place' :=
  ⟨h.steps.trans h'.steps, h'.there, fun u q hu hq => h'.others u q hu (h.others u q hu hq)⟩

/-- One step that takes nobody else in or out. -/
lemma brings_of_step {place : Place} (hs : Step s s') (h : s'.At t place)
    (hothers : ∀ u, u ≠ t →
      (u ∈ s'.queueing ↔ u ∈ s.queueing) ∧ (u ∈ s'.running ↔ u ∈ s.running)) :
    s.Brings s' t place where
  steps := .single hs
  there := h
  others u _ hu hq := ⟨(hothers u hu).1.trans hq.1, (hothers u hu).2.trans hq.2⟩

lemma Balanced.of_steps (h : s.Balanced config) (hr : ReflTransGen Step s s') :
    s'.Balanced config := by
  induction hr with
  | refl => exact h
  | tail _ hs ih => exact hs.balanced ih

/-- A request that is admitted queues. -/
lemma brings_enter {pool : Pool τ} (hp : s.pool.enter = .ok pool) (h : s.At t .outside) :
    ∃ s', s.Brings s' t .queueing ∧ s'.pool = pool := by
  have hqueue : t ∉ s.queueing := by simp [h.1]
  have hrun : t ∉ s.running := by simp [h.2]
  have hnew : t ∉ s.queueing ++ s.running := by simp [hqueue, hrun]
  have henter : s.enter t = { s with pool, queueing := s.queueing ++ [t] } := by
    rw [Attendance.enter, hp]
  refine ⟨s.enter t, brings_of_step (.enters hnew) ⟨?_, ?_⟩ fun u hu => ?_, ?_⟩ <;> rw [henter]
  · simp
  · simpa using hrun
  · simp [hu]

namespace Balanced

/-- Where asking for a slot brings a request that queues. -/
lemma brings_ask (h : s.Balanced config) (ht : s.At t .queueing) :
    ∃ s', s'.pool = (s.pool.ask t).2.2 ∧
      s.Brings s' t (match (s.pool.ask t).1 with
        | .taken => .running
        | .wait => .queueing
        | .refused => .outside) := by
  have hqueue : t ∈ s.queueing := by simp [ht.1]
  have hrun : t ∉ s.running := by simp [ht.2]
  have hnodup := (List.nodup_append.1 h.once).1
  have hstep : Step s (s.ask t) := .asks hqueue
  refine ⟨s.ask t, ?_, ?_⟩
  · unfold Attendance.ask
    split <;> rename_i hask <;> rw [hask]
  · unfold Attendance.ask at hstep ⊢
    split <;> rename_i hask <;> simp only [hask] at hstep ⊢
    · refine brings_of_step hstep ⟨?_, ?_⟩ fun u hu => ?_
      · simp [hnodup.mem_erase_iff]
      · simp
      · simp [hu, hnodup.mem_erase_iff]
    · refine brings_of_step hstep ⟨?_, ?_⟩ fun u hu => ?_
      · simp [hnodup.mem_erase_iff]
      · simpa using hrun
      · simp [hu, hnodup.mem_erase_iff]
    · exact brings_of_step hstep ⟨ht.1, ht.2⟩ fun u _ => ⟨.rfl, .rfl⟩

lemma brings_finish (h : s.Balanced config) (ht : s.At t .running) :
    s.Brings (s.finish t) t .outside := by
  have hrun : t ∈ s.running := by simp [ht.2]
  have hqueue : t ∉ s.queueing := by simp [ht.1]
  have hnodup := (List.nodup_append.1 h.once).2.1
  refine brings_of_step (.finishes hrun) ⟨?_, ?_⟩ fun u hu => ?_
  · simpa [Attendance.finish] using hqueue
  · simp [Attendance.finish, hnodup.mem_erase_iff]
  · simp [Attendance.finish, hu, hnodup.mem_erase_iff]

lemma brings_giveUp (h : s.Balanced config) (ht : s.At t .queueing) :
    s.Brings (s.giveUp t) t .outside := by
  have hqueue : t ∈ s.queueing := by simp [ht.1]
  have hrun : t ∉ s.running := by simp [ht.2]
  have hnodup := (List.nodup_append.1 h.once).1
  refine brings_of_step (.givesUp hqueue) ⟨?_, ?_⟩ fun u hu => ?_
  · simp [Attendance.giveUp, hnodup.mem_erase_iff]
  · simpa [Attendance.giveUp] using hrun
  · simp [Attendance.giveUp, hu, hnodup.mem_erase_iff]

end Balanced

end Attendance

end ConsensusLink
