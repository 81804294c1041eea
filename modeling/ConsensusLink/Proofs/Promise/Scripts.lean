import ConsensusLink.Proofs.Promise.Removal
import Mathlib.Data.List.Induction
/-!
# Scripts without some of their waiters

A script has steps carried out and lets time pass. Without some of its waiters, whether they give up
or not, it comes to the same: the same outcomes, the same continuations and the same reports of the
others. The script may also wait itself; but for what it finds that is to let time pass.
-/

namespace ConsensusLink.Promise

variable {gone : String → Bool} {name : TaskId → Option TaskId}

/-- What a script asks for. -/
inductive Instruction where
  /-- A step. -/
  | perform (step : Step)
  /-- That time passes. -/
  | advance (ms : Nat)

/-- What remains of an instruction without the waiters who are left out. -/
def Instruction.without (gone : String → Bool) : Instruction → Option Instruction
  | perform step => if step.goes gone then none else some (perform (step.without gone))
  | advance ms => some (advance ms)

/-- The continuation that an entry says has run, with the outcome and the time. -/
def Entry.ranAt? : Entry → Option (String × Outcome Int64 × Nat)
  | ran label o time => some (label, o, time)
  | _ => none

lemma Entry.bind_ranAt? (e : Entry) : (e.without gone).bind Entry.ranAt? = e.ranAt? := by
  cases e with
  | ran label o time => rfl
  | did label step reply | later step reply time =>
    rw [Entry.without]
    split <;> rfl

namespace Scene

/-- Does what a script asks for. -/
def obey (s : Scene) : Instruction → Scene
  | .perform step => s.perform step
  | .advance ms => Timed.advance s ms

/-- The scene after a script. -/
def play (script : List Instruction) : Scene := script.foldl obey {}

/-- The continuations that have run, latest first. -/
def runs (s : Scene) : List (String × Outcome Int64 × Nat) := s.entries.filterMap Entry.ranAt?

/-- What the scenes of two scripts have in common, one of which goes without some waiters of the
other. -/
structure Unnoticed (gone : String → Bool) (s s' : Scene) : Prop where
  outcomes : ∀ p, s'.promises.outcome? p = s.promises.outcome? p
  handles : s'.handles = s.handles
  clock : s'.schedule.now = s.schedule.now
  runs : s'.runs = s.runs
  entries : s'.entries = s.entries.filterMap (Entry.without gone)
  found : s'.found = s.found.filter fun r => !gone r.2.1

variable {s s' : Scene} {stop : Scene → Bool} {time moment : Nat}

lemma Prompt.obey (h : s.Prompt) (c : Instruction) : (s.obey c).Prompt := by
  cases c with
  | perform step => exact h.run _
  | advance ms => exact ((h.passes _ (Nat.le_add_right _ ms)).prompt h).drain

lemma prompt_play (script : List Instruction) : (play script).Prompt := by
  induction script using List.reverseRecOn with
  | nil => exact prompt_empty
  | append_singleton script c ih =>
    rw [play, List.foldl_concat]
    exact ih.obey c

namespace Spares

lemma unnoticed (h : s.Spares gone name s') : s.Unnoticed gone s' where
  outcomes := h.outcome?_eq
  handles := h.handles
  clock := h.now_eq
  runs := by
    rw [Scene.runs, h.entries, List.filterMap_filterMap, Scene.runs]
    exact List.filterMap_congr fun e _ => e.bind_ranAt?
  entries := h.entries
  found := h.found

lemma advance (h : s.Spares gone name s') (hs : s.Prompt) (hs' : s'.Prompt) (ms : Nat) :
    ∃ name, (Timed.advance s ms).Spares gone name (Timed.advance s' ms) := by
  have hpass := hs.passes (fun _ => false) (Nat.le_add_right s.schedule.now ms)
  obtain ⟨name', u', hu, hpass'⟩ := h.passes (fun _ _ _ _ => rfl) hpass hs hs'
  have hsame : u' = Timed.passUntil s' (fun _ => false) (s'.schedule.now + ms) := by
    rw [h.now_eq]
    exact hpass'.eq_passUntil hs' fun _ _ => rfl
  subst hsame
  exact hu.drain (hpass.prompt hs) (hpass'.prompt hs')

/-- An instruction comes to the same without the waiters who are left out. -/
lemma obey (h : s.Spares gone name s') (hs : s.Prompt) (hs' : s'.Prompt) (c : Instruction) :
    ∃ name, (s.obey c).Spares gone name ((c.without gone).elim s' s'.obey) := by
  cases c with
  | advance ms => exact h.advance hs hs' ms
  | perform step =>
    obtain ⟨name', hrun⟩ := h.run hs [.perform .script step]
    refine ⟨name', ?_⟩
    rw [List.filterMap_cons, List.filterMap_nil, Action.without] at hrun
    rw [Instruction.without]
    cases hgoes : step.goes gone with
    | true =>
      simp only [hgoes, if_true, run_nil] at hrun
      exact hrun
    | false =>
      simp only [hgoes] at hrun
      exact hrun

end Spares

/-- A script comes to the same without some of its waiters. -/
theorem exists_spares (gone : String → Bool) (script : List Instruction) :
    ∃ name,
      (play script).Spares gone name (play (script.filterMap (Instruction.without gone))) := by
  induction script using List.reverseRecOn with
  | nil => exact ⟨_, spares_empty gone⟩
  | append_singleton script c ih =>
    obtain ⟨name, h⟩ := ih
    obtain ⟨name', hobey⟩ := h.obey (prompt_play _) (prompt_play _) c
    refine ⟨name', ?_⟩
    have hlast : play ((script ++ [c]).filterMap (Instruction.without gone)) =
        (c.without gone).elim (play (script.filterMap (Instruction.without gone)))
          (play (script.filterMap (Instruction.without gone))).obey := by
      rw [List.filterMap_append, List.filterMap_cons, List.filterMap_nil, play, List.foldl_append]
      cases c.without gone <;> rfl
    rw [hlast, play, List.foldl_concat]
    exact hobey

/-! ## The script waits itself -/

/-- Lets everything happen up to a moment. -/
def reach (s : Scene) (time : Nat) : Scene := (Timed.passUntil s (fun _ => false) time).drain

lemma Prompt.reach_now (h : s.Prompt) : s.reach s.schedule.now = s.drain := by
  have hpass : Timed.passUntil s (fun _ => false) s.schedule.now = s.drain := by
    have hlate : ∀ a ∈ s.drain.schedule.alarms, s.schedule.now < a.time := fun a ha => by
      rw [← h.now_drain]
      exact h.drain.later a ha
    have hstay : s.drain.passTo s.schedule.now = s.drain := by
      rw [passTo_of_lt hlate, ← h.now_drain]
    have hpass : Passes (fun _ => false) s.schedule.now s (s.drain.passTo s.schedule.now) :=
      .arrives rfl (Nat.le_refl _) fun a ha => Nat.le_of_lt (hlate a ha)
    rw [hstay] at hpass
    exact (hpass.eq_passUntil h fun _ _ => rfl).symm
  rw [reach, hpass, drain_idle h.idle_drain]

lemma Prompt.reach_passTo (h : s.Prompt) (hnow : s.schedule.now ≤ moment) (hle : moment ≤ time)
    (hnext : ∀ a ∈ s.drain.schedule.alarms, moment ≤ a.time) :
    (s.drain.passTo moment).reach time = s.reach time := by
  have hprompt := h.drain.passTo (h.now_drain.trans_le hnow)
  rcases Nat.lt_or_eq_of_le hle with hlt | rfl
  · have hrest := hprompt.passes (fun _ => false) ((now_passTo _ _).trans_le hle)
    have hpass := Passes.goes (s := s) moment rfl hnow hlt hnext hrest
    rw [reach, hpass.eq_passUntil h fun _ _ => rfl, reach]
  · have hpass : Passes (fun _ => false) moment s (s.drain.passTo moment) := .arrives rfl hnow hnext
    have hreach := hprompt.reach_now
    rw [now_passTo] at hreach
    rw [hreach, hpass.eq_passUntil h fun _ _ => rfl, reach]

/-- Before the next alarm nothing happens. -/
lemma Prompt.reach_quiet (h : s.Prompt) (hnow : s.schedule.now ≤ moment)
    (hlate : ∀ a ∈ s.drain.schedule.alarms, moment < a.time) :
    (s.reach moment).promises = s.drain.promises := by
  have hreach := (h.drain.passTo (h.now_drain.trans_le hnow)).reach_now
  have hidle : (s.drain.passTo moment).schedule.ready = [] := by
    rw [passTo_of_lt hlate]
    exact h.idle_drain
  rw [now_passTo] at hreach
  rw [← h.reach_passTo hnow (Nat.le_refl _) fun a ha => Nat.le_of_lt (hlate a ha), hreach,
    drain_idle hidle]
  rfl

/-- Whatever time passes for, it comes to everything that happens meanwhile. -/
lemma Passes.drain_eq {u : Scene} (hp : Passes stop time s u) (h : s.Prompt)
    (hle : s.schedule.now ≤ time) :
    s.schedule.now ≤ u.schedule.now ∧ u.schedule.now ≤ time ∧
      u.drain = s.reach u.schedule.now := by
  induction hp with
  | stops =>
    rw [h.now_drain, h.reach_now, drain_idle h.idle_drain]
    exact ⟨Nat.le_refl _, hle, rfl⟩
  | arrives _ hnow hnext =>
    have hreach := (h.drain.passTo (h.now_drain.trans_le hnow)).reach_now
    rw [now_passTo] at hreach ⊢
    exact ⟨hnow, Nat.le_refl _, hreach.symm.trans (h.reach_passTo hnow (Nat.le_refl _) hnext)⟩
  | goes moment _ hnow hlt hnext _ ih =>
    obtain ⟨hnow', htime, hdrain⟩ := ih (h.drain.passTo (h.now_drain.trans_le hnow))
      ((now_passTo _ _).trans_le (Nat.le_of_lt hlt))
    rw [now_passTo] at hnow'
    exact ⟨hnow.trans hnow', htime, hdrain.trans (h.reach_passTo hnow hnow' hnext)⟩

lemma passWithin_none_succ (s : Scene) (fuel : Nat) (stop : Scene → Bool) :
    Timed.passWithin (fuel + 1) stop none s =
      if stop s.drain then s.drain
      else
        match s.drain.schedule.nextTime? with
        | some next => Timed.passWithin fuel stop none (s.drain.passTo next)
        | none => s.drain := by
  have hdrain : Timed.drain s = s.drain := rfl
  have hnext : Timed.nextTime? s.drain = s.drain.schedule.nextTime? := rfl
  simp only [Timed.passWithin, hdrain, hnext]
  cases s.drain.schedule.nextTime? <;> rfl

lemma Prompt.passWithin_drain_eq (h : s.Prompt) (stop : Scene → Bool) (fuel : Nat) :
    (Timed.passWithin fuel stop none s).Prompt ∧
      s.schedule.now ≤ (Timed.passWithin fuel stop none s).schedule.now ∧
      (Timed.passWithin fuel stop none s).drain =
        s.reach (Timed.passWithin fuel stop none s).schedule.now := by
  induction fuel generalizing s with
  | zero => exact ⟨h, Nat.le_refl _, h.reach_now.symm⟩
  | succ fuel ih =>
    have hend : s.drain.Prompt ∧ s.schedule.now ≤ s.drain.schedule.now ∧
        s.drain.drain = s.reach s.drain.schedule.now := by
      rw [h.now_drain, h.reach_now, drain_idle h.idle_drain]
      exact ⟨h.drain, Nat.le_refl _, rfl⟩
    rw [passWithin_none_succ]
    split
    · exact hend
    · cases hnext : s.drain.schedule.nextTime? with
      | none => exact hend
      | some next =>
        obtain ⟨hlt, hfirst⟩ := h.drain.nextTime?_eq_some hnext
        obtain ⟨hprompt, hle, hdrain⟩ := ih (h.drain.passTo (Nat.le_of_lt hlt))
        have hnow : s.schedule.now ≤ next := h.now_drain ▸ Nat.le_of_lt hlt
        rw [now_passTo] at hle
        exact ⟨hprompt, hnow.trans hle, hdrain.trans (h.reach_passTo hnow hle hfirst)⟩

/-- When the script waits itself, time passes, at most up to the limit, and that is all. -/
theorem Prompt.wait_eq (h : s.Prompt) (p : Id) (limit token : Option Nat) :
    ∃ ms, (∀ l, limit = some l → ms ≤ l) ∧ (s.wait p limit token).2 = Timed.advance s ms := by
  rw [wait]
  dsimp only
  split
  · exact ⟨0, fun _ _ => Nat.zero_le _, h.reach_now.symm⟩
  · cases limit with
    | some l =>
      have hpass := h.passes (fun s => (s.find? p none token).isSome) (Nat.le_add_right _ l)
      obtain ⟨hnow, htime, hdrain⟩ := hpass.drain_eq h (Nat.le_add_right _ _)
      obtain ⟨ms, hms⟩ := Nat.exists_eq_add_of_le hnow
      rw [hms] at hdrain htime
      refine ⟨ms, fun l' hl => ?_, hdrain⟩
      cases hl
      exact Nat.le_of_add_le_add_left htime
    | none =>
      obtain ⟨-, hnow, hdrain⟩ := h.passWithin_drain_eq (fun s => (s.find? p none token).isSome)
        (s.workLeft + s.schedule.alarms.length + 1)
      obtain ⟨ms, hms⟩ := Nat.exists_eq_add_of_le hnow
      rw [hms] at hdrain
      refine ⟨ms, fun l' hl => ?_, hdrain⟩
      cases hl

end Scene

end ConsensusLink.Promise
