import ConsensusLink.Schedule
import Mathlib.Data.List.Basic
import Mathlib.Tactic.Common
/-!
# Schedules under other names

Tasks may be given other names, or none. A schedule without those who have none, and with the others
under their other names, goes on as the schedule itself: who is made ready, whose alarm is set,
dropped or goes off, stays the same but for the names.
-/

namespace ConsensusLink

lemma filterMap_filter_comm {α β : Type} {f : α → Option β} {p : α → Bool} {q : β → Bool}
    (h : ∀ a b, f a = some b → q b = p a) (l : List α) :
    (l.filter p).filterMap f = (l.filterMap f).filter q := by
  rw [List.filterMap_filter, List.filter_filterMap]
  refine List.filterMap_congr fun a _ => ?_
  cases hf : f a with
  | none => exact ite_self _
  | some b => rw [Option.filter_some, h a b hf]

/-- To leave out what comes to nothing changes nothing. -/
lemma filterMap_filter_of_none {α β : Type} {f : α → Option β} {p : α → Bool}
    (h : ∀ a, p a = false → f a = none) (l : List α) :
    (l.filter p).filterMap f = l.filterMap f := by
  rw [List.filterMap_filter]
  refine List.filterMap_congr fun a _ => ?_
  cases hp : p a with
  | true => rfl
  | false => exact (h a hp).symm

variable {τ σ : Type}

/-- An alarm under another name of its owner, if he has one. -/
def Alarm.rename (name : τ → Option σ) (a : Alarm τ) : Option (Alarm σ) :=
  (name a.owner).map fun owner => ⟨a.time, owner, a.slot⟩

namespace Schedule

/-- A schedule under other names, without those who have none. -/
def rename (name : τ → Option σ) (s : Schedule τ) : Schedule σ :=
  ⟨s.now, s.ready.filterMap name, s.alarms.filterMap (Alarm.rename name)⟩

/-- Nobody has the other name of somebody else. -/
def Distinct (name : τ → Option σ) : Prop :=
  ∀ t t' j, name t = some j → name t' = some j → t = t'

variable {name : τ → Option σ} {s : Schedule τ} {t : τ} {j : σ}
  {a : Alarm τ} {a' : Alarm σ} {l : List (Alarm τ)}

/-! ## Alarms under other names -/

lemma mem_filterMap_name (h : Distinct name) (ht : name t = some j) {l : List τ} :
    j ∈ l.filterMap name ↔ t ∈ l := by
  rw [List.mem_filterMap]
  exact ⟨fun ⟨t', ht', hj⟩ => h t' t j hj ht ▸ ht', fun hmem => ⟨t, hmem, ht⟩⟩

lemma rename_alarm (h : a.rename name = some a') :
    name a.owner = some a'.owner ∧ a'.time = a.time := by
  obtain ⟨j, hj, rfl⟩ := Option.map_eq_some_iff.1 h
  exact ⟨hj, rfl⟩

/-- An alarm before all others. -/
lemma insertAlarm_of_lt (h : ∀ b ∈ l, a.time < b.time) : insertAlarm a l = a :: l := by
  cases l with
  | nil => rfl
  | cons b l => rw [insertAlarm, if_neg (Nat.not_le.2 (h b List.mem_cons_self))]

lemma filterMap_insertAlarm (ha : a.rename name = some a') (hl : l.Pairwise (·.time ≤ ·.time)) :
    (insertAlarm a l).filterMap (Alarm.rename name) =
      insertAlarm a' (l.filterMap (Alarm.rename name)) := by
  have htime := (rename_alarm ha).2
  induction l with
  | nil => rw [insertAlarm, List.filterMap_cons_some ha, List.filterMap_nil, insertAlarm]
  | cons b l ih =>
    obtain ⟨hb, hl⟩ := List.pairwise_cons.1 hl
    rw [insertAlarm]
    split
    · rename_i hle
      cases hr : b.rename name with
      | none => rw [List.filterMap_cons_none hr, List.filterMap_cons_none hr, ih hl]
      | some b' =>
        have hle' : b'.time ≤ a'.time := by rwa [(rename_alarm hr).2, htime]
        rw [List.filterMap_cons_some hr, List.filterMap_cons_some hr, insertAlarm, if_pos hle',
          ih hl]
    · rename_i hlt
      rw [List.filterMap_cons_some ha, insertAlarm_of_lt]
      intro c' hc'
      obtain ⟨c, hc, hrename⟩ := List.mem_filterMap.1 hc'
      have hle : b.time ≤ c.time := (List.mem_cons.1 hc).elim (fun he => he ▸ Nat.le_refl _) (hb c)
      rw [(rename_alarm hrename).2, htime]
      exact Nat.lt_of_lt_of_le (Nat.not_le.1 hlt) hle

lemma filterMap_insertAlarm_none (ha : a.rename name = none) :
    (insertAlarm a l).filterMap (Alarm.rename name) = l.filterMap (Alarm.rename name) := by
  induction l with
  | nil => rw [insertAlarm, List.filterMap_cons_none ha]
  | cons b l ih =>
    rw [insertAlarm]
    split
    · rw [List.filterMap_cons, ih, List.filterMap_cons]
    · rw [List.filterMap_cons_none ha]

lemma rename_setAlarm (ht : name t = some j) (hs : s.alarms.Pairwise (·.time ≤ ·.time))
    (slot : AlarmSlot) (ms : Nat) :
    (s.setAlarm t slot ms).rename name = (s.rename name).setAlarm j slot ms := by
  have ha : Alarm.rename name ⟨s.now + ms, t, slot⟩ = some ⟨s.now + ms, j, slot⟩ := by
    rw [Alarm.rename, ht, Option.map_some]
  rw [setAlarm, rename, filterMap_insertAlarm ha hs]
  rfl

lemma rename_setAlarm_none (ht : name t = none) (slot : AlarmSlot) (ms : Nat) :
    (s.setAlarm t slot ms).rename name = s.rename name := by
  have ha : Alarm.rename name ⟨s.now + ms, t, slot⟩ = none := by
    rw [Alarm.rename, ht, Option.map_none]
  rw [setAlarm, rename, filterMap_insertAlarm_none ha]
  rfl

/-! ## Being made ready under another name -/

variable [DecidableEq τ]

lemma rename_wake_none (ht : name t = none) : (s.wake t).rename name = s.rename name := by
  unfold wake
  split
  · rfl
  · simp only [rename, List.filterMap_append, List.filterMap_cons_none ht, List.filterMap_nil,
      List.append_nil]

lemma rename_dropAlarms_none (ht : name t = none) :
    (s.dropAlarms t).rename name = s.rename name := by
  rw [dropAlarms, rename, filterMap_filter_of_none]
  · rfl
  · intro a ha
    have hown : a.owner = t := not_not.1 (of_decide_eq_false ha)
    rw [Alarm.rename, hown, ht, Option.map_none]

variable [DecidableEq σ]

lemma rename_wake (h : Distinct name) (ht : name t = some j) :
    (s.wake t).rename name = (s.rename name).wake j := by
  have hmem : j ∈ (s.rename name).ready ↔ t ∈ s.ready := mem_filterMap_name h ht
  unfold wake
  by_cases hin : t ∈ s.ready
  · rw [if_pos hin, if_pos (hmem.2 hin)]
  · rw [if_neg hin, if_neg (mt hmem.1 hin)]
    simp only [rename, List.filterMap_append, List.filterMap_cons_some ht, List.filterMap_nil]

lemma rename_wakeAll (h : Distinct name) (ts : List τ) :
    (s.wakeAll ts).rename name = (s.rename name).wakeAll (ts.filterMap name) := by
  induction ts generalizing s with
  | nil => rfl
  | cons t ts ih =>
    refine (ih (s := s.wake t)).trans ?_
    cases ht : name t with
    | none => rw [List.filterMap_cons_none ht, rename_wake_none ht]
    | some j =>
      rw [List.filterMap_cons_some ht, rename_wake h ht]
      rfl

lemma rename_dropAlarms (h : Distinct name) (ht : name t = some j) :
    (s.dropAlarms t).rename name = (s.rename name).dropAlarms j := by
  rw [dropAlarms, rename, dropAlarms, filterMap_filter_comm (q := (·.owner ≠ j))]
  · rfl
  · intro a a' ha
    obtain ⟨howner, -⟩ := rename_alarm ha
    refine decide_eq_decide.2 (not_congr ⟨fun hj => ?_, fun hown => ?_⟩)
    · exact h _ _ j (hj ▸ howner) ht
    · rw [hown, ht] at howner
      exact (Option.some.inj howner).symm

lemma rename_moveTo (h : Distinct name) (time : Nat) :
    (s.moveTo time).rename name = (s.rename name).moveTo time := by
  have htime : ∀ (a : Alarm τ) (a' : Alarm σ), a.rename name = some a' →
      decide (a'.time ≤ time) = decide (a.time ≤ time) := fun a a' ha => by
    rw [(rename_alarm ha).2]
  have hlate : ∀ (a : Alarm τ) (a' : Alarm σ), a.rename name = some a' →
      decide (time < a'.time) = decide (time < a.time) := fun a a' ha => by
    rw [(rename_alarm ha).2]
  have hdue : ((s.alarms.filter (·.time ≤ time)).map Alarm.owner).filterMap name =
      ((s.rename name).alarms.filter (·.time ≤ time)).map Alarm.owner := by
    rw [rename, ← filterMap_filter_comm htime, List.filterMap_map, List.map_filterMap]
    refine List.filterMap_congr fun a _ => ?_
    rw [Alarm.rename, Option.map_map, Function.comp_apply]
    exact (congrFun Option.map_id _).symm
  rw [moveTo, rename_wakeAll h, hdue, moveTo]
  congr 1
  rw [rename, filterMap_filter_comm hlate]
  rfl

end Schedule

end ConsensusLink
