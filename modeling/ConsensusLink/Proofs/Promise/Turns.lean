import ConsensusLink.Proofs.Promise.Tasks
import Mathlib.Data.Nat.Basic
import Mathlib.Order.Basic
/-!
# Tasks have their turns

A turn gets a task further: it begins, it ends, or it sets an alarm to go on later. When time passes
those are ready whose alarms have gone off. So whoever has something to do is always ready, and
giving turns comes to an end, with nobody ready; who still waits then has nothing to find.
-/

namespace ConsensusLink.Promise.Scene

variable {s : Scene} {agenda : List Action} {i : TaskId} {t : Task} {time : Nat}

/-! ## What a turn comes to -/

/-- Takes a task from those that are ready. -/
def take (s : Scene) (i : TaskId) : Scene :=
  { s with schedule := { s.schedule with ready := s.schedule.ready.erase i } }

/-- What a turn of a task that is ready comes to. -/
inductive Turned (s : Scene) (i : TaskId) : Scene → Prop
  /-- A program is put off. -/
  | defers (ms : Nat) (steps : List Step) (ht : s.tasks[i]? = some (.laterFresh ms steps))
      (hms : ms ≠ 0) :
      Turned s i
        { (s.take i).setTask i (.laterWaiting steps) with
          schedule := (s.take i).schedule.setAlarm i .pause ms }
  /-- A program is run. -/
  | runs (t : Task) (steps : List Step) (ht : s.tasks[i]? = some t)
      (hsteps : t = .laterFresh 0 steps ∨ t = .laterWaiting steps) :
      Turned s i ((s.take i).runLater i steps)
  /-- There is nothing to find yet. -/
  | waits (p : Id) (label : String) (limit token : Option Nat)
      (ht : s.tasks[i]? = some (.waiterFresh p label limit token))
      (hnone : s.find? p (limit.map (s.schedule.now + ·)) token = none) :
      Turned s i
        { (s.take i).setTask i (.waiting p label (limit.map (s.schedule.now + ·)) token) with
          schedule :=
            limit.elim (s.take i).schedule ((s.take i).schedule.setAlarm i .deadline ·) }
  /-- Something is found and reported. -/
  | reports (t : Task) (w : Waiter) (o : Outcome Int64) (ht : s.tasks[i]? = some t)
      (hw : t.waiter? s.schedule.now = some w)
      (ho : s.find? w.promise w.deadline w.token = some o) :
      Turned s i ((s.take i).report i w.label o)

lemma Prompt.turned (h : s.Prompt) (hi : i ∈ s.schedule.ready) :
    s.Turned i ((s.take i).turn i) := by
  obtain ⟨t, ht, hdue⟩ := (h.ready i).1 hi
  have htask : (s.take i).tasks[i]? = some t := ht
  rw [turn, htask]
  cases t with
  | laterFresh ms steps =>
    dsimp only
    split
    · rename_i hms
      exact .runs _ steps ht (.inl (hms ▸ rfl))
    · rename_i hms
      exact .defers ms steps ht hms
  | laterWaiting steps => exact .runs _ steps ht (.inr rfl)
  | waiterFresh p label limit token =>
    have hsame : (s.take i).find? p (limit.map (s.schedule.now + ·)) token =
        s.find? p (limit.map (s.schedule.now + ·)) token := rfl
    dsimp only
    split
    · rename_i o ho
      exact .reports _ ⟨p, label, limit.map (s.schedule.now + ·), token⟩ o ht rfl ho
    · rename_i hnone
      have := Turned.waits p label limit token ht hnone
      cases limit <;> exact this
  | waiting p label deadline token =>
    obtain ⟨o, ho⟩ := Option.isSome_iff_exists.1 hdue
    have hfind : (s.take i).find? p deadline token = some o := ho
    simp only [hfind]
    exact .reports _ ⟨p, label, deadline, token⟩ o ht rfl ho
  | finished => cases hdue

/-- The alarms after a task has gone on as another: those of the others, and at most one of its own,
which it expects. -/
structure Rearms (s : Scene) (i : TaskId) (t : Task) (alarms : List (Alarm TaskId)) : Prop where
  others : ∀ a : Alarm TaskId, a.owner ≠ i → (a ∈ alarms ↔ a ∈ s.schedule.alarms)
  own : ∀ a ∈ alarms, a.owner = i → t.expects a.time = true ∧ s.schedule.now < a.time
  armed : ∀ p label d token, t = .waiting p label (some d) token →
    ∃ a ∈ alarms, a.owner = i ∧ a.time = d
  sorted : alarms.Pairwise (·.time ≤ ·.time)
  single : (alarms.map (·.owner)).Nodup

/-- A task whose turn it was has gone on as another. -/
structure Replaces (s s' : Scene) (i : TaskId) (t : Task) (alarms : List (Alarm TaskId)) :
    Prop where
  promises : s'.promises = s.promises
  handles : s'.handles = s.handles
  tokens : s'.tokens = s.tokens
  tasks : s'.tasks = s.tasks.set i t
  schedule : s'.schedule = ⟨s.schedule.now, s.schedule.ready.erase i, alarms⟩

section

variable {s' : Scene} {alarms : List (Alarm TaskId)} {t' : Task}

lemma Replaces.find?_eq (hs : s.Replaces s' i t alarms) (p : Id) (deadline token : Option Nat) :
    s'.find? p deadline token = s.find? p deadline token := by
  have hcancelled : s'.isCancelled = s.isCancelled := by
    funext k
    rw [isCancelled, hs.tokens, isCancelled]
  rw [find?, hs.promises, hs.schedule, hcancelled, find?]

lemma Replaces.task_of_ne {j : TaskId} (hs : s.Replaces s' i t alarms) (hj : j ≠ i) :
    s'.tasks[j]? = s.tasks[j]? := by
  rw [hs.tasks, List.getElem?_set_ne (Ne.symm hj)]

lemma Replaces.task_cases {j : TaskId} (hs : s.Replaces s' i t alarms)
    (ht : s'.tasks[j]? = some t') : j = i ∧ t' = t ∨ j ≠ i ∧ s.tasks[j]? = some t' := by
  by_cases hj : j = i
  · subst hj
    rw [hs.tasks, List.getElem?_set_self'] at ht
    obtain ⟨_, -, rfl⟩ := Option.map_eq_some_iff.1 ht
    exact .inl ⟨rfl, rfl⟩
  · exact .inr ⟨hj, (hs.task_of_ne hj).symm.trans ht⟩

/-- Whether another task has something to do is as before. -/
lemma Replaces.isDue_of_ne {j : TaskId} (hs : s.Replaces s' i t alarms)
    (harms : s.Rearms i t alarms) (hj : j ≠ i) (t' : Task) : s'.isDue j t' = s.isDue j t' := by
  cases t' with
  | laterWaiting steps =>
    rw [Bool.eq_iff_iff]
    simp only [isDue, hs.schedule, List.all_eq_true, decide_eq_true_eq]
    have hown : ∀ a : Alarm TaskId, a.owner = j → (a ∈ alarms ↔ a ∈ s.schedule.alarms) :=
      fun a ha => harms.others a fun hc => hj (ha.symm.trans hc)
    exact ⟨fun h a ha hc => h a ((hown a hc).2 ha) hc, fun h a ha hc => h a ((hown a hc).1 ha) hc⟩
  | waiting p label deadline token => rw [isDue, hs.find?_eq, isDue]
  | _ => rfl

lemma Prompt.replace (h : s.Prompt) (hi : i ∈ s.schedule.ready) (hs : s.Replaces s' i t alarms)
    (harms : s.Rearms i t alarms) (hdue : s'.isDue i t = false)
    (htarget : ∀ p, t.promise? = some p → s.promises.Known p) : s'.Prompt := by
  refine ⟨?handles, ?targets, ?ready, ?once, ?later, ?sorted, ?single, ?set, ?armed⟩
  case handles =>
    rw [hs.handles, hs.promises]
    exact h.handles
  case targets =>
    intro j t' p ht' hp
    rw [hs.promises]
    obtain ⟨rfl, rfl⟩ | ⟨-, ht'⟩ := hs.task_cases ht'
    · exact htarget p hp
    · exact h.targets j t' p ht' hp
  case ready =>
    intro j
    rw [hs.schedule]
    refine (h.once.mem_erase_iff).trans ?_
    constructor
    · rintro ⟨hj, hready⟩
      obtain ⟨t', ht', hdue'⟩ := (h.ready j).1 hready
      exact ⟨t', (hs.task_of_ne hj).trans ht', (hs.isDue_of_ne harms hj t').trans hdue'⟩
    · rintro ⟨t', ht', hdue'⟩
      obtain ⟨rfl, rfl⟩ | ⟨hj, ht'⟩ := hs.task_cases ht'
      · cases hdue.symm.trans hdue'
      · exact ⟨hj, (h.ready j).2 ⟨t', ht', (hs.isDue_of_ne harms hj t').symm.trans hdue'⟩⟩
  case once =>
    rw [hs.schedule]
    exact h.once.erase i
  case later =>
    rw [hs.schedule]
    intro a ha
    by_cases hown : a.owner = i
    · exact (harms.own a ha hown).2
    · exact h.later a ((harms.others a hown).1 ha)
  case sorted =>
    rw [hs.schedule]
    exact harms.sorted
  case single =>
    rw [hs.schedule]
    exact harms.single
  case set =>
    rw [hs.schedule]
    intro a ha
    by_cases hown : a.owner = i
    · obtain ⟨t₀, ht₀, -⟩ := (h.ready i).1 hi
      refine ⟨t, ?_, (harms.own a ha hown).1⟩
      rw [hs.tasks, hown]
      exact List.getElem?_set_self (List.getElem?_eq_some_iff.1 ht₀).1
    · obtain ⟨t', ht', hexpects⟩ := h.set a ((harms.others a hown).1 ha)
      exact ⟨t', (hs.task_of_ne hown).trans ht', hexpects⟩
  case armed =>
    rw [hs.schedule]
    intro j p label d token ht' hd
    obtain ⟨rfl, rfl⟩ | ⟨hj, ht'⟩ := hs.task_cases ht'
    · exact harms.armed p label d token rfl
    · obtain ⟨a, ha, hown, htime⟩ := h.armed j p label d token ht' hd
      exact ⟨a, (harms.others a fun hc => hj (hown.symm.trans hc)).2 ha, hown, htime⟩

end

/-! The alarms of a task that has none, that sets one or that drops its own. -/

/-- A task that has no alarm set. -/
def Unarmed (s : Scene) (i : TaskId) : Prop := ∀ a ∈ s.schedule.alarms, a.owner ≠ i

/-- Only tasks that wait for some time have set an alarm. -/
lemma Prompt.unarmed (h : s.Prompt) (ht : s.tasks[i]? = some t)
    (hnot : ∀ time, t.expects time = false) : s.Unarmed i := by
  rintro a ha rfl
  obtain ⟨t', ht', hexpects⟩ := h.set a ha
  cases ht.symm.trans ht'
  cases (hnot a.time).symm.trans hexpects

lemma Prompt.rearms_none (h : s.Prompt) (hi : s.Unarmed i)
    (hwaits : ∀ p label d token, t ≠ .waiting p label (some d) token) :
    s.Rearms i t s.schedule.alarms where
  others _ _ := Iff.rfl
  own a ha hown := absurd hown (hi a ha)
  armed p label d token ht := absurd ht (hwaits p label d token)
  sorted := h.sorted
  single := h.single

lemma Prompt.rearms_drop (h : s.Prompt) (i : TaskId) :
    s.Rearms i .finished (s.schedule.dropAlarms i).alarms where
  others _ ha := List.mem_filter.trans (and_iff_left (decide_eq_true ha))
  own _ ha hown := absurd hown (of_decide_eq_true (List.mem_filter.1 ha).2)
  armed _ _ _ _ ht := nomatch ht
  sorted := h.sorted.filter _
  single := h.single.sublist (List.filter_sublist.map _)

lemma Prompt.rearms_set (h : s.Prompt) (hi : s.Unarmed i) (slot : AlarmSlot) {ms : Nat}
    (hms : ms ≠ 0) (hexpects : t.expects (s.schedule.now + ms) = true) :
    s.Rearms i t (s.schedule.setAlarm i slot ms).alarms where
  others a ha := Schedule.mem_insertAlarm.trans (or_iff_right fun hc => ha (hc ▸ rfl))
  own a ha hown := by
    obtain rfl | ha := Schedule.mem_insertAlarm.1 ha
    · exact ⟨hexpects, Nat.lt_add_of_pos_right (Nat.pos_of_ne_zero hms)⟩
    · exact absurd hown (hi a ha)
  armed p label d token ht := by
    subst ht
    refine ⟨_, Schedule.mem_insertAlarm.2 (.inl rfl), rfl, ?_⟩
    exact (Option.some.inj (of_decide_eq_true hexpects)).symm
  sorted := Schedule.pairwise_insertAlarm _ h.sorted
  single := by
    refine ((Schedule.perm_insertAlarm _ _).map _).nodup_iff.2 (List.nodup_cons.2 ⟨?_, h.single⟩)
    intro hmem
    obtain ⟨a, ha, hown⟩ := List.mem_map.1 hmem
    exact hi a ha hown

/-- Whose turn it is has set no alarm, unless he waits. -/
lemma Prompt.unarmed_of_ready (h : s.Prompt) (hi : i ∈ s.schedule.ready)
    (ht : s.tasks[i]? = some t) (hnot : ∀ p label d token, t ≠ .waiting p label d token) :
    s.Unarmed i := by
  obtain ⟨t', ht', hdue⟩ := (h.ready i).1 hi
  cases ht.symm.trans ht'
  cases t with
  | laterWaiting steps => exact fun a ha => of_decide_eq_true (List.all_eq_true.1 hdue a ha)
  | waiting p label d token => exact absurd rfl (hnot p label d token)
  | _ => exact h.unarmed ht fun _ => rfl

/-- A task that waits for no promise ends. -/
lemma Prompt.done (h : s.Prompt) (hi : i ∈ s.schedule.ready) (ht : s.tasks[i]? = some t)
    (hnone : t.promise? = none) : ((s.take i).setTask i .finished).Prompt := by
  have hunarmed : s.Unarmed i := h.unarmed_of_ready hi ht fun p label d token hc => by
    rw [hc] at hnone
    cases hnone
  have harms := h.rearms_none (t := .finished) hunarmed nofun
  exact h.replace hi ⟨rfl, rfl, rfl, rfl, rfl⟩ harms rfl nofun

/-- A turn leaves nobody with something to do who is not ready. -/
lemma Turned.prompt {s' : Scene} (ht : s.Turned i s') (h : s.Prompt) (hi : i ∈ s.schedule.ready) :
    s'.Prompt := by
  cases ht with
  | defers ms steps ht hms =>
    have harms := h.rearms_set (t := .laterWaiting steps) (h.unarmed_of_ready hi ht nofun) .pause
      hms rfl
    refine h.replace hi ⟨rfl, rfl, rfl, rfl, rfl⟩ harms ?_ nofun
    refine Bool.eq_false_iff.2 fun hdue => ?_
    have hall := List.all_eq_true.1 hdue _ (Schedule.mem_insertAlarm.2 (.inl rfl))
    exact of_decide_eq_true hall rfl
  | runs t steps ht hsteps =>
    refine (h.done hi ht ?_).run _
    rcases hsteps with rfl | rfl <;> rfl
  | waits p label limit token ht hnone =>
    have hunarmed := h.unarmed_of_ready hi ht nofun
    have htarget : ∀ q, (Task.waiting p label (limit.map (s.schedule.now + ·)) token).promise? =
        some q → s.promises.Known q := fun q hq => h.targets i _ q ht hq
    cases limit with
    | none =>
      have harms := h.rearms_none (t := .waiting p label none token) hunarmed nofun
      refine h.replace hi ⟨rfl, rfl, rfl, rfl, rfl⟩ harms ?_ htarget
      exact congrArg Option.isSome hnone
    | some ms =>
      have hms : ms ≠ 0 := by
        rintro rfl
        have hsome : (s.find? p (some s.schedule.now) token).isSome = true :=
          isSome_find?.2 (.inr (.inr (decide_eq_true (Nat.le_refl _))))
        exact Bool.false_ne_true ((congrArg Option.isSome hnone).symm.trans hsome)
      have harms := h.rearms_set (t := .waiting p label (some (s.schedule.now + ms)) token) hunarmed
        .deadline hms (decide_eq_true rfl)
      refine h.replace hi ⟨rfl, rfl, rfl, rfl, rfl⟩ harms ?_ htarget
      exact congrArg Option.isSome hnone
  | reports t w o ht hw ho =>
    exact h.replace hi ⟨rfl, rfl, rfl, rfl, rfl⟩ (h.rearms_drop i) rfl nofun

theorem Prompt.turn (h : s.Prompt) (hi : i ∈ s.schedule.ready) : ((s.take i).turn i).Prompt :=
  (h.turned hi).prompt h hi

/-- Time passes until a moment. -/
def passTo (s : Scene) (time : Nat) : Scene := { s with schedule := s.schedule.moveTo time }

@[simp] lemma now_passTo (s : Scene) (time : Nat) : (s.passTo time).schedule.now = time :=
  Schedule.now_moveTo _ _

@[simp] lemma alarms_passTo (s : Scene) (time : Nat) :
    (s.passTo time).schedule.alarms = s.schedule.alarms.filter (time < ·.time) :=
  Schedule.alarms_moveTo _ _

lemma isDue_passTo (hle : s.schedule.now ≤ time) (h : s.isDue i t = true) :
    (s.passTo time).isDue i t = true := by
  cases t with
  | laterFresh | waiterFresh => rfl
  | finished => cases h
  | laterWaiting steps =>
    rw [isDue, alarms_passTo]
    exact List.all_eq_true.2 fun a ha => List.all_eq_true.1 h a (List.mem_of_mem_filter ha)
  | waiting p label deadline token =>
    refine isSome_find?.2 ((isSome_find?.1 h).imp id (Or.imp id fun htime => ?_))
    obtain ⟨d, rfl, hd⟩ := (Option.any_eq_true _ _).1 htime
    rw [now_passTo]
    exact decide_eq_true ((of_decide_eq_true hd).trans hle)

/-- Whose alarm has gone off has something to do. -/
lemma Prompt.isDue_of_alarm (h : s.Prompt) {a : Alarm TaskId} (ha : a ∈ s.schedule.alarms)
    (htime : a.time ≤ time) :
    ∃ t, s.tasks[a.owner]? = some t ∧ (s.passTo time).isDue a.owner t = true := by
  obtain ⟨t, ht, hexpects⟩ := h.set a ha
  refine ⟨t, ht, ?_⟩
  cases t with
  | laterWaiting steps =>
    rw [isDue, alarms_passTo]
    refine List.all_eq_true.2 fun b hb => decide_eq_true fun hown => ?_
    obtain ⟨hb, hlate⟩ := List.mem_filter.1 hb
    obtain rfl := List.inj_on_of_nodup_map h.single hb ha hown
    exact Nat.not_lt.2 htime (of_decide_eq_true hlate)
  | waiting p label deadline token =>
    obtain rfl : deadline = some a.time := of_decide_eq_true hexpects
    refine isSome_find?.2 (.inr (.inr ?_))
    rw [now_passTo]
    exact decide_eq_true htime
  | _ => cases hexpects

/-- Who has something to do after some time had it before, or his alarm has gone off. -/
lemma Prompt.alarm_of_isDue (h : s.Prompt) (ht : s.tasks[i]? = some t)
    (hdue : (s.passTo time).isDue i t = true) :
    i ∈ s.schedule.ready ∨ ∃ a ∈ s.schedule.alarms, a.time ≤ time ∧ a.owner = i := by
  by_cases hbefore : s.isDue i t = true
  · exact .inl ((h.ready i).2 ⟨t, ht, hbefore⟩)
  · refine .inr ?_
    cases t with
    | laterFresh | waiterFresh => exact absurd rfl hbefore
    | finished => cases hdue
    | laterWaiting steps =>
      rw [isDue, alarms_passTo] at hdue
      rw [isDue, List.all_eq_true] at hbefore
      push Not at hbefore
      obtain ⟨a, ha, hown⟩ := hbefore
      have hown : a.owner = i := not_not.1 fun hc => hown (decide_eq_true hc)
      refine ⟨a, ha, Nat.not_lt.1 fun hlate => ?_, hown⟩
      have hstill := List.all_eq_true.1 hdue a (List.mem_filter.2 ⟨ha, decide_eq_true hlate⟩)
      exact of_decide_eq_true hstill hown
    | waiting p label deadline token =>
      have hnone := mt isSome_find?.2 hbefore
      rw [not_or, not_or] at hnone
      obtain ⟨houtcome, hcancelled, htime⟩ := hnone
      rcases isSome_find?.1 hdue with ho | hc | hd
      · exact absurd ho houtcome
      · exact absurd hc hcancelled
      · obtain ⟨d, rfl, hd⟩ := (Option.any_eq_true _ _).1 hd
        have hd : d ≤ time := now_passTo s time ▸ of_decide_eq_true hd
        have hlate : s.schedule.now < d := Nat.not_le.1 fun hc => htime (decide_eq_true hc)
        obtain ⟨a, ha, hown, rfl⟩ := h.armed i p label d token ht hlate
        exact ⟨a, ha, hd, hown⟩

/-- Time passes: whose time is up is made ready. -/
theorem Prompt.passTo (h : s.Prompt) (hle : s.schedule.now ≤ time) : (s.passTo time).Prompt where
  handles := h.handles
  targets := h.targets
  ready i := by
    refine (Schedule.ready_moveTo s.schedule time).trans ⟨?_, fun ⟨t, ht, hdue⟩ => ?_⟩
    · rintro (hi | ⟨a, ha, htime, rfl⟩)
      · obtain ⟨t, ht, hdue⟩ := (h.ready i).1 hi
        exact ⟨t, ht, isDue_passTo hle hdue⟩
      · exact h.isDue_of_alarm ha htime
    · exact h.alarm_of_isDue ht hdue
  once := Schedule.nodup_ready_wakeAll (s := { s.schedule with now := time, alarms := _ }) h.once _
  later a ha := by
    rw [alarms_passTo] at ha
    rw [now_passTo]
    exact of_decide_eq_true (List.mem_filter.1 ha).2
  sorted := by
    rw [alarms_passTo]
    exact h.sorted.filter _
  single := by
    rw [alarms_passTo]
    exact h.single.sublist (List.filter_sublist.map _)
  set a ha := by
    rw [alarms_passTo] at ha
    exact h.set a (List.mem_of_mem_filter ha)
  armed i p label d token ht hd := by
    rw [now_passTo] at hd
    obtain ⟨a, ha, hown, htime⟩ := h.armed i p label d token ht (hle.trans_lt hd)
    refine ⟨a, ?_, hown, htime⟩
    rw [alarms_passTo]
    exact List.mem_filter.2 ⟨ha, decide_eq_true (htime ▸ hd)⟩

/-! ## Turns come to an end -/

/-- How much tasks may still do. -/
def taskSizes (s : Scene) : Nat := (s.tasks.map Task.size).sum

lemma workLeft_eq (s : Scene) : s.workLeft = s.promises.size + s.taskSizes := by
  rw [workLeft, pendingSize_eq]
  exact foldl_add Task.size _ _

/-- A task that is started is smaller than the action that starts it. -/
lemma size_spawns (s : Scene) (a : Action) :
    (s.deed a).size + Action.sizes (s.follows a) + ((s.spawns a).map Task.size).sum < a.size := by
  have hfollows := s.size_follows a
  have hnone : s.spawns a = [] → (s.deed a).size + Action.sizes (s.follows a) +
      ((s.spawns a).map Task.size).sum < a.size := by
    intro h
    rw [h]
    exact hfollows
  cases a with
  | perform origin step =>
    cases step with
    | waiter n label limit token =>
      cases hn : s.id? n with
      | none => exact hnone (by simp [spawns, hn])
      | some p =>
        simp [spawns, hn, deed, Deed.size, follows, Action.size, Step.size, Task.size]
    | later ms steps =>
      simp only [spawns, deed, Deed.size, follows, Action.sizes_cons, Action.sizes_nil, Action.size,
        Step.size, Task.size, List.map_cons, List.map_nil, List.sum_cons, List.sum_nil]
      omega
    | _ => exact hnone rfl
  | _ => exact hnone rfl

/-- Every action leaves less to do, its tasks counted. -/
lemma workLeft_act_lt (s : Scene) (a : Action) (rest : List Action) :
    (s.act a).2.workLeft + Action.sizes ((s.act a).1 ++ rest) <
      s.workLeft + Action.sizes (a :: rest) := by
  obtain ⟨hactions, hpromises⟩ := s.act_eq a
  have hruns := size_runs (s.deed a) (s.base a)
  have hbase := s.size_base a
  have hspawns := s.size_spawns a
  have htasks : (s.act a).2.taskSizes = s.taskSizes + ((s.spawns a).map Task.size).sum := by
    rw [taskSizes, (s.stirs_act a).tasks, List.map_append, List.sum_append, taskSizes]
  rw [workLeft_eq, workLeft_eq, htasks, hactions, hpromises, Action.sizes_append,
    Action.sizes_append, Action.sizes_cons]
  omega

lemma workLeft_run_le (s : Scene) (agenda : List Action) :
    (s.run agenda).workLeft ≤ s.workLeft + Action.sizes agenda := by
  have hle : (s.run agenda).workLeft + Action.sizes [] ≤ s.workLeft + Action.sizes agenda := by
    refine run_induct (motive := fun rest s' => s'.workLeft + Action.sizes rest ≤
      s.workLeft + Action.sizes agenda) (fun a rest s' h => ?_) (Nat.le_refl _)
    exact (Nat.le_of_lt (s'.workLeft_act_lt a rest)).trans h
  exact (Nat.le_add_right _ _).trans hle

/-- A task goes on as another one. -/
lemma workLeft_set {s' : Scene} (ht : s.tasks[i]? = some t) (t' : Task)
    (hpromises : s'.promises = s.promises) (htasks : s'.tasks = s.tasks.set i t') :
    s'.workLeft + t.size = s.workLeft + t'.size := by
  have hsum := sum_map_set Task.size ht t'
  rw [workLeft_eq, workLeft_eq, hpromises, taskSizes, taskSizes, htasks]
  omega

lemma workLeft_set_lt {s' : Scene} (ht : s.tasks[i]? = some t) (t' : Task)
    (hpromises : s'.promises = s.promises) (htasks : s'.tasks = s.tasks.set i t')
    (hlt : t'.size < t.size) : s'.workLeft < s.workLeft := by
  have hset := workLeft_set ht t' hpromises htasks
  omega

/-- Every turn leaves less to do. -/
lemma Turned.workLeft_lt {s' : Scene} (h : s.Turned i s') : s'.workLeft < s.workLeft := by
  cases h with
  | defers ms steps ht hms =>
    refine workLeft_set_lt ht (.laterWaiting steps) rfl rfl ?_
    simp [Task.size]
  | runs t steps ht hsteps =>
    have hset : ((s.take i).setTask i .finished).workLeft + t.size = s.workLeft + 0 :=
      workLeft_set ht .finished rfl rfl
    refine Nat.lt_of_le_of_lt (workLeft_run_le _ _) ?_
    rw [Action.sizes_perform]
    rcases hsteps with rfl | rfl
    all_goals
      simp only [Task.size] at hset
      omega
  | waits p label limit token ht hnone =>
    exact workLeft_set_lt ht (.waiting p label _ token) rfl rfl (Nat.lt_succ_self _)
  | reports t w o ht hw ho =>
    refine workLeft_set_lt ht .finished rfl rfl ?_
    cases t with
    | waiterFresh | waiting => simp [Task.size]
    | _ => cases hw

/-! ## Everything that can happen -/

lemma drainWithin_idle (hnone : s.schedule.ready = []) (fuel : Nat) :
    s.drainWithin fuel = s := by
  cases fuel with
  | zero => rfl
  | succ fuel => rw [drainWithin, Schedule.next?, hnone]

lemma drainWithin_succ {rest : List TaskId} (hnext : s.schedule.ready = i :: rest) (fuel : Nat) :
    s.drainWithin (fuel + 1) = ((s.take i).turn i).drainWithin fuel := by
  have htake : s.take i = { s with schedule := { s.schedule with ready := rest } } := by
    rw [take, hnext, List.erase_cons_head]
  rw [drainWithin, Schedule.next?, hnext, htake]

/-- The bound does not matter if it exceeds what there is to do. -/
lemma Prompt.drainWithin_eq (h : s.Prompt) {fuel fuel' : Nat} (hlt : s.workLeft < fuel)
    (hlt' : s.workLeft < fuel') : s.drainWithin fuel = s.drainWithin fuel' := by
  induction fuel generalizing s fuel' with
  | zero => exact absurd hlt (Nat.not_lt_zero _)
  | succ fuel ih =>
    obtain ⟨fuel', rfl⟩ := Nat.exists_eq_succ_of_ne_zero (Nat.ne_zero_of_lt hlt')
    cases hready : s.schedule.ready with
    | nil => rw [drainWithin_idle hready, drainWithin_idle hready]
    | cons i rest =>
      have hi : i ∈ s.schedule.ready := hready ▸ List.mem_cons_self
      have hless := (h.turned hi).workLeft_lt
      rw [drainWithin_succ hready, drainWithin_succ hready]
      exact ih (h.turn hi) (by omega) (by omega)

lemma drain_idle (hnone : s.schedule.ready = []) : s.drain = s := drainWithin_idle hnone _

/-- Everything that can happen is the next turn, and then everything that can happen. -/
theorem Prompt.drain_cons (h : s.Prompt) {rest : List TaskId}
    (hnext : s.schedule.ready = i :: rest) :
    s.drain = ((s.take i).turn i).drain := by
  have hi : i ∈ s.schedule.ready := hnext ▸ List.mem_cons_self
  have hless := (h.turned hi).workLeft_lt
  rw [drain, drainWithin_succ hnext, drain]
  exact (h.turn hi).drainWithin_eq (by omega) (by omega)

/-- What every turn preserves holds at the end, when nobody is ready. -/
theorem Prompt.drain_induct {motive : Scene → Prop}
    (hturn : ∀ s i, Prompt s → i ∈ s.schedule.ready → motive s → motive ((s.take i).turn i))
    (h : s.Prompt) (hs : motive s) :
    s.drain.schedule.ready = [] ∧ s.drain.Prompt ∧ motive s.drain := by
  induction hn : s.workLeft using Nat.strongRecOn generalizing s with
  | _ n ih =>
    cases hready : s.schedule.ready with
    | nil =>
      rw [drain_idle hready]
      exact ⟨hready, h, hs⟩
    | cons i rest =>
      have hi : i ∈ s.schedule.ready := hready ▸ List.mem_cons_self
      rw [h.drain_cons hready]
      exact ih _ (hn ▸ (h.turned hi).workLeft_lt) (h.turn hi) (hturn s i h hi hs) rfl

/-! ## Time -/

lemma now_run (s : Scene) (agenda : List Action) :
    (s.run agenda).schedule.now = s.schedule.now := by
  refine run_induct (motive := fun _ s' => s'.schedule.now = s.schedule.now) ?_ rfl
  intro a rest s' h
  exact (now_act s' a).trans h

/-- Turns take no time. -/
lemma Turned.now_eq {s' : Scene} (h : s.Turned i s') : s'.schedule.now = s.schedule.now := by
  cases h with
  | runs t steps => exact now_run _ _
  | waits p label limit => cases limit <;> rfl
  | defers | reports => rfl

lemma Prompt.idle_drain (h : s.Prompt) : s.drain.schedule.ready = [] :=
  (h.drain_induct (motive := fun _ => True) (fun _ _ _ _ _ => trivial) trivial).1

lemma Prompt.drain (h : s.Prompt) : s.drain.Prompt :=
  (h.drain_induct (motive := fun _ => True) (fun _ _ _ _ _ => trivial) trivial).2.1

lemma Prompt.now_drain (h : s.Prompt) : s.drain.schedule.now = s.schedule.now :=
  (h.drain_induct (motive := fun s' => s'.schedule.now = s.schedule.now)
    (fun _ _ hs hi hnow => (hs.turned hi).now_eq.trans hnow) rfl).2.2

/-- The next alarm is later, and none comes before it. -/
lemma Prompt.nextTime?_eq_some (h : s.Prompt) {next : Nat}
    (hnext : s.schedule.nextTime? = some next) :
    s.schedule.now < next ∧ ∀ a ∈ s.schedule.alarms, next ≤ a.time := by
  have hlater := h.later
  have hsorted := h.sorted
  rw [Schedule.nextTime?] at hnext
  cases halarms : s.schedule.alarms with
  | nil =>
    rw [halarms] at hnext
    cases hnext
  | cons a rest =>
    rw [halarms] at hnext hlater hsorted
    obtain rfl : a.time = next := Option.some.inj hnext
    refine ⟨hlater a List.mem_cons_self, fun b hb => ?_⟩
    rcases List.mem_cons.1 hb with rfl | hb
    · exact Nat.le_refl _
    · exact (List.pairwise_cons.1 hsorted).1 b hb

lemma passWithin_succ (s : Scene) (fuel : Nat) (stop : Scene → Bool) (time : Nat) :
    Timed.passWithin (fuel + 1) stop (some time) s =
      if stop s.drain then s.drain
      else
        match s.drain.schedule.nextTime? with
        | some next =>
          if next < time then Timed.passWithin fuel stop (some time) (s.drain.passTo next)
          else s.drain.passTo time
        | none => s.drain.passTo time := by
  have hdrain : Timed.drain s = s.drain := rfl
  have hnext : Timed.nextTime? s.drain = s.drain.schedule.nextTime? := rfl
  simp only [Timed.passWithin, hdrain, hnext]
  cases s.drain.schedule.nextTime? <;> rfl

/-- The bound does not matter if it exceeds the time that is to pass. -/
lemma Prompt.passWithin_eq (h : s.Prompt) (stop : Scene → Bool) {fuel fuel' : Nat}
    (hlt : time - s.schedule.now < fuel) (hlt' : time - s.schedule.now < fuel') :
    Timed.passWithin fuel stop (some time) s = Timed.passWithin fuel' stop (some time) s := by
  induction fuel generalizing s fuel' with
  | zero => exact absurd hlt (Nat.not_lt_zero _)
  | succ fuel ih =>
    obtain ⟨fuel', rfl⟩ := Nat.exists_eq_succ_of_ne_zero (Nat.ne_zero_of_lt hlt')
    rw [passWithin_succ, passWithin_succ]
    cases hnext : s.drain.schedule.nextTime? with
    | none => rfl
    | some next =>
      obtain ⟨hnow, -⟩ := h.drain.nextTime?_eq_some hnext
      have hsame := h.now_drain
      have hpass := h.drain.passTo (Nat.le_of_lt hnow)
      dsimp only
      by_cases hle : next < time
      · have hless : time - (s.drain.passTo next).schedule.now < time - s.schedule.now := by
          rw [now_passTo]
          omega
        have hfuel : time - (s.drain.passTo next).schedule.now < fuel' := by omega
        rw [if_pos hle, if_pos hle, ih hpass (by omega) hfuel]
      · rw [if_neg hle, if_neg hle]

/-- Time passes from alarm to alarm. -/
theorem Prompt.passUntil_eq (h : s.Prompt) (stop : Scene → Bool) (time : Nat) :
    Timed.passUntil s stop time =
      if stop s.drain then s.drain
      else
        match s.drain.schedule.nextTime? with
        | some next =>
          if next < time then Timed.passUntil (s.drain.passTo next) stop time
          else s.drain.passTo time
        | none => s.drain.passTo time := by
  have hpass : ∀ s : Scene, Timed.passUntil s stop time =
      Timed.passWithin (time - s.schedule.now + 1) stop (some time) s := fun _ => rfl
  rw [hpass, passWithin_succ]
  cases hnext : s.drain.schedule.nextTime? with
  | none => rfl
  | some next =>
    obtain ⟨hnow, -⟩ := h.drain.nextTime?_eq_some hnext
    have hsame := h.now_drain
    dsimp only
    by_cases hle : next < time
    · have hless : time - (s.drain.passTo next).schedule.now < time - s.schedule.now := by
        rw [now_passTo]
        omega
      rw [if_pos hle, if_pos hle, hpass]
      rw [(h.drain.passTo (Nat.le_of_lt hnow)).passWithin_eq stop hless (Nat.lt_succ_self _)]
    · rw [if_neg hle, if_neg hle]

/-- Time passes until a moment, unless it stops earlier, in any steps that leave out no alarm. -/
inductive Passes (stop : Scene → Bool) (time : Nat) : Scene → Scene → Prop
  /-- It stops. -/
  | stops {s : Scene} (hstop : stop s.drain = true) : Passes stop time s s.drain
  /-- The moment has come. -/
  | arrives {s : Scene} (hstop : stop s.drain = false) (hnow : s.schedule.now ≤ time)
      (hnext : ∀ a ∈ s.drain.schedule.alarms, time ≤ a.time) :
      Passes stop time s (s.drain.passTo time)
  /-- Some time passes first. -/
  | goes {s s' : Scene} (moment : Nat) (hstop : stop s.drain = false)
      (hnow : s.schedule.now ≤ moment) (hlt : moment < time)
      (hnext : ∀ a ∈ s.drain.schedule.alarms, moment ≤ a.time)
      (hrest : Passes stop time (s.drain.passTo moment) s') : Passes stop time s s'

lemma Prompt.passes (h : s.Prompt) (stop : Scene → Bool) (hle : s.schedule.now ≤ time) :
    Passes stop time s (Timed.passUntil s stop time) := by
  induction hn : time - s.schedule.now using Nat.strongRecOn generalizing s with
  | _ n ih =>
    rw [h.passUntil_eq]
    have hsame := h.now_drain
    split
    · rename_i hstop
      exact .stops hstop
    · rename_i hstop
      have hstop : stop s.drain = false := Bool.eq_false_iff.2 hstop
      cases hnext : s.drain.schedule.nextTime? with
      | none =>
        refine .arrives hstop hle fun a ha => ?_
        rw [Schedule.nextTime?, Option.map_eq_none_iff, List.head?_eq_none_iff] at hnext
        rw [hnext] at ha
        cases ha
      | some next =>
        obtain ⟨hnow, hfirst⟩ := h.drain.nextTime?_eq_some hnext
        dsimp only
        split
        · rename_i hlt
          refine .goes next hstop (by omega) hlt hfirst ?_
          have hprompt := h.drain.passTo (Nat.le_of_lt hnow)
          refine ih (time - next) (by omega) hprompt ?_ ?_
          · rw [now_passTo]
            exact Nat.le_of_lt hlt
          · rw [now_passTo]
        · rename_i hge
          exact .arrives hstop hle fun a ha => (Nat.not_lt.1 hge).trans (hfirst a ha)

lemma Passes.prompt {stop : Scene → Bool} {s' : Scene} (hp : Passes stop time s s') (h : s.Prompt) :
    s'.Prompt := by
  induction hp with
  | stops => exact h.drain
  | arrives _ hnow => exact h.drain.passTo (h.now_drain.trans_le hnow)
  | goes moment _ hnow _ _ _ ih => exact ih (h.drain.passTo (h.now_drain.trans_le hnow))

/-- Before the next alarm only the clock moves. -/
lemma passTo_of_lt (hlate : ∀ a ∈ s.schedule.alarms, time < a.time) :
    s.passTo time = { s with schedule := { s.schedule with now := time } } := by
  have hdue : s.schedule.alarms.filter (·.time ≤ time) = [] :=
    List.filter_eq_nil_iff.2 fun a ha hc => Nat.not_le.2 (hlate a ha) (of_decide_eq_true hc)
  have hstay : s.schedule.alarms.filter (time < ·.time) = s.schedule.alarms :=
    List.filter_eq_self.2 fun a ha => decide_eq_true (hlate a ha)
  rw [Scene.passTo, Schedule.moveTo, hdue, hstay]
  rfl

/-- It makes no difference to stop at a moment on the way. -/
lemma Prompt.passUntil_passTo (h : s.Prompt) {stop : Scene → Bool}
    (hclock : ∀ (s : Scene) time, stop (s.passTo time) = stop s) {moment : Nat}
    (hidle : s.schedule.ready = []) (hstop : stop s = false) (hnow : s.schedule.now ≤ moment)
    (hlt : moment < time) (hnext : ∀ a ∈ s.schedule.alarms, moment ≤ a.time) :
    Timed.passUntil (s.passTo moment) stop time = Timed.passUntil s stop time := by
  rw [h.passUntil_eq, drain_idle hidle, if_neg (Bool.eq_false_iff.1 hstop)]
  by_cases hat : ∃ a ∈ s.schedule.alarms, a.time = moment
  · -- the moment is that of the next alarm
    obtain ⟨a, ha, rfl⟩ := hat
    cases hfirst : s.schedule.nextTime? with
    | none =>
      rw [Schedule.nextTime?, Option.map_eq_none_iff, List.head?_eq_none_iff] at hfirst
      rw [hfirst] at ha
      cases ha
    | some next =>
      obtain ⟨b, hb, rfl⟩ := Option.map_eq_some_iff.1 hfirst
      have hle := (h.nextTime?_eq_some hfirst).2 a ha
      have hsame : b.time = a.time := Nat.le_antisymm hle (hnext b (List.mem_of_head? hb))
      rw [hsame]
      exact (if_pos hlt).symm
  · have hlate : ∀ a ∈ s.schedule.alarms, moment < a.time := fun a ha =>
      Nat.lt_of_le_of_ne (hnext a ha) fun hc => hat ⟨a, ha, hc.symm⟩
    have hprompt := h.passTo hnow
    have hstop' : stop (s.passTo moment) = false := (hclock s moment).trans hstop
    have hidle' : (s.passTo moment).schedule.ready = [] := by
      rw [passTo_of_lt hlate]
      exact hidle
    rw [hprompt.passUntil_eq, drain_idle hidle', if_neg (Bool.eq_false_iff.1 hstop'),
      passTo_of_lt hlate]
    rfl

/-- However time passes, it comes to the same. -/
theorem Passes.eq_passUntil {stop : Scene → Bool} {s' : Scene} (hp : Passes stop time s s')
    (h : s.Prompt) (hclock : ∀ (s : Scene) time, stop (s.passTo time) = stop s) :
    s' = Timed.passUntil s stop time := by
  induction hp with
  | @stops s hstop => rw [h.passUntil_eq, if_pos hstop]
  | @arrives s hstop hnow hnext =>
    rw [h.passUntil_eq, if_neg (Bool.eq_false_iff.1 hstop)]
    cases hfirst : s.drain.schedule.nextTime? with
    | none => rfl
    | some next =>
      obtain ⟨b, hb, rfl⟩ := Option.map_eq_some_iff.1 hfirst
      exact (if_neg (Nat.not_lt.2 (hnext b (List.mem_of_head? hb)))).symm
  | @goes s s' moment hstop hnow hlt hnext _ ih =>
    have hsame := h.now_drain
    have hnow' : s.drain.schedule.now ≤ moment := hsame.trans_le hnow
    rw [ih (h.drain.passTo hnow'),
      h.drain.passUntil_passTo hclock h.idle_drain hstop hnow' hlt hnext,
      h.drain.passUntil_eq, drain_idle h.idle_drain, h.passUntil_eq]

end ConsensusLink.Promise.Scene
