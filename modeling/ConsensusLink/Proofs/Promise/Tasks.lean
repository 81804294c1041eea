import ConsensusLink.Promise.Timeline
import ConsensusLink.Proofs.Promise.Performance
/-!
# Tasks that have something to do

A task of a scene has something to do when it has not begun, or when it waits and has something to
find. An action makes those ready to whom it brings something: it settles the promise for which they
wait, cancels their token, or starts them. So a task is ready exactly when it has something to do;
`Prompt` says so, and what is known of alarms.
-/

namespace ConsensusLink

namespace Schedule

variable {τ : Type} [DecidableEq τ] {s : Schedule τ} {t i : τ} {ts : List τ}

/-! ## Being made ready -/

lemma wake_eq (s : Schedule τ) (t : τ) :
    s.wake t = { s with ready := if t ∈ s.ready then s.ready else s.ready ++ [t] } := by
  unfold wake
  split <;> rfl

lemma wakeAll_eq (s : Schedule τ) (ts : List τ) :
    s.wakeAll ts = { s with ready := (s.wakeAll ts).ready } := by
  induction ts generalizing s with
  | nil => rfl
  | cons t ts ih =>
    have hrest := ih (s.wake t)
    rw [wake_eq] at hrest
    rw [wakeAll, List.foldl_cons, wake_eq]
    exact hrest

@[simp] lemma now_wakeAll (s : Schedule τ) (ts : List τ) : (s.wakeAll ts).now = s.now := by
  rw [wakeAll_eq]

@[simp] lemma alarms_wakeAll (s : Schedule τ) (ts : List τ) :
    (s.wakeAll ts).alarms = s.alarms := by
  rw [wakeAll_eq]

lemma mem_ready_wake : i ∈ (s.wake t).ready ↔ i ∈ s.ready ∨ i = t := by
  rw [wake_eq]
  dsimp only
  split
  · rename_i ht
    exact ⟨.inl, fun h => h.elim id (· ▸ ht)⟩
  · rw [List.mem_append, List.mem_singleton]

lemma mem_ready_wakeAll : i ∈ (s.wakeAll ts).ready ↔ i ∈ s.ready ∨ i ∈ ts := by
  induction ts generalizing s with
  | nil => simp [wakeAll]
  | cons t ts ih =>
    rw [wakeAll, List.foldl_cons]
    refine (ih (s := s.wake t)).trans ?_
    rw [mem_ready_wake, List.mem_cons, or_assoc]

lemma nodup_ready_wake (h : s.ready.Nodup) (t : τ) : (s.wake t).ready.Nodup := by
  rw [wake_eq]
  dsimp only
  split
  · exact h
  · rename_i ht
    exact List.nodup_append.2 ⟨h, List.nodup_singleton t, by
      rintro a ha b hb rfl
      exact ht (List.mem_singleton.1 hb ▸ ha)⟩

lemma nodup_ready_wakeAll (h : s.ready.Nodup) (ts : List τ) : (s.wakeAll ts).ready.Nodup := by
  induction ts generalizing s with
  | nil => exact h
  | cons t ts ih => exact ih (nodup_ready_wake h t)

/-! ## Alarms -/

omit [DecidableEq τ] in
lemma perm_insertAlarm (a : Alarm τ) (l : List (Alarm τ)) : (insertAlarm a l).Perm (a :: l) := by
  induction l with
  | nil => exact .refl _
  | cons b l ih =>
    rw [insertAlarm]
    split
    · exact (ih.cons b).trans (.swap a b l)
    · exact .refl _

omit [DecidableEq τ] in
lemma mem_insertAlarm {a b : Alarm τ} {l : List (Alarm τ)} :
    b ∈ insertAlarm a l ↔ b = a ∨ b ∈ l := (perm_insertAlarm a l).mem_iff.trans List.mem_cons

omit [DecidableEq τ] in
lemma pairwise_insertAlarm (a : Alarm τ) {l : List (Alarm τ)} (h : l.Pairwise (·.time ≤ ·.time)) :
    (insertAlarm a l).Pairwise (·.time ≤ ·.time) := by
  induction l with
  | nil => exact List.pairwise_singleton _ _
  | cons b l ih =>
    obtain ⟨hb, hl⟩ := List.pairwise_cons.1 h
    rw [insertAlarm]
    split
    · rename_i hle
      refine List.pairwise_cons.2 ⟨fun c hc => ?_, ih hl⟩
      exact (mem_insertAlarm.1 hc).elim (· ▸ hle) (hb c)
    · rename_i hlt
      refine List.pairwise_cons.2 ⟨fun c hc => ?_, h⟩
      have hle : a.time ≤ b.time := Nat.le_of_lt (Nat.not_le.1 hlt)
      exact (List.mem_cons.1 hc).elim (· ▸ hle) fun hc => Nat.le_trans hle (hb c hc)

lemma ready_moveTo (s : Schedule τ) (time : Nat) :
    i ∈ (s.moveTo time).ready ↔ i ∈ s.ready ∨ ∃ a ∈ s.alarms, a.time ≤ time ∧ a.owner = i := by
  rw [moveTo]
  refine mem_ready_wakeAll.trans (or_congr_right ?_)
  simp only [List.mem_map, List.mem_filter, decide_eq_true_eq, and_assoc]

@[simp] lemma now_moveTo (s : Schedule τ) (time : Nat) : (s.moveTo time).now = time :=
  now_wakeAll _ _

@[simp] lemma alarms_moveTo (s : Schedule τ) (time : Nat) :
    (s.moveTo time).alarms = s.alarms.filter (time < ·.time) := alarms_wakeAll _ _

end Schedule

namespace Promise

variable {s : Scene} {a : Action} {agenda : List Action} {i : TaskId} {t : Task} {p : Id}
  {o : Outcome Int64} {limit deadline token : Option Nat}

/-- Who waits for a promise. -/
def Task.waitsFor (p : Id) : Task → Bool
  | .waiting q .. => q = p
  | _ => false

/-- Who waits until a token is cancelled. -/
def Task.waitsUntil (token : Nat) : Task → Bool
  | .waiting _ _ _ (some k) => k = token
  | _ => false

/-- The promise that a task waits for, or is going to. -/
def Task.promise? : Task → Option Id
  | .waiterFresh p .. | .waiting p .. => some p
  | _ => none

/-- Who waits for a promise, and until when. -/
structure Waiter where
  /-- The promise. -/
  promise : Id
  /-- His label. -/
  label : String
  /-- When he gives up. -/
  deadline : Option Nat
  /-- The token whose cancellation makes him give up. -/
  token : Option Nat

/-- A task that waits, or begins to wait at a time. -/
def Task.waiter? (now : Nat) : Task → Option Waiter
  | .waiterFresh p label limit token => some ⟨p, label, limit.map (now + ·), token⟩
  | .waiting p label deadline token => some ⟨p, label, deadline, token⟩
  | _ => none

/-- Whether a task has not begun. -/
def Task.isFresh : Task → Bool
  | .laterFresh .. | .waiterFresh .. => true
  | _ => false

/-- Whether a task goes on when an alarm goes off at a time. -/
def Task.expects (time : Nat) : Task → Bool
  | .laterWaiting _ => true
  | .waiting _ _ deadline _ => deadline = some time
  | _ => false

namespace Scene

/-! ## What actions do to tasks -/

/-- The tasks that an action starts. -/
def spawns (s : Scene) : Action → List Task
  | .perform _ (.waiter n label limit token) =>
    (s.id? n).elim [] fun p => [.waiterFresh p label limit token]
  | .perform _ (.later ms steps) => [.laterFresh ms steps]
  | _ => []

/-- The tasks that a deed makes ready. -/
def stirs (s : Scene) : Deed → List TaskId
  | .settles p o =>
    if (s.promises.settle? p o).isSome then s.waitingFor (Task.waitsFor p) else []
  | _ => []

/-- The tasks that an action makes ready. -/
def wakes (s : Scene) : Action → List TaskId
  | .perform _ (.cancel token) =>
    if token < s.tokens.length then s.waitingFor (Task.waitsUntil token) else []
  | .perform _ (.waiter n ..) => (s.id? n).elim [] fun _ => [s.tasks.length]
  | .perform _ (.later ..) => [s.tasks.length]
  | a => s.stirs (s.deed a)

/-- What becomes of tokens. -/
def tokensAfter (s : Scene) : Action → List Bool
  | .perform _ .token => s.tokens ++ [false]
  | .perform _ (.cancel token) => s.tokens.set token true
  | _ => s.tokens

lemma mem_waitingFor {isFor : Task → Bool} :
    i ∈ s.waitingFor isFor ↔ ∃ t, s.tasks[i]? = some t ∧ isFor t = true := by
  rw [waitingFor, List.mem_filter, List.mem_range, Option.any_eq_true]
  refine and_iff_right_of_imp ?_
  rintro ⟨t, ht, -⟩
  exact (List.getElem?_eq_some_iff.1 ht).1

/-- How a scene changes when tasks are started and others made ready, and tokens change. -/
structure Stirs (s s' : Scene) (spawned : List Task) (woken : List TaskId) (tokens : List Bool) :
    Prop where
  tasks : s'.tasks = s.tasks ++ spawned
  schedule : s'.schedule = s.schedule.wakeAll woken
  tokens : s'.tokens = tokens
  found : s'.found = s.found

lemma Stirs.of_eq {s' : Scene} (htasks : s'.tasks = s.tasks) (hschedule : s'.schedule = s.schedule)
    (hfound : s'.found = s.found) : s.Stirs s' [] [] s'.tokens :=
  ⟨htasks.trans (List.append_nil _).symm, hschedule, rfl, hfound⟩

lemma stirs_settle (s : Scene) (p : Id) (o : Outcome Int64) :
    s.Stirs (s.settle p o).2.2 [] (s.stirs (.settles p o)) s.tokens := by
  rw [settle, stirs]
  cases s.promises.settle? p o with
  | none => exact .of_eq rfl rfl rfl
  | some kp =>
    have hwaiters : (fun t : Task => match t with
        | .waiting q .. => decide (q = p)
        | _ => false) = Task.waitsFor p := by
      funext t
      cases t <;> rfl
    have hwoken := congrArg (fun f => s.schedule.wakeAll (s.waitingFor f)) hwaiters
    exact ⟨(List.append_nil _).symm, hwoken, rfl, rfl⟩

/-- To cancel a token that there is not wakes nobody. -/
lemma waitingFor_cancel (s : Scene) (token : Nat) :
    (s.waitingFor fun
      | .waiting _ _ _ (some t) => t = token ∧ t < s.tokens.length
      | _ => false) =
      if token < s.tokens.length then s.waitingFor (Task.waitsUntil token) else [] := by
  split
  · rename_i hlt
    congr 1
    funext t
    rcases t with _ | _ | _ | ⟨_, _, _, _ | k⟩ | _
    all_goals try rfl
    exact decide_eq_decide.2 (and_iff_left_of_imp (· ▸ hlt))
  · rename_i hlt
    refine List.filter_eq_nil_iff.2 fun i _ hfor => hlt ?_
    obtain ⟨t, -, ht⟩ := (Option.any_eq_true _ _).1 hfor
    rcases t with _ | _ | _ | ⟨_, _, _, _ | k⟩ | _
    all_goals try cases ht
    obtain ⟨rfl, h⟩ := of_decide_eq_true ht
    exact h

/-- What an action does to tasks and tokens, and that it reports nothing. -/
theorem stirs_act (s : Scene) (a : Action) :
    s.Stirs (s.act a).2 (s.spawns a) (s.wakes a) (s.tokensAfter a) := by
  cases a with
  | perform origin step =>
    cases step with
    | new | newDefault | resolved | rejected => exact .of_eq rfl rfl rfl
    | read | isSettled | same | describe | token => exact .of_eq rfl rfl rfl
    | clone n =>
      simp only [act, step]
      cases s.id? n <;> exact .of_eq rfl rfl rfl
    | map n x =>
      simp only [act, step, wakes, deed]
      cases s.id? n <;> exact .of_eq rfl rfl rfl
    | resolve n v =>
      simp only [act, step, wakes, deed]
      cases s.id? n with
      | none => exact .of_eq rfl rfl rfl
      | some p => exact s.stirs_settle p _
    | reject n e =>
      simp only [act, step, wakes, deed]
      cases s.id? n with
      | none => exact .of_eq rfl rfl rfl
      | some p => exact s.stirs_settle p _
    | onSettled n label steps =>
      simp only [act, step, wakes, deed]
      cases s.id? n <;> exact .of_eq rfl rfl rfl
    | cancel token =>
      exact ⟨(List.append_nil _).symm, congrArg s.schedule.wakeAll (s.waitingFor_cancel token),
        rfl, rfl⟩
    | waiter n label limit token =>
      simp only [act, step, wakes, spawns]
      cases s.id? n with
      | none => exact .of_eq rfl rfl rfl
      | some p => exact ⟨rfl, rfl, rfl, rfl⟩
    | later ms steps => exact ⟨rfl, rfl, rfl, rfl⟩
  | resume k o =>
    cases k with
    | program label steps => exact .of_eq rfl rfl rfl
    | doubling target x => exact s.stirs_settle target _
  | note origin step reply => cases origin <;> exact .of_eq rfl rfl rfl

/-! ## What there is to find -/

lemma isCancelled_iff (s : Scene) (k : Nat) :
    s.isCancelled k = true ↔ s.tokens[k]? = some true := by
  rw [isCancelled]
  cases s.tokens[k]? <;> simp

/-- A token is cancelled by the step that does this, if there is such a token. -/
lemma isCancelled_act (s : Scene) (a : Action) (k : Nat) :
    (s.act a).2.isCancelled k = true ↔ s.isCancelled k = true ∨
      (∃ origin, a = .perform origin (.cancel k)) ∧ k < s.tokens.length := by
  rw [isCancelled_iff, isCancelled_iff, (s.stirs_act a).tokens]
  by_cases hcancel : ∃ origin token, a = .perform origin (.cancel token)
  · obtain ⟨origin, token, rfl⟩ := hcancel
    rw [tokensAfter, List.getElem?_set]
    by_cases hk : token = k
    · subst hk
      by_cases hlt : token < s.tokens.length <;> simp [hlt]
    · simp [hk]
  · have hnot : ¬∃ origin, a = .perform origin (.cancel k) := fun ⟨origin, h⟩ =>
      hcancel ⟨origin, k, h⟩
    rw [iff_false_intro hnot, false_and, or_false]
    unfold tokensAfter
    split
    · rw [List.getElem?_append]
      split
      · rfl
      · rename_i hlt
        have hnone : s.tokens[k]? = none := List.getElem?_eq_none (Nat.not_lt.1 hlt)
        rw [hnone]
        cases k - s.tokens.length <;> simp
    · exact absurd ⟨_, _, rfl⟩ hcancel
    · rfl

/-- A promise is settled by a deed that settles it. -/
lemma settles_of_act (hp : s.promises.Known p) (hnone : s.promises.outcome? p = none)
    (h : (s.act a).2.promises.outcome? p = some o) :
    s.deed a = .settles p o ∧ (s.promises.settle? p o).isSome = true := by
  have hbase : (s.base a).outcome? p = none := by
    rcases s.base_cases a with hb | hb
    · rw [hb, hnone]
    · rw [hb]
      exact ((Store.handsOut_add _).outcome?_eq hp).trans hnone
  rw [(s.act_eq a).2] at h
  cases hd : s.deed a with
  | nothing =>
    rw [hd] at h
    cases hbase.symm.trans h
  | makes o' =>
    rw [hd] at h
    have hknown := (s.persists_base a).known p hp
    cases hbase.symm.trans (((Store.handsOut_add _).outcome?_eq hknown).symm.trans h)
  | registers q k =>
    rw [hd] at h
    cases hbase.symm.trans ((Store.outcome?_register q p k).symm.trans h)
  | settles q o' =>
    rw [hd, Deed.apply] at h
    cases hs : (s.base a).settle? q o' with
    | none =>
      rw [hs] at h
      cases hbase.symm.trans h
    | some kp =>
      rw [hs] at h
      by_cases hq : p = q
      · subst hq
        cases (Store.outcome?_of_settle? hs).symm.trans h
        refine ⟨rfl, ?_⟩
        obtain ⟨ks, s', -, hsettle⟩ := (Store.pending_of_known hp hnone).exists_settle? o
        rw [hsettle]
        rfl
      · cases hbase.symm.trans ((Store.outcome?_settle?_of_ne hs hq).symm.trans h)

lemma outcome?_of_settles (hd : s.deed a = .settles p o)
    (hs : (s.promises.settle? p o).isSome = true) :
    (s.act a).2.promises.outcome? p = some o := by
  have hpending : (s.base a).Pending p := by
    obtain ⟨kp, hkp⟩ := Option.isSome_iff_exists.1 hs
    have hp : s.promises.Pending p := ⟨_, Store.cell?_of_settle? hkp⟩
    rcases s.base_cases a with hb | hb
    · rwa [hb]
    · rw [hb]
      exact (Store.handsOut_add _).pending hp
  obtain ⟨ks, promises, -, hsettle⟩ := hpending.exists_settle? o
  rw [(s.act_eq a).2, hd, Deed.apply, hsettle]
  exact Store.outcome?_of_settle? hsettle

@[simp] lemma now_act (s : Scene) (a : Action) : (s.act a).2.schedule.now = s.schedule.now := by
  rw [(s.stirs_act a).schedule, Schedule.now_wakeAll]

@[simp] lemma alarms_act (s : Scene) (a : Action) :
    (s.act a).2.schedule.alarms = s.schedule.alarms := by
  rw [(s.stirs_act a).schedule, Schedule.alarms_wakeAll]

/-- Whether a task, with its number, has something to do at once. -/
def isDue (s : Scene) (i : TaskId) : Task → Bool
  | .laterFresh .. | .waiterFresh .. => true
  | .laterWaiting _ => s.schedule.alarms.all (·.owner ≠ i)
  | .waiting p _ deadline token => (s.find? p deadline token).isSome
  | .finished => false

/-- There is something to find if the promise is settled, the token cancelled or the time up. -/
lemma isSome_find? : (s.find? p deadline token).isSome = true ↔
    (s.promises.outcome? p).isSome = true ∨ token.any s.isCancelled = true ∨
      deadline.any (· ≤ s.schedule.now) = true := by
  rw [find?]
  cases s.promises.outcome? p with
  | some o => simp
  | none => cases token.any s.isCancelled <;> cases deadline.any (· ≤ s.schedule.now) <;> simp

/-- What there is to find stays. -/
lemma isDue_act (h : s.isDue i t = true) (a : Action) : (s.act a).2.isDue i t = true := by
  cases t with
  | waiting p label deadline token =>
    refine isSome_find?.2 ((isSome_find?.1 h).imp (fun ho => ?_) (Or.imp (fun hc => ?_) ?_))
    · obtain ⟨o, ho⟩ := Option.isSome_iff_exists.1 ho
      exact Option.isSome_iff_exists.2 ⟨o, (s.persists_act a).outcome p o ho⟩
    · obtain ⟨k, rfl, hk⟩ := (Option.any_eq_true _ _).1 hc
      exact (s.isCancelled_act a k).2 (.inl hk)
    · rw [now_act]
      exact id
  | laterWaiting steps =>
    rw [isDue, alarms_act]
    exact h
  | laterFresh | waiterFresh => rfl
  | finished => cases h

/-- For what somebody is made ready. -/
inductive Wakes (s : Scene) (a : Action) (i : TaskId) : Prop
  /-- The promise that he waits for is settled. -/
  | settled (q : Id) (o' : Outcome Int64) (hd : s.deed a = .settles q o')
      (hs : (s.promises.settle? q o').isSome = true) (hi : i ∈ s.waitingFor (Task.waitsFor q))
  /-- The token until which he waits is cancelled. -/
  | cancelled (origin : Origin) (k : Nat) (ha : a = .perform origin (.cancel k))
      (hk : k < s.tokens.length) (hi : i ∈ s.waitingFor (Task.waitsUntil k))
  /-- He is to begin. -/
  | begins (t : Task) (ha : s.spawns a = [t]) (hi : i = s.tasks.length)

lemma mem_stirs {d : Deed} : i ∈ s.stirs d ↔ ∃ p o, d = .settles p o ∧
    (s.promises.settle? p o).isSome = true ∧ i ∈ s.waitingFor (Task.waitsFor p) := by
  constructor
  · intro hi
    unfold stirs at hi
    split at hi
    · rename_i p o
      split at hi
      · rename_i hs
        exact ⟨p, o, rfl, hs, hi⟩
      · cases hi
    · cases hi
  · rintro ⟨p, o, rfl, hs, hi⟩
    rw [stirs, if_pos hs]
    exact hi

/-- Most actions make somebody ready by their deeds only. -/
lemma wakes_iff_of_deed (hw : s.wakes a = s.stirs (s.deed a)) (hnone : s.spawns a = [])
    (hnot : ∀ origin k, a ≠ .perform origin (.cancel k)) : i ∈ s.wakes a ↔ s.Wakes a i := by
  rw [hw, mem_stirs]
  constructor
  · rintro ⟨p, o, hd, hs, hi⟩
    exact .settled p o hd hs hi
  · intro h
    cases h with
    | settled p o hd hs hi => exact ⟨p, o, hd, hs, hi⟩
    | cancelled origin k ha => exact absurd ha (hnot origin k)
    | begins t ht => cases hnone.symm.trans ht

lemma wakes_iff : i ∈ s.wakes a ↔ s.Wakes a i := by
  cases a with
  | perform origin step =>
    cases step with
    | cancel k =>
      rw [wakes]
      constructor
      · intro hi
        split at hi
        · rename_i hk
          exact .cancelled origin k rfl hk hi
        · cases hi
      · intro h
        cases h with
        | settled p o hd => cases hd
        | cancelled origin k ha hk hi =>
          cases ha
          rwa [if_pos hk]
        | begins t ht => cases ht
    | waiter n label limit token =>
      rw [wakes]
      cases hn : s.id? n with
      | none =>
        refine ⟨nofun, fun h => ?_⟩
        cases h with
        | settled p o hd => cases hd
        | cancelled origin k ha => cases ha
        | begins t ht => simp [spawns, hn] at ht
      | some p =>
        refine List.mem_singleton.trans ⟨fun hi => ?_, fun h => ?_⟩
        · exact .begins (.waiterFresh p label limit token) (by simp [spawns, hn]) hi
        · cases h with
          | settled p o hd => cases hd
          | cancelled origin k ha => cases ha
          | begins t ht hi => exact hi
    | later ms steps =>
      refine List.mem_singleton.trans ⟨fun hi => .begins _ rfl hi, fun h => ?_⟩
      cases h with
      | settled p o hd => cases hd
      | cancelled origin k ha => cases ha
      | begins t ht hi => exact hi
    | _ => exact wakes_iff_of_deed rfl rfl nofun
  | resume k o => exact wakes_iff_of_deed rfl rfl nofun
  | note origin step reply => exact wakes_iff_of_deed rfl rfl nofun

/-- An action starts one task at most, which waits for a promise that there is. -/
lemma spawns_cases (s : Scene) (a : Action) : s.spawns a = [] ∨ ∃ t, s.spawns a = [t] ∧
    t.isFresh = true ∧ ∀ p, t.promise? = some p → p ∈ s.handles := by
  unfold spawns
  split
  · rename_i n label limit token
    cases hn : s.id? n with
    | none => exact .inl rfl
    | some p =>
      refine .inr ⟨_, rfl, rfl, fun q hq => ?_⟩
      cases hq
      exact mem_handles hn
  · exact .inr ⟨_, rfl, rfl, nofun⟩
  · exact .inl rfl

lemma isDue_of_isFresh (h : t.isFresh = true) : s.isDue i t = true := by
  cases t with
  | laterFresh | waiterFresh => rfl
  | _ => cases h

/-- Whoever is made ready has something to do. -/
lemma Wakes.exists_due (h : s.Wakes a i) :
    ∃ t, (s.act a).2.tasks[i]? = some t ∧ (s.act a).2.isDue i t = true := by
  have hold : ∀ t, s.tasks[i]? = some t → (s.act a).2.tasks[i]? = some t := by
    intro t ht
    rw [(s.stirs_act a).tasks, List.getElem?_append_left (List.getElem?_eq_some_iff.1 ht).1]
    exact ht
  cases h with
  | settled p o hd hs hi =>
    obtain ⟨t, ht, hfor⟩ := mem_waitingFor.1 hi
    refine ⟨t, hold t ht, ?_⟩
    cases t with
    | waiting q label deadline token =>
      obtain rfl : q = p := of_decide_eq_true hfor
      refine isSome_find?.2 (.inl ?_)
      rw [outcome?_of_settles hd hs]
      rfl
    | _ => cases hfor
  | cancelled origin k ha hk hi =>
    obtain ⟨t, ht, hfor⟩ := mem_waitingFor.1 hi
    refine ⟨t, hold t ht, ?_⟩
    rcases t with _ | _ | _ | ⟨q, label, deadline, _ | k'⟩ | _
    all_goals try cases hfor
    obtain rfl : k' = k := of_decide_eq_true hfor
    refine isSome_find?.2 (.inr (.inl ?_))
    exact (s.isCancelled_act a k').2 (.inr ⟨⟨origin, ha⟩, hk⟩)
  | begins t ha hi =>
    refine ⟨t, ?_, ?_⟩
    · rw [(s.stirs_act a).tasks, ha, hi, List.getElem?_concat_length]
    · rcases s.spawns_cases a with hnone | ⟨t', ht', hfresh, -⟩
      · cases hnone.symm.trans ha
      · cases ht'.symm.trans ha
        exact isDue_of_isFresh hfresh

/-! ## Who is ready -/

/-- Whoever is ready has something to do, and whoever has something to do is ready. The alarms are
in order and for later, and whoever waits for some time has set one. -/
structure Prompt (s : Scene) : Prop where
  handles : ∀ p ∈ s.handles, s.promises.Known p
  targets : ∀ (i : TaskId) (t : Task) (p : Id), s.tasks[i]? = some t → t.promise? = some p →
    s.promises.Known p
  ready : ∀ i, i ∈ s.schedule.ready ↔ ∃ t, s.tasks[i]? = some t ∧ s.isDue i t = true
  once : s.schedule.ready.Nodup
  later : ∀ a ∈ s.schedule.alarms, s.schedule.now < a.time
  sorted : s.schedule.alarms.Pairwise (·.time ≤ ·.time)
  single : (s.schedule.alarms.map (·.owner)).Nodup
  set : ∀ a ∈ s.schedule.alarms, ∃ t, s.tasks[a.owner]? = some t ∧ t.expects a.time = true
  armed : ∀ (i : TaskId) (p : Id) (label : String) (d : Nat) (token : Option Nat),
    s.tasks[i]? = some (.waiting p label (some d) token) → s.schedule.now < d →
      ∃ a ∈ s.schedule.alarms, a.owner = i ∧ a.time = d

lemma prompt_empty : ({} : Scene).Prompt where
  handles _ hp := nomatch hp
  targets _ _ _ ht := by cases ht
  ready i := ⟨nofun, fun ⟨t, ht, _⟩ => by cases ht⟩
  once := List.nodup_nil
  later _ ha := nomatch ha
  sorted := List.Pairwise.nil
  single := List.nodup_nil
  set _ ha := nomatch ha
  armed _ _ _ _ _ ht := by cases ht

lemma task_act_of_task (h : s.tasks[i]? = some t) (a : Action) :
    (s.act a).2.tasks[i]? = some t := by
  rw [(s.stirs_act a).tasks, List.getElem?_append_left (List.getElem?_eq_some_iff.1 h).1]
  exact h

lemma task_of_task_act (h : (s.act a).2.tasks[i]? = some t) :
    s.tasks[i]? = some t ∨ s.spawns a = [t] ∧ i = s.tasks.length := by
  rw [(s.stirs_act a).tasks, List.getElem?_append] at h
  split at h
  · exact .inl h
  · rename_i hle
    refine .inr ?_
    rcases s.spawns_cases a with hnone | ⟨t', ht, -⟩
    · rw [hnone] at h
      cases h
    · rw [ht] at h ⊢
      have hlt : i - s.tasks.length < 1 := (List.getElem?_eq_some_iff.1 h).1
      have hge : i ≤ s.tasks.length := Nat.sub_eq_zero_iff_le.1 (Nat.lt_one_iff.1 hlt)
      have hi : i = s.tasks.length := Nat.le_antisymm hge (Nat.not_lt.1 hle)
      rw [hi, Nat.sub_self] at h
      cases h
      exact ⟨rfl, hi⟩

/-- Who has something to do after an action had it before, or is made ready. -/
lemma Prompt.wakes (h : s.Prompt) (ht : (s.act a).2.tasks[i]? = some t)
    (hdue : (s.act a).2.isDue i t = true) : i ∈ s.schedule.ready ∨ i ∈ s.wakes a := by
  rcases task_of_task_act ht with ht | ⟨hspawn, hi⟩
  · by_cases hbefore : s.isDue i t = true
    · exact .inl ((h.ready i).2 ⟨t, ht, hbefore⟩)
    · refine .inr (wakes_iff.2 ?_)
      cases t with
      | waiting p label deadline token =>
        have hnone := mt isSome_find?.2 hbefore
        rw [not_or, not_or] at hnone
        obtain ⟨houtcome, hcancelled, htime⟩ := hnone
        rcases isSome_find?.1 hdue with ho | hc | hd
        · obtain ⟨o, ho⟩ := Option.isSome_iff_exists.1 ho
          have hknown := h.targets i _ p ht rfl
          obtain ⟨hd, hs⟩ := settles_of_act hknown (Option.not_isSome_iff_eq_none.1 houtcome) ho
          exact .settled p o hd hs (mem_waitingFor.2 ⟨_, ht, decide_eq_true rfl⟩)
        · obtain ⟨k, rfl, hk⟩ := (Option.any_eq_true _ _).1 hc
          rcases (s.isCancelled_act a k).1 hk with hk | ⟨⟨origin, ha⟩, hlt⟩
          · exact absurd hk hcancelled
          · exact .cancelled origin k ha hlt (mem_waitingFor.2 ⟨_, ht, decide_eq_true rfl⟩)
        · rw [now_act] at hd
          exact absurd hd htime
      | laterWaiting steps =>
        rw [isDue, alarms_act] at hdue
        exact absurd hdue hbefore
      | laterFresh | waiterFresh => exact absurd rfl hbefore
      | finished => cases hdue
  · exact .inr (wakes_iff.2 (.begins t hspawn hi))

theorem Prompt.act (h : s.Prompt) (a : Action) : (s.act a).2.Prompt where
  handles p hp := by
    obtain ⟨l, hl, hnew⟩ := s.handles_act a
    have hold : ∀ p ∈ s.handles, (s.act a).2.promises.Known p := fun p hp =>
      (s.persists_act a).known p (h.handles p hp)
    rw [hl] at hp
    exact (List.mem_append.1 hp).elim (hold p) fun hp => (hnew p hp).elim (hold p) id
  targets i t p ht hp := by
    refine (s.persists_act a).known p ?_
    rcases task_of_task_act ht with ht | ⟨hspawn, -⟩
    · exact h.targets i t p ht hp
    · rcases s.spawns_cases a with hnone | ⟨t', ht', -, hhandles⟩
      · cases hnone.symm.trans hspawn
      · cases ht'.symm.trans hspawn
        exact h.handles p (hhandles p hp)
  ready i := by
    rw [(s.stirs_act a).schedule, Schedule.mem_ready_wakeAll]
    constructor
    · rintro (hi | hi)
      · obtain ⟨t, ht, hdue⟩ := (h.ready i).1 hi
        exact ⟨t, task_act_of_task ht a, isDue_act hdue a⟩
      · exact (wakes_iff.1 hi).exists_due
    · rintro ⟨t, ht, hdue⟩
      exact h.wakes ht hdue
  once := by
    rw [(s.stirs_act a).schedule]
    exact Schedule.nodup_ready_wakeAll h.once _
  later b hb := by
    rw [alarms_act] at hb
    rw [now_act]
    exact h.later b hb
  sorted := by
    rw [alarms_act]
    exact h.sorted
  single := by
    rw [alarms_act]
    exact h.single
  set b hb := by
    rw [alarms_act] at hb
    obtain ⟨t, ht, hexpects⟩ := h.set b hb
    exact ⟨t, task_act_of_task ht a, hexpects⟩
  armed i p label d token ht hd := by
    rw [now_act] at hd
    rw [alarms_act]
    rcases task_of_task_act ht with ht | ⟨hspawn, -⟩
    · exact h.armed i p label d token ht hd
    · rcases s.spawns_cases a with hnone | ⟨t, ht, hfresh, -⟩
      · cases hnone.symm.trans hspawn
      · cases ht.symm.trans hspawn
        cases hfresh

/-- An agenda keeps whoever has something to do ready. -/
theorem Prompt.run (h : s.Prompt) (agenda : List Action) : (s.run agenda).Prompt :=
  run_induct (motive := fun _ s => s.Prompt) (fun a _ _ h => h.act a) h

end Scene

end Promise

end ConsensusLink
