import ConsensusLink.Proofs.Promise.Scripts
/-!
# What waiters find

Whatever happens to a scene, and in whatever order tasks have their turns, a waiter reports once at
most, and what he finds when he looks: the outcome if the promise is settled, else that his token is
cancelled, else that his time is up. Nobody is overlooked: whoever still waits when nobody is ready
has nothing to find.
-/

namespace ConsensusLink.Promise

/-- What happens to a scene. -/
inductive Event where
  /-- A step of the script is carried out. -/
  | perform (step : Step)
  /-- A task has its turn, if it is ready. -/
  | turn (i : TaskId)
  /-- Time passes. -/
  | pass (ms : Nat)

namespace Scene

/-- The scene after an event. -/
def after (s : Scene) : Event → Scene
  | .perform step => s.perform step
  | .turn i => if i ∈ s.schedule.ready then (s.take i).turn i else s
  | .pass ms => s.passTo (s.schedule.now + ms)

/-- The scene after so many events. -/
def upTo (events : ℕ → Event) : ℕ → Scene
  | 0 => {}
  | n + 1 => (upTo events n).after (events n)

/-- A waiter reports what he has found. -/
structure Reports (events : ℕ → Event) (i : TaskId) (n : ℕ) (label : String) (o : Outcome Int64) :
    Prop where
  waits : ∃ t w, (upTo events n).tasks[i]? = some t ∧
    t.waiter? (upTo events n).schedule.now = some w
  done : (upTo events (n + 1)).tasks[i]? = some .finished
  found : (upTo events (n + 1)).found =
    ((upTo events n).schedule.now, label, o) :: (upTo events n).found

variable {s s' s'' : Scene} {i k : TaskId} {t : Task} {w : Waiter} {e : Event} {events : ℕ → Event}
  {n m : ℕ} {p : Id} {label l : String} {limit deadline token : Option Nat} {o r : Outcome Int64}

lemma Prompt.after (h : s.Prompt) (e : Event) : (s.after e).Prompt := by
  cases e with
  | perform step => exact h.run _
  | turn i =>
    rw [Scene.after]
    split
    · rename_i hi
      exact h.turn hi
    · exact h
  | pass ms => exact h.passTo (Nat.le_add_right _ _)

lemma prompt_upTo (events : ℕ → Event) (n : ℕ) : (upTo events n).Prompt := by
  induction n with
  | zero => exact prompt_empty
  | succ n ih => exact ih.after _

/-! ## What stays -/

/-- What does not change any more: an outcome, a token that is cancelled, a task that is done. -/
structure Later (s s' : Scene) : Prop where
  persists : s.promises.Persists s'.promises
  cancelled : ∀ k, s.isCancelled k = true → s'.isCancelled k = true
  now : s.schedule.now ≤ s'.schedule.now
  done : ∀ i : TaskId, s.tasks[i]? = some .finished → s'.tasks[i]? = some .finished

namespace Later

lemma refl (s : Scene) : s.Later s := ⟨.refl _, fun _ => id, Nat.le_refl _, fun _ => id⟩

lemma trans (h : s.Later s') (h' : s'.Later s'') : s.Later s'' where
  persists := h.persists.trans h'.persists
  cancelled k hk := h'.cancelled k (h.cancelled k hk)
  now := h.now.trans h'.now
  done i hi := h'.done i (h.done i hi)

/-- A task that is not done goes on as another one. -/
lemma of_set (hpromises : s'.promises = s.promises) (htokens : s'.tokens = s.tokens)
    (hnow : s'.schedule.now = s.schedule.now) (htasks : s'.tasks = s.tasks.set i t)
    (hi : s.tasks[i]? ≠ some .finished) : s.Later s' where
  persists := by
    rw [hpromises]
    exact .refl _
  cancelled k hk := by rwa [isCancelled, htokens]
  now := hnow.ge
  done k hk := by
    have hne : i ≠ k := by
      rintro rfl
      exact hi hk
    rw [htasks, List.getElem?_set_ne hne]
    exact hk

end Later

lemma later_run (s : Scene) (agenda : List Action) : s.Later (s.run agenda) := by
  refine run_induct (motive := fun _ s' => s.Later s') (fun a rest s' h => h.trans ?_) (.refl s)
  exact ⟨s'.persists_act a, fun k hk => (s'.isCancelled_act a k).2 (.inl hk), (now_act s' a).ge,
    fun i hi => task_act_of_task hi a⟩

lemma task_run (h : s.tasks[i]? = some t) (agenda : List Action) :
    (s.run agenda).tasks[i]? = some t :=
  run_induct (motive := fun _ s' => s'.tasks[i]? = some t) (fun a _ _ h => task_act_of_task h a) h

lemma found_run (s : Scene) (agenda : List Action) : (s.run agenda).found = s.found :=
  run_induct (motive := fun _ s' => s'.found = s.found)
    (fun a _ s' h => (s'.stirs_act a).found.trans h) rfl

lemma Turned.later (h : s.Turned i s') : s.Later s' := by
  cases h with
  | defers ms steps ht => exact .of_set rfl rfl rfl rfl fun hc => by cases ht.symm.trans hc
  | runs t steps ht hsteps =>
    have hdone : s.Later ((s.take i).setTask i .finished) := by
      refine .of_set rfl rfl rfl rfl fun hc => ?_
      cases ht.symm.trans hc
      rcases hsteps with hc | hc <;> cases hc
    exact hdone.trans (later_run _ _)
  | waits p label limit token ht =>
    refine .of_set rfl rfl ?_ rfl fun hc => by cases ht.symm.trans hc
    cases limit <;> rfl
  | reports t w o ht hw =>
    refine .of_set rfl rfl rfl rfl fun hc => ?_
    cases ht.symm.trans hc
    cases hw

lemma Prompt.later_after (h : s.Prompt) (e : Event) : s.Later (s.after e) := by
  cases e with
  | perform step => exact later_run _ _
  | turn i =>
    rw [Scene.after]
    split
    · rename_i hi
      exact (h.turned hi).later
    · exact .refl s
  | pass ms =>
    refine ⟨.refl _, fun _ => id, ?_, fun _ => id⟩
    rw [Scene.after, now_passTo]
    exact Nat.le_add_right _ _

lemma later_upTo (events : ℕ → Event) (hle : n ≤ m) : (upTo events n).Later (upTo events m) := by
  induction m, hle using Nat.le_induction with
  | base => exact .refl _
  | succ m _ ih => exact ih.trans ((prompt_upTo events m).later_after _)

/-! ## What becomes of a waiter -/

lemma Turned.task_of_ne (h : s.Turned k s') (hne : k ≠ i) (ht : s.tasks[i]? = some t) :
    s'.tasks[i]? = some t := by
  cases h with
  | runs t' steps =>
    have hset : ((s.take k).setTask k .finished).tasks[i]? = some t :=
      (List.getElem?_set_ne hne).trans ht
    exact task_run hset _
  | _ => exact (List.getElem?_set_ne hne).trans ht

/-- What an event does for a waiter. -/
inductive Goes (s : Scene) (e : Event) (i : TaskId) (t : Task) (w : Waiter) (s' : Scene) : Prop
  /-- It is not his turn. -/
  | stays (hnot : e = .turn i → i ∉ s.schedule.ready) (ht : s'.tasks[i]? = some t)
  /-- He begins to wait. -/
  | begins (he : e = .turn i) (hfresh : t.isFresh = true)
      (ht : s'.tasks[i]? = some (.waiting w.promise w.label w.deadline w.token))
  /-- He reports what there is to find. -/
  | reports (o : Outcome Int64) (he : e = .turn i)
      (hfind : s.find? w.promise w.deadline w.token = some o) (ht : s'.tasks[i]? = some .finished)
      (hfound : s'.found = (s.schedule.now, w.label, o) :: s.found)

theorem Prompt.goes (h : s.Prompt) (ht : s.tasks[i]? = some t)
    (hw : t.waiter? s.schedule.now = some w) (e : Event) : s.Goes e i t w (s.after e) := by
  have hlt := (List.getElem?_eq_some_iff.1 ht).1
  cases e with
  | perform step => exact .stays (fun he => by cases he) (task_run ht _)
  | pass ms => exact .stays (fun he => by cases he) ht
  | turn k =>
    rw [Scene.after]
    split
    · rename_i hk
      by_cases hne : k = i
      · subst hne
        have hturned := h.turned hk
        generalize (s.take k).turn k = s' at hturned ⊢
        cases hturned with
        | defers ms steps ht' =>
          cases ht.symm.trans ht'
          cases hw
        | runs t' steps ht' hsteps =>
          cases ht.symm.trans ht'
          rcases hsteps with rfl | rfl <;> cases hw
        | waits p label limit token ht' hnone =>
          cases ht.symm.trans ht'
          cases hw
          exact .begins rfl rfl (List.getElem?_set_self hlt)
        | reports t' w' o ht' hw' ho =>
          cases ht.symm.trans ht'
          cases hw.symm.trans hw'
          exact .reports o rfl ho (List.getElem?_set_self hlt) rfl
      · refine .stays (fun he => ?_) ((h.turned hk).task_of_ne hne ht)
        cases he
        exact absurd rfl hne
    · rename_i hk
      refine .stays (fun he => ?_) ht
      cases he
      exact hk

/-- Nothing is reported but by waiters. -/
theorem found_after (events : ℕ → Event) (n : ℕ) :
    (upTo events (n + 1)).found = (upTo events n).found ∨
      ∃ i label o, Reports events i n label o := by
  have h := prompt_upTo events n
  cases he : events n with
  | perform step =>
    rw [upTo, he]
    exact .inl (found_run _ _)
  | pass ms =>
    rw [upTo, he]
    exact .inl rfl
  | turn i =>
    by_cases hi : i ∈ (upTo events n).schedule.ready
    · have hafter : upTo events (n + 1) = ((upTo events n).take i).turn i := by
        rw [upTo, he, after, if_pos hi]
      have hturned := h.turned hi
      rw [← hafter] at hturned
      generalize hs' : upTo events (n + 1) = s' at hturned
      cases hturned with
      | defers | waits => exact .inl rfl
      | runs t steps ht hsteps => exact .inl (found_run _ _)
      | reports t w o ht hw ho =>
        refine .inr ⟨i, w.label, o, ⟨t, w, ht, hw⟩, ?_, ?_⟩
        · rw [hs']
          exact List.getElem?_set_self (List.getElem?_eq_some_iff.1 ht).1
        · rw [hs']
          rfl
    · rw [upTo, he, after, if_neg hi]
      exact .inl rfl

/-- Who has reported is done, and does not report again. -/
lemma Reports.le {l' : String} (hr : Reports events i m l o) (hr' : Reports events i k l' r) :
    m ≤ k := by
  refine Nat.le_of_not_lt fun hlt => ?_
  obtain ⟨t, w, ht, hw⟩ := hr.waits
  cases ((later_upTo events hlt).done i hr'.done).symm.trans ht
  cases hw

/-- Who reports looks for what he waits for. -/
lemma Reports.find? (hr : Reports events i n label o) (ht : (upTo events n).tasks[i]? = some t)
    (hw : t.waiter? (upTo events n).schedule.now = some w) :
    label = w.label ∧ (upTo events n).find? w.promise w.deadline w.token = some o := by
  have hdone := hr.done
  have hfound := hr.found
  cases (prompt_upTo events n).goes ht hw (events n) with
  | stays _ ht' =>
    cases hdone.symm.trans ht'
    cases hw
  | begins _ _ ht' => cases hdone.symm.trans ht'
  | reports o' _ hfind _ hfound' =>
    have hsame := (List.cons.inj (hfound.symm.trans hfound')).1
    cases hsame
    exact ⟨rfl, hfind⟩

/-- Where a waiter stands once he has begun. -/
inductive Stage (events : ℕ → Event) (i : TaskId) (n : ℕ) (w : Waiter) (m : ℕ) : Prop
  /-- He waits. -/
  | waits (ht : (upTo events m).tasks[i]? = some (.waiting w.promise w.label w.deadline w.token))
  /-- He has reported. -/
  | reported (k : ℕ) (o : Outcome Int64) (hn : n ≤ k) (hk : k < m)
      (hreports : Reports events i k w.label o)
      (hfind : (upTo events k).find? w.promise w.deadline w.token = some o)
      (hdone : (upTo events m).tasks[i]? = some .finished)

lemma Stage.succ (h : Stage events i n w m) (hn : n ≤ m) : Stage events i n w (m + 1) := by
  cases h with
  | waits ht =>
    cases (prompt_upTo events m).goes ht rfl (events m) with
    | stays _ ht' => exact .waits ht'
    | begins _ hfresh => cases hfresh
    | reports o _ hfind ht' hfound =>
      exact .reported m o hn (Nat.lt_succ_self m) ⟨⟨_, _, ht, rfl⟩, ht', hfound⟩ hfind ht'
  | reported k o hn hk hreports hfind hdone =>
    exact .reported k o hn (Nat.lt_succ_of_lt hk) hreports hfind
      ((later_upTo events (Nat.le_succ m)).done i hdone)

section

variable (he : events n = .turn i)
  (ht : (upTo events n).tasks[i]? = some (.waiterFresh p label limit token))

include he ht

/-- The waiter who begins to wait. -/
lemma stage (hlt : n < m) :
    Stage events i n ⟨p, label, limit.map ((upTo events n).schedule.now + ·), token⟩ m := by
  have hprompt := prompt_upTo events n
  induction m, hlt using Nat.le_induction with
  | base =>
    cases hprompt.goes ht rfl (events n) with
    | stays hnot => exact absurd ((hprompt.ready i).2 ⟨_, ht, rfl⟩) (hnot he)
    | begins _ _ ht' => exact .waits ht'
    | reports o _ hfind ht' hfound =>
      exact .reported n o (Nat.le_refl n) (Nat.lt_succ_self n) ⟨⟨_, _, ht, rfl⟩, ht', hfound⟩ hfind
        ht'
  | succ m hle ih => exact ih.succ (Nat.le_of_succ_le hle)

/-- He reports what he finds, after he has begun. -/
lemma Reports.own (hr : Reports events i m l o) :
    n ≤ m ∧ l = label ∧ (upTo events m).find? p
      (limit.map ((upTo events n).schedule.now + ·)) token = some o := by
  rcases Nat.lt_trichotomy m n with hlt | rfl | hlt
  · -- whoever has reported is done
    cases ht.symm.trans ((later_upTo events hlt).done i hr.done)
  · exact ⟨Nat.le_refl _, hr.find? ht rfl⟩
  · refine ⟨Nat.le_of_lt hlt, ?_⟩
    cases stage he ht hlt with
    | waits ht' => exact hr.find? ht' rfl
    | reported k o' _ _ _ _ hdone =>
      obtain ⟨t, w, ht', hw⟩ := hr.waits
      cases hdone.symm.trans ht'
      cases hw

end

/-! ## How waiters are served -/

/-- Why a waiter gives up, and what he reports. -/
inductive GivesUp (events : ℕ → Event) (n m : ℕ) (p : Id) (limit token : Option Nat) :
    Outcome Int64 → Prop
  /-- His token is cancelled. -/
  | cancelled (k : Nat) (htoken : token = some k) (hk : (upTo events m).isCancelled k = true) :
      GivesUp events n m p limit token (.error .cancelled)
  /-- His time is up, and the promise was not settled before. -/
  | timedOut (ms : Nat) (hlimit : limit = some ms)
      (htime : (upTo events n).schedule.now + ms ≤ (upTo events m).schedule.now)
      (hbefore : ∀ k, (upTo events k).schedule.now < (upTo events n).schedule.now + ms →
        (upTo events k).promises.outcome? p = none) :
      GivesUp events n m p limit token (.error .timeout)

/-- How a waiter is served who begins to wait at an event. -/
structure Served (events : ℕ → Event) (i : TaskId) (n : ℕ) (p : Id) (label : String)
    (limit token : Option Nat) : Prop where
  /-- He reports after he has begun, and once at most. -/
  own : ∀ m l o, Reports events i m l o → n ≤ m ∧ l = label
  once : ∀ m m' l l' o o', Reports events i m l o → Reports events i m' l' o' → m = m'
  /-- If the promise is settled when he looks, he reports the outcome, whatever else happened. -/
  settled : ∀ m l o r, Reports events i m l o → (upTo events m).promises.outcome? p = some r → o = r
  /-- Otherwise he has a reason to give up. -/
  gaveUp : ∀ m l o, Reports events i m l o → (upTo events m).promises.outcome? p = none →
    GivesUp events n m p limit token o
  /-- If the promise is settled before his time is up, he obtains the outcome. -/
  obtains : token = none → ∀ k r, (upTo events k).promises.outcome? p = some r →
    (∀ ms, limit = some ms →
      (upTo events k).schedule.now < (upTo events n).schedule.now + ms) →
    (∀ m l o, Reports events i m l o → o = r) ∧
      ∀ m, n < m → k ≤ m → (upTo events m).schedule.ready = [] → ∃ j < m, Reports events i j label r
  /-- If he still waits when nobody is ready, there is nothing to find. -/
  waits : ∀ m, n < m → (upTo events m).schedule.ready = [] →
    (∃ j < m, ∃ o, Reports events i j label o) ∨
      (upTo events m).find? p (limit.map ((upTo events n).schedule.now + ·)) token = none

lemma find?_of_outcome (h : s.promises.outcome? p = some r) (deadline token : Option Nat) :
    s.find? p deadline token = some r := by
  rw [find?, h]

/-- What is found when the promise is not settled. -/
lemma find?_cases (h : s.promises.outcome? p = none) (hfind : s.find? p deadline token = some o) :
    (∃ k, token = some k ∧ s.isCancelled k = true ∧ o = .error .cancelled) ∨
      ∃ d, deadline = some d ∧ d ≤ s.schedule.now ∧ o = .error .timeout := by
  rw [find?, h] at hfind
  dsimp only at hfind
  split at hfind
  · rename_i hcancelled
    obtain ⟨k, hk, hc⟩ := (Option.any_eq_true _ _).1 hcancelled
    cases hfind
    exact .inl ⟨k, hk, hc, rfl⟩
  · split at hfind
    · rename_i htime
      obtain ⟨d, hd, hle⟩ := (Option.any_eq_true _ _).1 htime
      cases hfind
      exact .inr ⟨d, hd, of_decide_eq_true hle, rfl⟩
    · cases hfind

/-- A promise that is not settled was not settled before. -/
lemma outcome?_none_of_now_lt (h : (upTo events m).promises.outcome? p = none)
    (hlt : (upTo events n).schedule.now < (upTo events m).schedule.now) :
    (upTo events n).promises.outcome? p = none := by
  have hle : n ≤ m := Nat.le_of_not_le fun hle => Nat.not_le.2 hlt (later_upTo events hle).now
  by_contra hne
  obtain ⟨o, ho⟩ := Option.ne_none_iff_exists'.1 hne
  cases h.symm.trans ((later_upTo events hle).persists.outcome p o ho)

lemma Stage.nothing (h : Stage events i n w m) (hidle : (upTo events m).schedule.ready = []) :
    (∃ j < m, ∃ o, Reports events i j w.label o) ∨
      (upTo events m).find? w.promise w.deadline w.token = none := by
  cases h with
  | reported k o _ hk hreports => exact .inl ⟨k, hk, o, hreports⟩
  | waits ht =>
    refine .inr (Option.not_isSome_iff_eq_none.1 fun hsome => ?_)
    have hready := ((prompt_upTo events m).ready i).2 ⟨_, ht, hsome⟩
    rw [hidle] at hready
    cases hready

section

variable (he : events n = .turn i)
  (ht : (upTo events n).tasks[i]? = some (.waiterFresh p label limit token))

include he ht

/-- If the promise is settled before his time is up, it is the outcome that a waiter reports. -/
lemma Reports.eq_of_settled (hr : Reports events i m l o) (htoken : token = none)
    (ho : (upTo events k).promises.outcome? p = some r)
    (hlimit : ∀ ms, limit = some ms →
      (upTo events k).schedule.now < (upTo events n).schedule.now + ms) : o = r := by
  obtain ⟨-, -, hfind⟩ := hr.own he ht
  cases hm : (upTo events m).promises.outcome? p with
  | some o' =>
    rw [find?_of_outcome hm] at hfind
    cases hfind
    rcases Nat.le_total k m with hle | hle
    · exact Option.some.inj (hm.symm.trans ((later_upTo events hle).persists.outcome p r ho))
    · exact Option.some.inj (((later_upTo events hle).persists.outcome p o hm).symm.trans ho)
  | none =>
    -- he cannot have given up: his time was not up when the promise was settled
    rcases find?_cases hm hfind with ⟨c, hc, -⟩ | ⟨d, hd, hle, -⟩
    · cases htoken.symm.trans hc
    · obtain ⟨ms, hms, rfl⟩ := Option.map_eq_some_iff.1 hd
      cases ho.symm.trans (outcome?_none_of_now_lt hm ((hlimit ms hms).trans_le hle))

theorem served : Served events i n p label limit token where
  own m l o hr := ⟨(hr.own he ht).1, (hr.own he ht).2.1⟩
  once m m' l l' o o' hr hr' := Nat.le_antisymm (hr.le hr') (hr'.le hr)
  settled m l o r hr ho := by
    obtain ⟨-, -, hfind⟩ := hr.own he ht
    rw [find?_of_outcome ho] at hfind
    exact (Option.some.inj hfind).symm
  gaveUp m l o hr hnone := by
    obtain ⟨-, -, hfind⟩ := hr.own he ht
    rcases find?_cases hnone hfind with ⟨k, hk, hc, rfl⟩ | ⟨d, hd, hle, rfl⟩
    · exact .cancelled k hk hc
    · obtain ⟨ms, hms, rfl⟩ := Option.map_eq_some_iff.1 hd
      exact .timedOut ms hms hle fun k hk => outcome?_none_of_now_lt hnone (hk.trans_le hle)
  obtains htoken k r ho hlimit := by
    refine ⟨fun m l o hr => hr.eq_of_settled he ht htoken ho hlimit, fun m hn hk hidle => ?_⟩
    rcases (stage he ht hn).nothing hidle with ⟨j, hj, o, hr⟩ | hnone
    · exact ⟨j, hj, hr.eq_of_settled he ht htoken ho hlimit ▸ hr⟩
    · rw [find?_of_outcome ((later_upTo events hk).persists.outcome p r ho)] at hnone
      cases hnone
  waits m hn hidle := (stage he ht hn).nothing hidle

end

/-- A waiter begins before nobody is ready. -/
theorem exists_begins (ht : (upTo events k).tasks[i]? = some (.waiterFresh p label limit token))
    (hle : k ≤ m) (hidle : (upTo events m).schedule.ready = []) :
    ∃ n, k ≤ n ∧ n < m ∧ events n = .turn i ∧
      (upTo events n).tasks[i]? = some (.waiterFresh p label limit token) := by
  by_contra hnot
  have hfresh : (upTo events m).tasks[i]? = some (.waiterFresh p label limit token) := by
    clear hidle
    induction m, hle using Nat.le_induction with
    | base => exact ht
    | succ m hle ih =>
      have htask := ih fun ⟨n, hn, hlt, h⟩ => hnot ⟨n, hn, Nat.lt_succ_of_lt hlt, h⟩
      have hturn : events m ≠ .turn i := fun he =>
        hnot ⟨m, hle, Nat.lt_succ_self m, he, htask⟩
      cases (prompt_upTo events m).goes htask rfl (events m) with
      | stays _ ht' => exact ht'
      | begins he | reports _ he => exact absurd he hturn
  have hready := ((prompt_upTo events m).ready i).2 ⟨_, hfresh, rfl⟩
  rw [hidle] at hready
  cases hready

/-- How all waiters are served. -/
structure Serves (events : ℕ → Event) : Prop where
  begins : ∀ i k p label limit token,
    (upTo events k).tasks[i]? = some (.waiterFresh p label limit token) → ∀ m, k ≤ m →
      (upTo events m).schedule.ready = [] → ∃ n, k ≤ n ∧ n < m ∧ events n = .turn i ∧
        (upTo events n).tasks[i]? = some (.waiterFresh p label limit token)
  served : ∀ i n p label limit token, events n = .turn i →
    (upTo events n).tasks[i]? = some (.waiterFresh p label limit token) →
      Served events i n p label limit token
  found : ∀ n, (upTo events (n + 1)).found = (upTo events n).found ∨
    ∃ i label o, Reports events i n label o

/-! ## Scripts as courses of events -/

/-- Some events make a scene another. -/
def Leads (s s' : Scene) : Prop := ∃ l : List Event, l.foldl after s = s'

namespace Leads

lemma refl (s : Scene) : s.Leads s := ⟨[], rfl⟩

lemma trans (h : s.Leads s') (h' : s'.Leads s'') : s.Leads s'' := by
  obtain ⟨l, rfl⟩ := h
  obtain ⟨l', rfl⟩ := h'
  exact ⟨l ++ l', List.foldl_append⟩

lemma after (s : Scene) (e : Event) : s.Leads (s.after e) := ⟨[e], rfl⟩

lemma passTo {time : Nat} (hle : s.schedule.now ≤ time) : s.Leads (s.passTo time) := by
  have hpass := after s (.pass (time - s.schedule.now))
  rwa [Scene.after, Nat.add_sub_cancel' hle] at hpass

lemma turn (hi : i ∈ s.schedule.ready) : s.Leads ((s.take i).turn i) := by
  have hturn := after s (.turn i)
  rwa [Scene.after, if_pos hi] at hturn

end Leads

lemma Prompt.leads_drain (h : s.Prompt) : s.Leads s.drain :=
  (h.drain_induct (motive := s.Leads) (fun _ _ _ hi hs => hs.trans (.turn hi)) (.refl s)).2.2

lemma Passes.leads {stop : Scene → Bool} {time : Nat} (hp : Passes stop time s s') (h : s.Prompt) :
    s.Leads s' := by
  induction hp with
  | stops => exact h.leads_drain
  | arrives _ hnow => exact h.leads_drain.trans (.passTo (h.now_drain.trans_le hnow))
  | goes moment _ hnow _ _ _ ih =>
    have hle := h.now_drain.trans_le hnow
    exact h.leads_drain.trans ((Leads.passTo hle).trans (ih (h.drain.passTo hle)))

lemma Prompt.leads_obey (h : s.Prompt) (c : Instruction) : s.Leads (s.obey c) := by
  cases c with
  | perform step => exact .after s (.perform step)
  | advance ms =>
    have hpass := h.passes (fun _ => false) (Nat.le_add_right s.schedule.now ms)
    exact (hpass.leads h).trans (hpass.prompt h).leads_drain

lemma leads_play (script : List Instruction) : ({} : Scene).Leads (play script) := by
  induction script using List.reverseRecOn with
  | nil => exact .refl _
  | append_singleton script c ih =>
    rw [play, List.foldl_concat]
    exact ih.trans ((prompt_play script).leads_obey c)

/-- A list of events is the beginning of a course of events. -/
lemma exists_upTo (l : List Event) : ∃ events, upTo events l.length = l.foldl after {} := by
  refine ⟨fun k => (l[k]?).getD (.pass 0), ?_⟩
  have hbegin : ∀ n ≤ l.length,
      upTo (fun k => (l[k]?).getD (.pass 0)) n = (l.take n).foldl after {} := by
    intro n hle
    induction n with
    | zero => rfl
    | succ n ih =>
      have hlast : (l[n]?).getD (.pass 0) = l[n] := by
        rw [List.getElem?_eq_getElem hle, Option.getD_some]
      rw [upTo, ih (Nat.le_of_succ_le hle), hlast, List.take_succ_eq_append_getElem hle,
        List.foldl_concat]
  rw [hbegin _ (Nat.le_refl _), List.take_length]

/-! ## What the script finds itself -/

lemma Leads.later (hl : s.Leads s') (h : s.Prompt) : s.Later s' := by
  obtain ⟨l, rfl⟩ := hl
  induction l generalizing s with
  | nil => exact .refl s
  | cons e l ih => exact (h.later_after e).trans (ih (h.after e))

/-- What everything that can happen now has settled remains settled. -/
lemma Prompt.outcome?_reach (h : s.Prompt) {time : Nat} (hle : s.schedule.now ≤ time)
    (ho : s.drain.promises.outcome? p = some o) :
    (s.reach time).promises.outcome? p = some o := by
  have hle' : s.drain.schedule.now ≤ time := h.now_drain.trans_le hle
  have hpass := h.drain.passes (fun _ => false) hle'
  have hleads : s.drain.Leads (s.drain.reach time) :=
    (hpass.leads h.drain).trans (hpass.prompt h.drain).leads_drain
  have hsame : s.drain.reach time = s.reach time := by
    rw [reach, h.drain.passUntil_eq, drain_idle h.idle_drain, reach, h.passUntil_eq]
  exact hsame ▸ (hleads.later h.drain).persists.outcome p o ho

section

variable {stop : Scene → Bool} {time : Nat}
  (hstop : ∀ s : Scene, stop s = (s.promises.outcome? p).isSome)

include hstop

/-- Who lets time pass until a promise is settled sees the outcome, if it is settled in time. -/
lemma Passes.outcome?_eq (hp : Passes stop time s s') (h : s.Prompt) {moment : Nat}
    (hnow : s.schedule.now ≤ moment) (hlt : moment < time)
    (ho : (s.reach moment).promises.outcome? p = some o) : s'.promises.outcome? p = some o := by
  -- as long as nobody stops, the promise is not settled before the next alarm
  have hquiet : ∀ {s : Scene}, s.Prompt → stop s.drain = false → s.schedule.now ≤ moment →
      (∀ a ∈ s.drain.schedule.alarms, moment < a.time) →
      (s.reach moment).promises.outcome? p ≠ some o := by
    intro s h hgoes hnow hlate ho
    rw [h.reach_quiet hnow hlate] at ho
    rw [hstop, ho] at hgoes
    cases hgoes
  induction hp with
  | stops hstops =>
    rw [hstop] at hstops
    obtain ⟨o', ho'⟩ := Option.isSome_iff_exists.1 hstops
    rw [ho']
    exact (h.outcome?_reach hnow ho').symm.trans ho
  | arrives hgoes _ hnext =>
    exact absurd ho (hquiet h hgoes hnow fun a ha => hlt.trans_le (hnext a ha))
  | goes moment' hgoes hnow' _ hnext _ ih =>
    rcases Nat.lt_or_ge moment moment' with hbefore | hafter
    · exact absurd ho (hquiet h hgoes hnow fun a ha => hbefore.trans_le (hnext a ha))
    · refine ih (h.drain.passTo (h.now_drain.trans_le hnow')) ((now_passTo _ _).trans_le hafter) ?_
      rwa [h.reach_passTo hnow' hafter hnext]

/-- If it is not settled in time, he sees nothing until his time is up. -/
lemma Passes.outcome?_none (hp : Passes stop time s s') (h : s.Prompt) (hlt : s.schedule.now < time)
    (hnone : ∀ moment, s.schedule.now ≤ moment → moment < time →
      (s.reach moment).promises.outcome? p = none) :
    s'.promises.outcome? p = none ∧ s'.schedule.now = time := by
  induction hp with
  | stops hstops =>
    have hdrain := hnone _ (Nat.le_refl _) hlt
    rw [h.reach_now] at hdrain
    rw [hstop, hdrain] at hstops
    cases hstops
  | arrives hgoes =>
    rw [hstop] at hgoes
    exact ⟨Option.not_isSome_iff_eq_none.1 (Bool.eq_false_iff.1 hgoes), now_passTo _ _⟩
  | goes moment _ hnow hbefore hnext _ ih =>
    refine ih (h.drain.passTo (h.now_drain.trans_le hnow)) ((now_passTo _ _).trans_lt hbefore) ?_
    intro moment' hle hlt'
    rw [now_passTo] at hle
    rw [h.reach_passTo hnow hle hnext]
    exact hnone moment' (hnow.trans hle) hlt'

end

/-- What the script finds when it waits itself, and what becomes of the scene. -/
structure Awaits (s : Scene) (p : Id) (limit token : Option Nat) : Prop where
  /-- Time passes, at most up to the limit, and that is all. -/
  elapses : ∃ ms, (∀ l, limit = some l → ms ≤ l) ∧ (s.wait p limit token).2 = Timed.advance s ms
  /-- It finds the outcome if the promise is settled already. -/
  settled : ∀ r, s.promises.outcome? p = some r → (s.wait p limit token).1 = some r
  /-- It finds the outcome if the promise is settled before the time is up. -/
  obtains : token = none → ∀ l ms r, limit = some l → ms < l →
    (Timed.advance s ms).promises.outcome? p = some r → (s.wait p limit token).1 = some r
  /-- It finds that the time is up if the promise is not settled before. -/
  timedOut : token = none → ∀ l, limit = some l → s.promises.outcome? p = none →
    (∀ ms < l, (Timed.advance s ms).promises.outcome? p = none) →
      (s.wait p limit token).1 = some (.error .timeout)

lemma find?_none_none (s : Scene) (p : Id) : s.find? p none none = s.promises.outcome? p := by
  rw [find?]
  cases s.promises.outcome? p <;> rfl

lemma find?_of_time (h : s.promises.outcome? p = none) {d : Nat} (hd : d ≤ s.schedule.now) :
    s.find? p (some d) none = some (.error .timeout) := by
  rw [find?, h]
  simp [hd]

/-- A promise that is not settled is waited for until the time is up. -/
lemma wait_of_none (hnone : s.promises.outcome? p = none) {l : Nat} (hl : l ≠ 0) :
    (s.wait p (some l) none).1 = (Timed.passUntil s (fun s => (s.promises.outcome? p).isSome)
      (s.schedule.now + l)).find? p (some (s.schedule.now + l)) none := by
  have hfind : s.find? p ((some l).map (s.schedule.now + ·)) none = none := by
    have hlate : ¬s.schedule.now + l ≤ s.schedule.now := by omega
    rw [find?, hnone]
    simp [hlate]
  rw [wait]
  simp only [hfind, find?_none_none]
  rfl

lemma Prompt.awaits (h : s.Prompt) (p : Id) (limit token : Option Nat) :
    s.Awaits p limit token where
  elapses := h.wait_eq p limit token
  settled r hr := by
    rw [wait]
    simp only [find?_of_outcome hr]
  obtains htoken l ms r hlimit hlt hr := by
    subst htoken hlimit
    cases hs : s.promises.outcome? p with
    | some r' =>
      have hdrain := (h.leads_drain.later h).persists.outcome p r' hs
      have hsame := h.outcome?_reach (Nat.le_add_right s.schedule.now ms) hdrain
      cases hsame.symm.trans hr
      rw [wait]
      simp only [find?_of_outcome hs]
    | none =>
      rw [wait_of_none hs (Nat.ne_zero_of_lt hlt)]
      have hpass := h.passes (fun s => (s.promises.outcome? p).isSome) (Nat.le_add_right _ l)
      exact find?_of_outcome (hpass.outcome?_eq (fun _ => rfl) h (Nat.le_add_right _ ms)
        (Nat.add_lt_add_left hlt _) hr) _ _
  timedOut htoken l hlimit hs hnone := by
    subst htoken hlimit
    rcases Nat.eq_zero_or_pos l with rfl | hl
    · rw [wait]
      simp only [Option.map_some, Nat.add_zero, find?_of_time hs (Nat.le_refl _)]
    · have hpass := h.passes (fun s => (s.promises.outcome? p).isSome) (Nat.le_add_right _ l)
      obtain ⟨hend, hnow⟩ := hpass.outcome?_none (fun _ => rfl) h (Nat.lt_add_of_pos_right hl)
        fun moment hle hlt => by
          obtain ⟨ms, rfl⟩ := Nat.exists_eq_add_of_le hle
          exact hnone ms (Nat.lt_of_add_lt_add_left hlt)
      rw [wait_of_none hs (Nat.ne_zero_of_lt hl)]
      exact find?_of_time hend hnow.ge

end Scene

open Scene

/-- Giving up is noticed by nobody. Without some of its waiters a script comes to the same, for the
promises, for the continuations and for the other waiters; and when it waits itself time passes, and
that is all. Whatever happens, in whatever order, a waiter obtains the outcome of the promise if it
is settled when he looks, and in any case if it is settled before his time is up; otherwise he
reports, truly, that his token is cancelled or his time up. A script is a course of such events, at
the end of which, when time has passed, nobody is ready. -/
theorem giving_up_unnoticed :
    (∀ (gone : String → Bool) (script : List Instruction),
      (play script).Unnoticed gone (play (script.filterMap (Instruction.without gone)))) ∧
    (∀ (script : List Instruction) (p : Id) (limit token : Option Nat),
      (play script).Awaits p limit token) ∧
    (∀ events, Serves events) ∧
    ∀ script : List Instruction, (∃ events n, upTo events n = play script) ∧
      ∀ ms, (play (script ++ [.advance ms])).schedule.ready = [] := by
  refine ⟨fun gone script => ?_, fun script p limit token => ?_, fun events => ?_,
    fun script => ⟨?_, fun ms => ?_⟩⟩
  · obtain ⟨name, h⟩ := exists_spares gone script
    exact h.unnoticed
  · exact (prompt_play script).awaits p limit token
  · exact ⟨fun _ _ _ _ _ _ ht _ => exists_begins ht, fun _ _ _ _ _ _ => served, found_after events⟩
  · obtain ⟨l, hl⟩ := leads_play script
    obtain ⟨events, hevents⟩ := exists_upTo l
    exact ⟨events, l.length, hevents.trans hl⟩
  · have hprompt := prompt_play script
    have hpass := hprompt.passes (fun _ => false) (Nat.le_add_right (play script).schedule.now ms)
    rw [play, List.foldl_concat]
    exact (hpass.prompt hprompt).idle_drain

/-- Three wait for a promise: one until his time is up, one until his token is cancelled, and the
last until the promise is settled. -/
example :
    let script : List Instruction :=
      [.perform .new, .perform .token, .perform (.waiter 0 "hasty" (some 5) none),
        .perform (.waiter 0 "called off" none (some 0)),
        .perform (.waiter 0 "patient" (some 20) none),
        .advance 8, .perform (.cancel 0), .advance 4, .perform (.resolve 0 7), .advance 1]
    (play script).found = [(12, "patient", .ok 7), (8, "called off", .error .cancelled),
        (5, "hasty", .error .timeout)] ∧
      (play (script.filterMap (Instruction.without (· != "patient")))).found =
        [(12, "patient", .ok 7)] := ⟨rfl, rfl⟩

end ConsensusLink.Promise
