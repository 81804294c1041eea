import ConsensusLink.Proofs.Promise.Renaming
import ConsensusLink.Proofs.Promise.Turns
/-!
# Programs without some of their waiters

A waiter looks at a promise, reports and is gone; nobody else takes notice of him. So a scene stays
the same if some of the waiters are never started: the promises, the continuations that run and what
the other waiters report, at the same moments. Only the numbers of tasks are others, because those
who are left out have none.
-/

namespace ConsensusLink.Promise

variable {gone : String → Bool} {name : TaskId → Option TaskId}

/-! ## What is left of a program -/

/-- Whether a step starts a waiter who is to be left out. -/
def Step.goes (gone : String → Bool) : Step → Bool
  | waiter _ label _ _ => gone label
  | _ => false

/-- A step without the waiters who are to be left out. -/
def Step.without (gone : String → Bool) : Step → Step
  | onSettled p label steps => onSettled p label (all steps)
  | later ms steps => later ms (all steps)
  | step => step
where
  /-- Steps without the waiters who are to be left out. -/
  all : List Step → List Step
    | [] => []
    | step :: rest => if step.goes gone then all rest else step.without gone :: all rest

/-- A continuation without the waiters who are to be left out. -/
def Continuation.without (gone : String → Bool) : Continuation → Continuation
  | program label steps => program label (Step.without.all gone steps)
  | doubling target summand => doubling target summand

/-- A task without the waiters whom its program is not to start. -/
def Task.without (gone : String → Bool) : Task → Task
  | laterFresh ms steps => laterFresh ms (Step.without.all gone steps)
  | laterWaiting steps => laterWaiting (Step.without.all gone steps)
  | t => t

/-- Whether a task is that of a waiter who is to be left out. -/
def Task.goes (gone : String → Bool) : Task → Bool
  | waiterFresh _ label .. | waiting _ label .. => gone label
  | _ => false

/-- What remains of an entry. -/
def Entry.without (gone : String → Bool) : Entry → Option Entry
  | did label step reply =>
    if step.goes gone then none else some (did label (step.without gone) reply)
  | later step reply time =>
    if step.goes gone then none else some (later (step.without gone) reply time)
  | e => some e

/-- What remains of an action. -/
def Action.without (gone : String → Bool) : Action → Option Action
  | perform origin step =>
    if step.goes gone then none else some (perform origin (step.without gone))
  | resume k o => some (resume (k.without gone) o)
  | note origin step reply =>
    if step.goes gone then none else some (note origin (step.without gone) reply)

lemma Action.without_perform (gone : String → Bool) (origin : Origin) (steps : List Step) :
    (steps.map (perform origin)).filterMap (without gone) =
      (Step.without.all gone steps).map (perform origin) := by
  induction steps with
  | nil => rfl
  | cons step steps ih =>
    rw [List.map_cons, List.filterMap_cons, Step.without.all, without]
    cases hgoes : step.goes gone with
    | true => exact ih
    | false => exact congrArg (perform origin (step.without gone) :: ·) ih

lemma Action.without_resume (gone : String → Bool) (ks : List Continuation) (o : Outcome Int64) :
    (ks.map (resume · o)).filterMap (without gone) =
      (ks.map (Continuation.without gone)).map (resume · o) := by
  rw [List.filterMap_map, List.map_map]
  exact congrFun List.filterMap_eq_map' ks

namespace Scene

/-! ## Scenes without some of their waiters -/

/-- Other numbers for some of the tasks, in the same order. -/
structure Renumbers (name : TaskId → Option TaskId) (n n' : Nat) : Prop where
  range : (List.range n).filterMap name = List.range n'
  distinct : Schedule.Distinct name
  within : ∀ i j, name i = some j → i < n

/-- A scene as another one, without some of the waiters. -/
structure Spares (gone : String → Bool) (name : TaskId → Option TaskId) (s s' : Scene) : Prop where
  promises : s'.promises = s.promises.relabel (Continuation.without gone)
  handles : s'.handles = s.handles
  tokens : s'.tokens = s.tokens
  schedule : s'.schedule = s.schedule.rename name
  numbers : Renumbers name s.tasks.length s'.tasks.length
  /-- Who has a number in the other scene is the same there. -/
  stays : ∀ i j, name i = some j → ∃ t, s.tasks[i]? = some t ∧
    s'.tasks[j]? = some (t.without gone) ∧ t.goes gone = false
  /-- Who has none is a waiter who is left out, or done. -/
  goes : ∀ i t, name i = none → s.tasks[i]? = some t → t = .finished ∨ t.goes gone = true
  entries : s'.entries = s.entries.filterMap (Entry.without gone)
  found : s'.found = s.found.filter fun r => !gone r.2.1

lemma spares_empty (gone : String → Bool) : Spares gone (fun _ => none) {} {} where
  promises := rfl
  handles := rfl
  tokens := rfl
  schedule := rfl
  numbers := ⟨rfl, nofun, nofun⟩
  stays _ _ := nofun
  goes _ _ _ := nofun
  entries := rfl
  found := rfl

namespace Renumbers

variable {n n' i j : Nat}

lemma lt (h : Renumbers name n n') (hj : name i = some j) : j < n' := by
  have hmem : j ∈ (List.range n).filterMap name :=
    List.mem_filterMap.2 ⟨i, List.mem_range.2 (h.within i j hj), hj⟩
  exact List.mem_range.1 (h.range ▸ hmem)

lemma eq_none (h : Renumbers name n n') (hi : n ≤ i) : name i = none :=
  Option.eq_none_iff_forall_ne_some.2 fun j hj => Nat.not_lt.2 hi (h.within i j hj)

/-- One more task, without a number. -/
lemma skip (h : Renumbers name n n') : Renumbers name (n + 1) n' where
  range := by
    rw [List.range_succ, List.filterMap_append, h.range,
      List.filterMap_cons_none (h.eq_none (Nat.le_refl n)), List.filterMap_nil, List.append_nil]
  distinct := h.distinct
  within i j hj := Nat.lt_succ_of_lt (h.within i j hj)

lemma update_of_lt (hi : i < n) : Function.update name n (some n') i = name i :=
  Function.update_of_ne (Nat.ne_of_lt hi) _ _

lemma of_update (hj : Function.update name n (some n') i = some j) :
    i = n ∧ j = n' ∨ name i = some j := by
  by_cases hi : i = n
  · subst hi
    exact .inl ⟨rfl, Option.some.inj (hj.symm.trans (Function.update_self ..))⟩
  · exact .inr ((Function.update_of_ne hi _ _).symm.trans hj)

/-- One more task, with the next number. -/
lemma succ (h : Renumbers name n n') :
    Renumbers (Function.update name n (some n')) (n + 1) (n' + 1) where
  range := by
    have hold : (List.range n).filterMap (Function.update name n (some n')) = List.range n' := by
      rw [← h.range]
      exact List.filterMap_congr fun i hi => update_of_lt (List.mem_range.1 hi)
    rw [List.range_succ, List.filterMap_append, hold,
      List.filterMap_cons_some (Function.update_self ..), List.filterMap_nil, List.range_succ]
  distinct i i' j hi hi' := by
    rcases of_update hi with ⟨he, hj⟩ | hold <;> rcases of_update hi' with ⟨he', hj'⟩ | hold'
    · rw [he, he']
    · exact absurd (h.lt hold') (hj ▸ Nat.lt_irrefl _)
    · exact absurd (h.lt hold) (hj' ▸ Nat.lt_irrefl _)
    · exact h.distinct i i' j hold hold'
  within i j hj := by
    rcases of_update hj with ⟨rfl, -⟩ | hj
    · exact Nat.lt_succ_self _
    · exact Nat.lt_succ_of_lt (h.within i j hj)

end Renumbers

variable {s s' : Scene} {i j : TaskId} {t : Task} {rest : List TaskId}

namespace Spares

lemma id?_eq (h : s.Spares gone name s') (n : Nat) : s'.id? n = s.id? n := by
  rw [id?, h.handles, id?]

lemma now_eq (h : s.Spares gone name s') : s'.schedule.now = s.schedule.now :=
  congrArg (·.now) h.schedule

lemma outcome?_eq (h : s.Spares gone name s') (p : Id) :
    s'.promises.outcome? p = s.promises.outcome? p := by
  rw [h.promises, Store.outcome?_relabel]

lemma find?_eq (h : s.Spares gone name s') (p : Id) (deadline token : Option Nat) :
    s'.find? p deadline token = s.find? p deadline token := by
  have hcancelled : s'.isCancelled = s.isCancelled := by
    funext k
    rw [isCancelled, h.tokens, isCancelled]
  rw [find?, h.outcome?_eq, hcancelled, h.now_eq, find?]

/-- Those who wait for something are the same. -/
lemma waitingFor_eq (h : s.Spares gone name s') {isFor : Task → Bool}
    (hsame : ∀ t : Task, isFor (t.without gone) = isFor t) :
    s'.waitingFor isFor = (s.waitingFor isFor).filterMap name := by
  rw [waitingFor, waitingFor, ← h.numbers.range]
  refine (filterMap_filter_comm (fun i j hj => ?_) _).symm
  obtain ⟨t, ht, ht', -⟩ := h.stays i j hj
  rw [ht, ht', Option.any_some, Option.any_some, hsame]

/-! ## Actions -/

lemma settle (h : s.Spares gone name s') (p : Id) (o : Outcome Int64) :
    (s'.settle p o).1 = (s.settle p o).1 ∧
      (s'.settle p o).2.1 = (s.settle p o).2.1.filterMap (Action.without gone) ∧
      (s.settle p o).2.2.Spares gone name (s'.settle p o).2.2 := by
  rw [Scene.settle, Scene.settle, h.promises, Store.relabel_settle?]
  cases s.promises.settle? p o with
  | none => exact ⟨rfl, rfl, h⟩
  | some e =>
    refine ⟨rfl, (Action.without_resume gone e.1 o).symm,
      { h with promises := rfl, schedule := ?_ }⟩
    rw [h.waitingFor_eq, h.schedule]
    · exact (Schedule.rename_wakeAll h.numbers.distinct _).symm
    · intro t
      cases t <;> rfl

lemma register (h : s.Spares gone name s') (p : Id) (k : Continuation) :
    (s'.register p (k.without gone)).1 = (s.register p k).1.filterMap (Action.without gone) ∧
      (s.register p k).2.Spares gone name (s'.register p (k.without gone)).2 := by
  rw [Scene.register, Scene.register, h.promises, Store.relabel_register]
  rcases s.promises.register p k with ⟨_ | o, promises⟩
  all_goals exact ⟨rfl, { h with promises := rfl }⟩

lemma addHandle (h : s.Spares gone name s') (p : Id) :
    (s.addHandle p).2.Spares gone name (s'.addHandle p).2 :=
  { h with handles := congrArg (· ++ [p]) h.handles }

lemma addPromise (h : s.Spares gone name s') (cell : Cell Int64 Failure Continuation) :
    (s'.addPromise (cell.relabel (Continuation.without gone))).1 = (s.addPromise cell).1 ∧
      (s.addPromise cell).2.Spares gone name
        (s'.addPromise (cell.relabel (Continuation.without gone))).2 := by
  have hadd : Spares gone name { s with promises := (s.promises.add cell).2 }
      { s' with promises := (s.promises.add cell).2.relabel (Continuation.without gone) } :=
    { h with promises := rfl }
  simp only [Scene.addPromise, h.promises, Store.relabel_add]
  exact ⟨congrArg List.length h.handles, hadd.addHandle _⟩

omit gone name in
lemma eq_length_of_spawn {u : Task} (hu : (s.spawn t).tasks[i]? = some u)
    (hi : ¬i < s.tasks.length) : i = s.tasks.length := by
  have hlt : i < (s.tasks ++ [t]).length := (List.getElem?_eq_some_iff.1 hu).1
  rw [List.length_append] at hlt
  exact Nat.le_antisymm (Nat.le_of_lt_succ hlt) (Nat.not_lt.1 hi)

/-- A number for a task that is not started yet makes no difference to a schedule. -/
lemma rename_update (h : s.Spares gone name s') (hs : s.Prompt) (j : TaskId) :
    s.schedule.rename (Function.update name s.tasks.length (some j)) = s'.schedule := by
  have hsame : ∀ {i t}, s.tasks[i]? = some t →
      Function.update name s.tasks.length (some j) i = name i := fun ht =>
    Renumbers.update_of_lt (List.getElem?_eq_some_iff.1 ht).1
  rw [h.schedule, Schedule.rename, Schedule.rename]
  congr 1
  · refine List.filterMap_congr fun i hi => ?_
    obtain ⟨t, ht, -⟩ := (hs.ready i).1 hi
    exact hsame ht
  · refine List.filterMap_congr fun a ha => ?_
    obtain ⟨t, ht, -⟩ := hs.set a ha
    rw [Alarm.rename, hsame ht, Alarm.rename]

/-- A task is started in both scenes. -/
lemma spawn (h : s.Spares gone name s') (hs : s.Prompt) (t : Task) (ht : t.goes gone = false) :
    (s.spawn t).Spares gone (Function.update name s.tasks.length (some s'.tasks.length))
      (s'.spawn (t.without gone)) := by
  refine { h with schedule := ?_, numbers := ?_, stays := ?_, goes := ?_ }
  · rw [Scene.spawn, Scene.spawn, ← h.rename_update hs s'.tasks.length]
    exact (Schedule.rename_wake h.numbers.succ.distinct (Function.update_self ..)).symm
  · rw [Scene.spawn, Scene.spawn, List.length_append, List.length_append]
    exact h.numbers.succ
  · intro i j hj
    rcases Renumbers.of_update hj with ⟨rfl, rfl⟩ | hj
    · exact ⟨t, List.getElem?_concat_length, List.getElem?_concat_length, ht⟩
    · obtain ⟨u, hu, hu', hgoes⟩ := h.stays i j hj
      refine ⟨u, ?_, ?_, hgoes⟩
      · exact (List.getElem?_append_left (List.getElem?_eq_some_iff.1 hu).1).trans hu
      · exact (List.getElem?_append_left (List.getElem?_eq_some_iff.1 hu').1).trans hu'
  · intro i u hnone hu
    by_cases hi : i < s.tasks.length
    · rw [Renumbers.update_of_lt hi] at hnone
      exact h.goes i u hnone ((List.getElem?_append_left hi).symm.trans hu)
    · obtain rfl := eq_length_of_spawn hu hi
      cases (Function.update_self ..).symm.trans hnone

/-- A waiter is left out. -/
lemma spawn_none (h : s.Spares gone name s') (ht : t.goes gone = true) :
    (s.spawn t).Spares gone name s' := by
  have hnone := h.numbers.eq_none (Nat.le_refl _)
  refine { h with schedule := ?_, numbers := ?_, stays := ?_, goes := ?_ }
  · rw [h.schedule]
    exact (Schedule.rename_wake_none hnone).symm
  · rw [Scene.spawn, List.length_append]
    exact h.numbers.skip
  · intro i j hj
    obtain ⟨u, hu, hrest⟩ := h.stays i j hj
    exact ⟨u, (List.getElem?_append_left (h.numbers.within i j hj)).trans hu, hrest⟩
  · intro i u hi hu
    by_cases hlt : i < s.tasks.length
    · exact h.goes i u hi ((List.getElem?_append_left hlt).symm.trans hu)
    · obtain rfl := eq_length_of_spawn hu hlt
      cases List.getElem?_concat_length.symm.trans hu
      exact .inr ht

end Spares

/-- What a step answers, what it sets off and what becomes of the scene, without some waiters. -/
def Agrees (gone : String → Bool) (r r' : Reply × List Action × Scene) : Prop :=
  r'.1 = r.1 ∧ r'.2.1 = r.2.1.filterMap (Action.without gone) ∧
    ∃ name, r.2.2.Spares gone name r'.2.2

namespace Spares

lemma agrees (h : s.Spares gone name s') (reply : Reply) :
    Agrees gone (reply, [], s) (reply, [], s') := ⟨rfl, rfl, _, h⟩

lemma agrees_addPromise (h : s.Spares gone name s') (cell : Cell Int64 Failure Continuation) :
    Agrees gone (.number (s.addPromise cell).1, [], (s.addPromise cell).2)
      (.number (s'.addPromise (cell.relabel (Continuation.without gone))).1, [],
        (s'.addPromise (cell.relabel (Continuation.without gone))).2) := by
  obtain ⟨hn, hadd⟩ := h.addPromise cell
  exact ⟨congrArg Reply.number hn, rfl, _, hadd⟩

lemma agrees_settle (h : s.Spares gone name s') (p : Id) (o : Outcome Int64) (yes no : Reply) :
    Agrees gone (if (s.settle p o).1 then yes else no, (s.settle p o).2)
      (if (s'.settle p o).1 then yes else no, (s'.settle p o).2) := by
  obtain ⟨htook, hactions, hsettle⟩ := h.settle p o
  exact ⟨congrArg (fun took : Bool => if took then yes else no) htook, hactions, _, hsettle⟩

/-- A promise is made, and settled when another one is. -/
lemma agrees_map (h : s.Spares gone name s') (n : Nat) (x : Int64) :
    Agrees gone (s.step (.map n x)) (s'.step (.map n x)) := by
  simp only [Scene.step, h.id?_eq]
  cases s.id? n with
  | none => exact h.agrees _
  | some p =>
    have hnew : s'.promises.new =
        (s.promises.new.1, s.promises.new.2.relabel (Continuation.without gone)) := by
      rw [h.promises]
      exact Store.relabel_add _ _ (.pending [])
    have hadd : Spares gone name { s with promises := s.promises.new.2 }
        { s' with promises := s.promises.new.2.relabel (Continuation.without gone) } :=
      { h with promises := rfl }
    obtain ⟨hactions, hregister⟩ := (hadd.addHandle s.promises.new.1).register p
      (.doubling s.promises.new.1 x)
    simp only [hnew]
    exact ⟨congrArg Reply.number (congrArg List.length h.handles), hactions, _, hregister⟩

lemma agrees_cancel (h : s.Spares gone name s') (token : Nat) :
    Agrees gone (s.step (.cancel token)) (s'.step (.cancel token)) := by
  have htokens := congrArg (List.set · token true) h.tokens
  refine ⟨rfl, rfl, name, { h with tokens := htokens, schedule := ?_ }⟩
  simp only [Scene.step]
  rw [h.waitingFor_eq, h.schedule, h.tokens]
  · exact (Schedule.rename_wakeAll h.numbers.distinct _).symm
  · intro t
    cases t <;> rfl

lemma describe_eq (h : s.Spares gone name s') (p : Id) : s'.describe p = s.describe p := by
  have hsettled : s'.promises.isSettled p = s.promises.isSettled p :=
    congrArg Option.isSome (h.outcome?_eq p)
  unfold describe
  rw [hsettled]

/-- A step does the same without the waiters who are left out. -/
theorem step (h : s.Spares gone name s') (hs : s.Prompt) (step : Step)
    (hgoes : step.goes gone = false) : Agrees gone (s.step step) (s'.step (step.without gone)) := by
  have hid := h.id?_eq
  cases step with
  | new | newDefault => exact h.agrees_addPromise (.pending [])
  | resolved v => exact h.agrees_addPromise (.settled (.ok v))
  | rejected e => exact h.agrees_addPromise (.settled (.error e))
  | map n x => exact h.agrees_map n x
  | cancel token => exact h.agrees_cancel token
  | clone n =>
    simp only [Step.without, Scene.step, hid]
    cases s.id? n with
    | none => exact h.agrees _
    | some p =>
      exact ⟨congrArg Reply.number (congrArg List.length h.handles), rfl, _, h.addHandle p⟩
  | resolve n v =>
    simp only [Step.without, Scene.step, hid]
    cases s.id? n with
    | none => exact h.agrees _
    | some p => exact h.agrees_settle p (.ok v) .settled .already
  | reject n e =>
    simp only [Step.without, Scene.step, hid]
    cases s.id? n with
    | none => exact h.agrees _
    | some p => exact h.agrees_settle p (.error e) .settled .refused
  | read n | isSettled n =>
    have ho : s'.outcome? n = s.outcome? n := by
      rw [outcome?, hid, outcome?]
      exact congrArg _ (funext h.outcome?_eq)
    simp only [Step.without, Scene.step, ho]
    exact h.agrees _
  | same n m =>
    simp only [Step.without, Scene.step, hid]
    exact h.agrees _
  | describe n =>
    simp only [Step.without, Scene.step, hid]
    cases s.id? n with
    | none => exact h.agrees _
    | some p => exact ⟨congrArg Reply.text (h.describe_eq p), rfl, _, h⟩
  | onSettled n label steps =>
    simp only [Step.without, Scene.step, hid]
    cases s.id? n with
    | none => exact h.agrees _
    | some p =>
      obtain ⟨hactions, hregister⟩ := h.register p (.program label steps)
      exact ⟨rfl, hactions, _, hregister⟩
  | token =>
    have htokens := congrArg (· ++ [false]) h.tokens
    exact ⟨congrArg Reply.number (congrArg List.length h.tokens), rfl, name,
      { h with tokens := htokens }⟩
  | waiter n label limit token =>
    simp only [Step.without, Scene.step, hid]
    cases s.id? n with
    | none => exact h.agrees _
    | some p => exact ⟨rfl, rfl, _, h.spawn hs (.waiterFresh p label limit token) hgoes⟩
  | later ms steps => exact ⟨rfl, rfl, _, h.spawn hs (.laterFresh ms steps) rfl⟩

/-- The step that starts a waiter who is left out. -/
lemma step_none (h : s.Spares gone name s') {step : Step} (hgoes : step.goes gone = true) :
    (s.step step).2.1 = [] ∧ (s.step step).2.2.Spares gone name s' := by
  cases step with
  | waiter n label limit token =>
    rw [Scene.step]
    cases s.id? n with
    | none => exact ⟨rfl, h⟩
    | some p => exact ⟨rfl, h.spawn_none hgoes⟩
  | _ => cases hgoes

/-- An action does the same without the waiters who are left out. -/
theorem act (h : s.Spares gone name s') (hs : s.Prompt) {a a' : Action}
    (ha : a.without gone = some a') :
    (s'.act a').1 = (s.act a).1.filterMap (Action.without gone) ∧
      ∃ name, (s.act a).2.Spares gone name (s'.act a').2 := by
  cases a with
  | perform origin step =>
    obtain ⟨hstays, ha⟩ := Option.ite_none_left_eq_some.1 ha
    cases ha
    obtain ⟨hreply, hactions, hscene⟩ := h.step hs step (Bool.eq_false_iff.2 hstays)
    have hnote : Action.without gone (.note origin step (s.step step).1) =
        some (.note origin (step.without gone) (s.step step).1) := if_neg hstays
    refine ⟨?_, hscene⟩
    simp only [Scene.act, List.filterMap_append, List.filterMap_cons_some hnote,
      List.filterMap_nil, hreply, hactions]
  | resume k o =>
    cases ha
    cases k with
    | program label steps =>
      refine ⟨(Action.without_perform gone _ steps).symm, name, { h with entries := ?_ }⟩
      simp only [Continuation.without, Scene.act, h.entries, h.now_eq]
      rfl
    | doubling target x =>
      obtain ⟨-, hactions, hsettle⟩ := h.settle target (o.map fun v => 2 * v + x)
      exact ⟨hactions, name, hsettle⟩
  | note origin step reply =>
    obtain ⟨hstays, ha⟩ := Option.ite_none_left_eq_some.1 ha
    cases ha
    cases origin with
    | script => exact ⟨rfl, name, { h with }⟩
    | continuation label =>
      have hentry : Entry.without gone (.did label step reply) =
          some (.did label (step.without gone) reply) := if_neg hstays
      refine ⟨rfl, name, { h with entries := ?_ }⟩
      simp only [Scene.act, List.filterMap_cons_some hentry, h.entries]
    | later =>
      have hentry : Entry.without gone (.later step reply s.schedule.now) =
          some (.later (step.without gone) reply s.schedule.now) := if_neg hstays
      refine ⟨rfl, name, { h with entries := ?_ }⟩
      simp only [Scene.act, List.filterMap_cons_some hentry, h.entries, h.now_eq]

/-- What starts a waiter who is left out changes nothing else. -/
lemma act_none (h : s.Spares gone name s') {a : Action} (ha : a.without gone = none) :
    (s.act a).1.filterMap (Action.without gone) = [] ∧ (s.act a).2.Spares gone name s' := by
  cases a with
  | resume k o => cases ha
  | perform origin step =>
    have hgoes : step.goes gone = true := by simpa [Action.without] using ha
    obtain ⟨hactions, hscene⟩ := h.step_none hgoes
    have hnote : Action.without gone (.note origin step (s.step step).1) = none := if_pos hgoes
    refine ⟨?_, hscene⟩
    simp only [Scene.act, hactions, List.nil_append, List.filterMap_cons_none hnote,
      List.filterMap_nil]
  | note origin step reply =>
    have hgoes : step.goes gone = true := by simpa [Action.without] using ha
    cases origin with
    | script => exact ⟨rfl, { h with }⟩
    | continuation label =>
      have hentry : Entry.without gone (.did label step reply) = none := if_pos hgoes
      exact ⟨rfl, { h with entries := h.entries.trans (List.filterMap_cons_none hentry).symm }⟩
    | later =>
      have hentry : Entry.without gone (.later step reply s.schedule.now) = none := if_pos hgoes
      exact ⟨rfl, { h with entries := h.entries.trans (List.filterMap_cons_none hentry).symm }⟩

/-- An agenda is worked through in the same way. -/
theorem run (h : s.Spares gone name s') (hs : s.Prompt) (agenda : List Action) :
    ∃ name, (s.run agenda).Spares gone name (s'.run (agenda.filterMap (Action.without gone))) := by
  have hend : (s.run agenda).Prompt ∧ ∃ name₁ s₁', (s.run agenda).Spares gone name₁ s₁' ∧
      s₁'.run ([].filterMap (Action.without gone)) =
        s'.run (agenda.filterMap (Action.without gone)) := by
    refine run_induct (motive := fun rest s₁ => s₁.Prompt ∧ ∃ name₁ s₁', s₁.Spares gone name₁ s₁' ∧
      s₁'.run (rest.filterMap (Action.without gone)) =
        s'.run (agenda.filterMap (Action.without gone))) ?_ ⟨hs, name, s', h, rfl⟩
    rintro a rest s₁ ⟨hs₁, name₁, s₁', h₁, hrun⟩
    refine ⟨hs₁.act a, ?_⟩
    cases ha : a.without gone with
    | none =>
      obtain ⟨hactions, hact⟩ := h₁.act_none ha
      refine ⟨name₁, s₁', hact, ?_⟩
      rw [List.filterMap_append, hactions, List.nil_append, ← hrun, List.filterMap_cons_none ha]
    | some a' =>
      obtain ⟨hactions, name₂, hact⟩ := h₁.act hs₁ ha
      refine ⟨name₂, (s₁'.act a').2, hact, ?_⟩
      rw [List.filterMap_append, ← hactions, ← hrun, List.filterMap_cons_some ha, run_cons]
  obtain ⟨-, name₁, s₁', h₁, hrun⟩ := hend
  rw [← hrun, List.filterMap_nil, run_nil]
  exact ⟨name₁, h₁⟩

/-! ## Turns -/

lemma setTask (h : s.Spares gone name s') (hj : name i = some j) (ht : t.goes gone = false) :
    (s.setTask i t).Spares gone name (s'.setTask j (t.without gone)) where
  promises := h.promises
  handles := h.handles
  tokens := h.tokens
  schedule := h.schedule
  numbers := by
    rw [Scene.setTask, Scene.setTask, List.length_set, List.length_set]
    exact h.numbers
  stays i' j' hj' := by
    obtain ⟨u, hu, hu', hgoes⟩ := h.stays i' j' hj'
    by_cases hi : i' = i
    · subst hi
      obtain rfl : j' = j := Option.some.inj (hj'.symm.trans hj)
      exact ⟨t, List.getElem?_set_self (List.getElem?_eq_some_iff.1 hu).1,
        List.getElem?_set_self (List.getElem?_eq_some_iff.1 hu').1, ht⟩
    · have hne : j ≠ j' := fun hc => hi (h.numbers.distinct i' i j (hc ▸ hj') hj)
      exact ⟨u, (List.getElem?_set_ne (Ne.symm hi)).trans hu, (List.getElem?_set_ne hne).trans hu',
        hgoes⟩
  goes i' u hnone hu := by
    have hne : i ≠ i' := by
      rintro rfl
      cases hj.symm.trans hnone
    exact h.goes i' u hnone ((List.getElem?_set_ne hne).symm.trans hu)
  entries := h.entries
  found := h.found

/-- A task that has no number in the other scene. -/
lemma setTask_none (h : s.Spares gone name s') (hi : name i = none)
    (ht : t = .finished ∨ t.goes gone = true) : (s.setTask i t).Spares gone name s' where
  promises := h.promises
  handles := h.handles
  tokens := h.tokens
  schedule := h.schedule
  numbers := by
    rw [Scene.setTask, List.length_set]
    exact h.numbers
  stays i' j hj := by
    have hne : i ≠ i' := by
      rintro rfl
      cases hj.symm.trans hi
    obtain ⟨u, hu, hrest⟩ := h.stays i' j hj
    exact ⟨u, (List.getElem?_set_ne hne).trans hu, hrest⟩
  goes i' u hnone hu := by
    by_cases he : i = i'
    · subst he
      rw [Scene.setTask, List.getElem?_set_self'] at hu
      obtain ⟨_, -, rfl⟩ := Option.map_eq_some_iff.1 hu
      exact ht
    · exact h.goes i' u hnone ((List.getElem?_set_ne he).symm.trans hu)
  entries := h.entries
  found := h.found

lemma setAlarm (h : s.Spares gone name s') (hj : name i = some j)
    (hs : s.schedule.alarms.Pairwise (·.time ≤ ·.time)) (slot : AlarmSlot) (ms : Nat) :
    Spares gone name { s with schedule := s.schedule.setAlarm i slot ms }
      { s' with schedule := s'.schedule.setAlarm j slot ms } := by
  refine { h with schedule := ?_ }
  rw [h.schedule]
  exact (Schedule.rename_setAlarm hj hs slot ms).symm

lemma setAlarm_none (h : s.Spares gone name s') (hi : name i = none) (slot : AlarmSlot) (ms : Nat) :
    Spares gone name { s with schedule := s.schedule.setAlarm i slot ms } s' :=
  { h with schedule := h.schedule.trans (Schedule.rename_setAlarm_none hi slot ms).symm }

lemma report (h : s.Spares gone name s') (hj : name i = some j) {label : String}
    (hlabel : gone label = false) (o : Outcome Int64) :
    (s.report i label o).Spares gone name (s'.report j label o) := by
  have hset := h.setTask hj (t := .finished) rfl
  refine { hset with schedule := ?_, found := ?_ }
  · refine (congrArg (·.dropAlarms j) h.schedule).trans ?_
    exact (Schedule.rename_dropAlarms h.numbers.distinct hj).symm
  · have hkeep : (!gone label) = true := by rw [hlabel, Bool.not_false]
    refine Eq.trans ?_ (List.filter_cons_of_pos (p := fun r => !gone r.2.1)
      (a := (s.schedule.now, label, o)) hkeep).symm
    exact congrArg₂ List.cons (congrArg (·, label, o) h.now_eq) h.found

lemma report_none (h : s.Spares gone name s') (hi : name i = none) {label : String}
    (hlabel : gone label = true) (o : Outcome Int64) :
    (s.report i label o).Spares gone name s' := by
  have hset := h.setTask_none hi (t := .finished) (.inl rfl)
  refine { hset with schedule := ?_, found := ?_ }
  · exact h.schedule.trans (Schedule.rename_dropAlarms_none hi).symm
  · have hdrop : ¬(!gone label) = true := by simp [hlabel]
    exact h.found.trans (List.filter_cons_of_neg (p := fun r => !gone r.2.1)
      (a := (s.schedule.now, label, o)) hdrop).symm

lemma runLater (h : s.Spares gone name s') (hj : name i = some j)
    (hs : (s.setTask i .finished).Prompt) (steps : List Step) :
    ∃ name, (s.runLater i steps).Spares gone name
      (s'.runLater j (Step.without.all gone steps)) := by
  rw [Scene.runLater, Scene.runLater, ← Action.without_perform]
  exact (h.setTask hj (t := .finished) rfl).run hs _

lemma take (h : s.Spares gone name s') (hready : s.schedule.ready = i :: rest)
    (hj : name i = some j) :
    s'.schedule.ready = j :: rest.filterMap name ∧ (s.take i).Spares gone name (s'.take j) := by
  have hready' : s'.schedule.ready = j :: rest.filterMap name := by
    rw [h.schedule, Schedule.rename, hready, List.filterMap_cons_some hj]
  refine ⟨hready', { h with schedule := ?_ }⟩
  rw [Scene.take, hready', List.erase_cons_head, Scene.take, hready, List.erase_cons_head,
    h.schedule]
  rfl

lemma take_none (h : s.Spares gone name s') (hready : s.schedule.ready = i :: rest)
    (hi : name i = none) : (s.take i).Spares gone name s' := by
  refine { h with schedule := ?_ }
  rw [Scene.take, hready, List.erase_cons_head, h.schedule, Schedule.rename, hready,
    List.filterMap_cons_none hi]
  rfl

/-- A task has its turn in both scenes. -/
theorem turn (h : s.Spares gone name s') (hs : s.Prompt) (hready : s.schedule.ready = i :: rest)
    (hj : name i = some j) :
    ∃ name, ((s.take i).turn i).Spares gone name ((s'.take j).turn j) := by
  obtain ⟨t, ht, ht', hgoes⟩ := h.stays i j hj
  have hi : i ∈ s.schedule.ready := hready ▸ List.mem_cons_self
  have htake := (h.take hready hj).2
  have hnow := htake.now_eq
  have hold : (s.take i).tasks[i]? = some t := ht
  have hnew : (s'.take j).tasks[j]? = some (t.without gone) := ht'
  rw [Scene.turn, Scene.turn, hold, hnew]
  cases t with
  | laterFresh ms steps =>
    simp only [Task.without]
    split
    · exact htake.runLater hj (hs.done hi ht rfl) steps
    · have hset := htake.setTask hj (t := .laterWaiting steps) rfl
      exact ⟨name, hset.setAlarm hj hs.sorted .pause ms⟩
  | laterWaiting steps => exact htake.runLater hj (hs.done hi ht rfl) steps
  | waiterFresh p label limit token =>
    simp only [Task.without, hnow, htake.find?_eq]
    cases (s.take i).find? p (limit.map ((s.take i).schedule.now + ·)) token with
    | some o => exact ⟨name, htake.report hj hgoes o⟩
    | none =>
      have hset := htake.setTask hj
        (t := .waiting p label (limit.map ((s.take i).schedule.now + ·)) token) hgoes
      cases limit with
      | none => exact ⟨name, hset⟩
      | some ms => exact ⟨name, hset.setAlarm hj hs.sorted .deadline ms⟩
  | waiting p label deadline token =>
    simp only [Task.without, htake.find?_eq]
    cases (s.take i).find? p deadline token with
    | some o => exact ⟨name, htake.report hj hgoes o⟩
    | none => exact ⟨name, htake⟩
  | finished => exact ⟨name, htake⟩

/-- The turn of a waiter who is left out. -/
lemma turn_none (h : s.Spares gone name s') (hready : s.schedule.ready = i :: rest)
    (hi : name i = none) : ((s.take i).turn i).Spares gone name s' := by
  have htake := h.take_none hready hi
  rw [Scene.turn]
  cases ht : (s.take i).tasks[i]? with
  | none => exact htake
  | some t =>
    rcases h.goes i t hi ht with rfl | hgoes
    · exact htake
    · cases t with
      | waiterFresh p label limit token =>
        dsimp only
        cases (s.take i).find? p (limit.map ((s.take i).schedule.now + ·)) token with
        | some o => exact htake.report_none hi hgoes o
        | none =>
          have hset := htake.setTask_none hi
            (t := .waiting p label (limit.map ((s.take i).schedule.now + ·)) token) (.inr hgoes)
          cases limit with
          | none => exact hset
          | some ms => exact hset.setAlarm_none hi .deadline ms
      | waiting p label deadline token =>
        dsimp only
        cases (s.take i).find? p deadline token with
        | some o => exact htake.report_none hi hgoes o
        | none => exact htake
      | _ => cases hgoes

/-- Everything that can happen does so in both scenes. -/
theorem drain (h : s.Spares gone name s') (hs : s.Prompt) (hs' : s'.Prompt) :
    ∃ name, s.drain.Spares gone name s'.drain := by
  induction hn : s.workLeft using Nat.strongRecOn generalizing s s' name with
  | _ n ih =>
    cases hready : s.schedule.ready with
    | nil =>
      have hready' : s'.schedule.ready = [] := by
        rw [h.schedule, Schedule.rename, hready, List.filterMap_nil]
      rw [drain_idle hready, drain_idle hready']
      exact ⟨name, h⟩
    | cons i rest =>
      have hi : i ∈ s.schedule.ready := hready ▸ List.mem_cons_self
      have hless := (hs.turned hi).workLeft_lt
      rw [hs.drain_cons hready]
      cases hj : name i with
      | none => exact ih _ (hn ▸ hless) (h.turn_none hready hj) (hs.turn hi) hs' rfl
      | some j =>
        obtain ⟨hready', -⟩ := h.take hready hj
        have hj' : j ∈ s'.schedule.ready := hready' ▸ List.mem_cons_self
        obtain ⟨name', hturn⟩ := h.turn hs hready hj
        rw [hs'.drain_cons hready']
        exact ih _ (hn ▸ hless) hturn (hs.turn hi) (hs'.turn hj') rfl

/-! ## Time -/

lemma passTo (h : s.Spares gone name s') (time : Nat) :
    (s.passTo time).Spares gone name (s'.passTo time) := by
  refine { h with schedule := ?_ }
  rw [Scene.passTo, Scene.passTo, h.schedule]
  exact (Schedule.rename_moveTo h.numbers.distinct time).symm

/-- The alarms that are left go off at the same times. -/
lemma alarms (h : s.Spares gone name s') {moment : Nat}
    (hlate : ∀ a ∈ s.schedule.alarms, moment ≤ a.time) :
    ∀ a ∈ s'.schedule.alarms, moment ≤ a.time := by
  intro a' ha'
  rw [h.schedule] at ha'
  obtain ⟨a, ha, hrename⟩ := List.mem_filterMap.1 ha'
  rw [(Schedule.rename_alarm hrename).2]
  exact hlate a ha

variable {stop : Scene → Bool} {time : Nat}

/-- Time passes in both scenes from moment to moment. -/
theorem passes (hstop : ∀ name (s s' : Scene), s.Spares gone name s' → stop s' = stop s)
    {u : Scene} (hp : Passes stop time s u) (h : s.Spares gone name s') (hs : s.Prompt)
    (hs' : s'.Prompt) : ∃ name u', u.Spares gone name u' ∧ Passes stop time s' u' := by
  induction hp generalizing s' name with
  | stops hstops =>
    obtain ⟨name', hdrain⟩ := h.drain hs hs'
    exact ⟨name', _, hdrain, .stops ((hstop _ _ _ hdrain).trans hstops)⟩
  | arrives hgoes hnow hnext =>
    obtain ⟨name', hdrain⟩ := h.drain hs hs'
    exact ⟨name', _, hdrain.passTo time, .arrives ((hstop _ _ _ hdrain).trans hgoes)
      (h.now_eq.trans_le hnow) (hdrain.alarms hnext)⟩
  | goes moment hgoes hnow hlt hnext _ ih =>
    obtain ⟨name', hdrain⟩ := h.drain hs hs'
    have hnow' := h.now_eq.trans_le hnow
    have hprompt := hs.drain.passTo (hs.now_drain.trans_le hnow)
    have hprompt' := hs'.drain.passTo (hs'.now_drain.trans_le hnow')
    obtain ⟨name'', u', hu, hrest⟩ := ih (hdrain.passTo moment) hprompt hprompt'
    exact ⟨name'', u', hu, .goes moment ((hstop _ _ _ hdrain).trans hgoes) hnow' hlt
      (hdrain.alarms hnext) hrest⟩

end Spares

end Scene

end ConsensusLink.Promise
