import ConsensusLink.Proofs.Promise.Performance
import Mathlib.Data.List.Induction
import Mathlib.Logic.Function.Iterate
/-!
# Promises are settled once

A program is played by performing its steps, each to its end. What comes of it is what the scene
comes to, and the history of its promises is lawful as a whole: nothing is planned any more. So
whatever continuations do to the promises that they wait for, or to others, a promise keeps its
first outcome, and what is registered on it runs once if it is settled, and else never.
-/

namespace ConsensusLink.Promise

open Occurrence

/-! ## Outcomes are final -/

namespace Scene

variable {s : Scene} {n : Nat} {p : Id} {o : Outcome Int64}

lemma outcome?_eq (h : s.id? n = some p) : s.outcome? n = s.promises.outcome? p := by
  rw [Scene.outcome?, h]
  rfl

/-- What a handle shows is shown from then on. -/
lemma outcome?_act (h : s.outcome? n = some o) (a : Action) : (s.act a).2.outcome? n = some o := by
  cases hn : s.id? n with
  | none =>
    rw [Scene.outcome?, hn] at h
    cases h
  | some p =>
    obtain ⟨l, hl, -⟩ := s.handles_act a
    have hn' : (s.act a).2.id? n = some p := by
      rw [id?, hl]
      exact List.getElem?_append_left (List.getElem?_eq_some_iff.1 hn).1 ▸ hn
    rw [outcome?_eq hn] at h
    rw [outcome?_eq hn']
    exact (s.persists_act a).outcome p o h

/-- The outcome that a handle shows is final: whatever is done, the handle shows it, and whoever
settles the promise is told that it is settled and changes nothing. -/
structure Final (s : Scene) (n : Nat) (o : Outcome Int64) : Prop where
  stays : ∀ agenda, (s.run agenda).outcome? n = some o
  resolve : ∀ v, s.step (.resolve n v) = (.already, [], s)
  reject : ∀ e, s.step (.reject n e) = (.refused, [], s)

lemma final_of_outcome? (h : s.outcome? n = some o) : s.Final n o := by
  obtain ⟨p, hn, ho⟩ : ∃ p, s.id? n = some p ∧ s.promises.outcome? p = some o :=
    Option.bind_eq_some_iff.1 h
  have hsettle : ∀ o', s.settle p o' = (false, [], s) := fun o' => by
    have hnone : s.promises.settle? p o' = none :=
      Store.settle?_eq_none_of_isSettled (by rw [Store.isSettled, ho]; rfl) o'
    rw [settle, hnone]
  refine ⟨fun agenda => ?_, fun v => ?_, fun e => ?_⟩
  · refine run_induct (motive := fun _ s' => s'.outcome? n = some o) (fun a _ s' hs' => ?_) h
    exact outcome?_act hs' a
  · simp [step, hn, hsettle]
  · simp [step, hn, hsettle]

/-- Who settles a promise first, by the handle `n`, is told so, and all handles of the promise show
the outcome at once. -/
structure First (s : Scene) (n : Nat) (p : Id) : Prop where
  resolve : ∀ v, (s.step (.resolve n v)).1 = .settled ∧
    ∀ m, s.id? m = some p → (s.step (.resolve n v)).2.2.outcome? m = some (.ok v)
  reject : ∀ e, (s.step (.reject n e)).1 = .settled ∧
    ∀ m, s.id? m = some p → (s.step (.reject n e)).2.2.outcome? m = some (.error e)

lemma first_of_pending (hn : s.id? n = some p) (hp : s.promises.Pending p) : s.First n p := by
  have hsettle : ∀ o, (s.settle p o).1 = true ∧
      ∀ m, s.id? m = some p → (s.settle p o).2.2.outcome? m = some o := by
    intro o
    obtain ⟨ks, promises, -, hs⟩ := hp.exists_settle? o
    rw [settle, hs]
    exact ⟨rfl, fun m hm => Option.bind_eq_some_iff.2 ⟨p, hm, Store.outcome?_of_settle? hs⟩⟩
  refine ⟨fun v => ?_, fun e => ?_⟩
  · obtain ⟨htook, hshows⟩ := hsettle (.ok v)
    simp only [step, hn]
    exact ⟨if_pos htook, hshows⟩
  · obtain ⟨htook, hshows⟩ := hsettle (.error e)
    simp only [step, hn]
    exact ⟨if_pos htook, hshows⟩

/-- Every promise is settled once. -/
structure SettlesOnce (s : Scene) : Prop where
  first : ∀ n p, s.id? n = some p → s.promises.Pending p → s.First n p
  final : ∀ n o, s.outcome? n = some o → s.Final n o

end Scene

/-! ## What is seen of continuations -/

/-- The program that has begun to run, by its label, with the outcome. -/
def Entry.run? : Entry → Option (String × Outcome Int64)
  | .ran label o _ => some (label, o)
  | _ => none

/-- The program that is to run, by its label, with the outcome. -/
def Action.run? : Action → Option (String × Outcome Int64)
  | .resume (.program label _) o => some (label, o)
  | _ => none

/-- The program that begins to run, by its label, with the outcome. -/
def Occurrence.run? : Occurrence → Option (String × Outcome Int64)
  | .ran _ _ (.program label _) o _ => some (label, o)
  | _ => none

/-- The scene puts on record which programs begin to run. -/
lemma Scene.run?_act (s : Scene) (a : Action) :
    (s.act a).2.entries.filterMap Entry.run? =
      a.run?.toList ++ s.entries.filterMap Entry.run? := by
  have hsettle : ∀ p o, (s.settle p o).2.2.entries = s.entries := by
    intro p o
    unfold settle
    split <;> rfl
  have hstep : ∀ step, (s.step step).2.2.entries = s.entries := by
    intro step
    cases step with
    | clone n | waiter n label limit token =>
      cases hn : s.id? n <;> simp [Scene.step, addHandle, spawn, hn]
    | map n x => cases hn : s.id? n <;> simp [Scene.step, addHandle, register, hn]
    | onSettled n label steps => cases hn : s.id? n <;> simp [Scene.step, register, hn]
    | resolve n v => cases hn : s.id? n <;> simp [Scene.step, hsettle, hn]
    | reject n e => cases hn : s.id? n <;> simp [Scene.step, hsettle, hn]
    | _ => rfl
  cases a with
  | perform origin step => exact congrArg _ (hstep step)
  | resume k o =>
    cases k with
    | program label steps => rfl
    | doubling t x => exact congrArg _ (hsettle t _)
  | note origin step reply => cases origin <;> rfl

namespace Performance

variable {x : Performance} {a : Action}

/-! ## Performing to the end -/

/-- How much is only to be put on record. -/
def marks (x : Performance) : Nat := x.agenda.countP (·.action?.isNone)

/-- How much there is left to do, with what is to be put on record. -/
def rank (x : Performance) : Nat := 3 * x.scene.work x.actions + x.marks

/-- What a deed is to run are continuations. -/
lemma countP_of_call? {promises : Store Int64 Failure Continuation} {d : Deed}
    {er : Occurrence × List Item} (h : x.call? promises d = some er) :
    er.2.countP (·.action?.isNone) = 0 := by
  rw [List.countP_eq_zero]
  intro i hi
  cases d with
  | nothing => cases h
  | makes o =>
    cases h
    cases hi
  | settles p o =>
    rw [call?] at h
    split at h
    · cases h
      cases hi
    · cases h
      obtain ⟨y, -, rfl⟩ := List.mem_map.1 hi
      simp [Item.action?]
  | registers p k =>
    cases h
    obtain ⟨o, -, rfl⟩ := Option.map_eq_some_iff.1 (Option.mem_toList.1 hi)
    simp [Item.action?]

lemma marks_carryOut_le (x : Performance) (a : Action) : (x.carryOut a).marks ≤ x.marks + 1 := by
  have hfollows : ((x.scene.follows a).map Item.act).countP (·.action?.isNone) = 0 := by
    rw [List.countP_eq_zero]
    intro i hi
    obtain ⟨a', -, rfl⟩ := List.mem_map.1 hi
    simp [Item.action?]
  rw [carryOut]
  cases hcall : x.call? (x.scene.base a) (x.scene.deed a) with
  | none =>
    simp only [marks, List.countP_append, hfollows]
    omega
  | some er =>
    have hruns := countP_of_call? hcall
    simp only [marks, List.countP_append, List.countP_cons, hfollows, hruns]
    simp [Item.action?]

/-- Carrying out the first action keeps the record, leaves less to do, and comes to the same. -/
lemma Faithful.carryOut_first {y : Performance} (hy : y.Faithful)
    (ha : ∀ t z o, a = .resume (.doubling t z) o → y.scene.promises.Known t)
    (hscene : y.scene = x.scene) (hactions : x.actions = a :: y.actions)
    (hmarks : y.marks ≤ x.marks + 1) :
    (y.carryOut a).Faithful ∧ (y.carryOut a).rank < x.rank ∧
      (y.carryOut a).scene.run (y.carryOut a).actions = x.scene.run x.actions := by
  obtain ⟨hfaithful, hactions'⟩ := hy.carryOut ha
  refine ⟨hfaithful, ?_, ?_⟩
  · have hwork := y.scene.work_act_lt a y.actions
    have hle := marks_carryOut_le y a
    rw [rank, rank, scene_carryOut, hactions', hactions, ← hscene]
    omega
  · rw [scene_carryOut, hactions', hactions, ← hscene, Scene.run_cons]

/-- What is planned next is put on record. -/
lemma Faithful.record (h : x.Faithful) {e : Occurrence} {agenda : List Item}
    (hplan : x.plan = e :: agenda.flatMap Item.plan)
    (hplain : ∀ k o, Item.act (.resume k o) ∉ agenda) :
    Faithful { x with agenda, history := x.history ++ [e] } where
  lawful := h.lawful.advance hplan
  tallies := by
    have he : Plannable x.history e := h.lawful.plannable e (hplan ▸ List.mem_cons_self)
    refine h.tallies.note ?_ ?_
    · rintro c p o rfl
      exact he
    · rintro c p k rfl
      exact he
  handles := h.handles
  plain := hplain

/-- What is only to be put on record is no action. -/
lemma Faithful.record_first (h : x.Faithful) {i : Item} {rest : List Item} {e : Occurrence}
    (hrest : x.agenda = i :: rest) (hi : i.plan = [e]) (hnone : i.action? = none)
    (hplain : ∀ k o, Item.act (.resume k o) ∉ rest) :
    Faithful { x with agenda := rest, history := x.history ++ [e] } ∧
      rank { x with agenda := rest, history := x.history ++ [e] } < x.rank ∧
      x.scene.run (rest.filterMap Item.action?) = x.scene.run x.actions := by
  have hplan : x.plan = e :: rest.flatMap Item.plan := by
    rw [plan, hrest, List.flatMap_cons, hi]
    rfl
  have hactions : x.actions = rest.filterMap Item.action? := by
    rw [actions, hrest, List.filterMap_cons_none hnone]
  have hmarks : x.marks = rest.countP (·.action?.isNone) + 1 := by
    rw [marks, hrest, List.countP_cons, hnone]
    rfl
  refine ⟨h.record hplan hplain, ?_, ?_⟩
  · rw [rank, rank, hactions, hmarks]
    exact Nat.lt_succ_self _
  · rw [hactions]

/-- Doing what is to be done next keeps the record, leaves less to do, and comes to the same. -/
lemma Faithful.next (h : x.Faithful) (hagenda : x.agenda ≠ []) :
    x.next.Faithful ∧ x.next.rank < x.rank ∧
      x.next.scene.run x.next.actions = x.scene.run x.actions := by
  have hplain : ∀ {i rest}, x.agenda = i :: rest → ∀ k o, Item.act (.resume k o) ∉ rest :=
    fun hrest k o hmem => h.plain k o (hrest ▸ List.mem_cons_of_mem _ hmem)
  unfold Performance.next
  split
  case h_1 => contradiction
  case h_2 a rest hrest =>
    have hy : Faithful { x with agenda := rest } := by
      refine ⟨?_, h.tallies, h.handles, hplain hrest⟩
      have hlawful := h.lawful
      rwa [plan, hrest] at hlawful
    -- continuations stand on the agenda with their calls only
    have ha : ∀ t y o, a = .resume (.doubling t y) o → x.scene.promises.Known t := by
      rintro t y o rfl
      exact absurd (hrest ▸ List.mem_cons_self) (h.plain _ _)
    have hactions : x.actions = a :: actions { x with agenda := rest } := by
      rw [actions, hrest]
      rfl
    refine hy.carryOut_first ha rfl hactions ?_
    simp [marks, hrest, Item.action?]
  case h_3 c p k o rest hrest =>
    -- the continuation was registered, and the promise shows the outcome
    have hplan : x.plan = .ran c p k o (some o) :: .ended c :: rest.flatMap Item.plan := by
      rw [plan, hrest]
      rfl
    obtain ⟨hregistered, hsettled, -⟩ :=
      h.lawful.plannable (.ran c p k o (some o)) (hplan ▸ List.mem_cons_self)
    have hshown : x.scene.promises.outcome? p = some o := (h.tallies.outcome p o).2 hsettled
    dsimp only
    rw [hshown]
    set y : Performance :=
      { x with agenda := .ended c :: rest, history := x.history ++ [.ran c p k o (some o)] }
      with hydef
    have hy : y.Faithful := by
      refine h.record hplan fun k' o' hmem => ?_
      exact hplain hrest k' o' ((List.mem_cons.1 hmem).resolve_left (by simp))
    have ha : ∀ t z o', Action.resume k o = .resume (.doubling t z) o' →
        y.scene.promises.Known t := by
      rintro t z o' he
      cases he
      exact h.tallies.targets c p t z hregistered
    have hactions : x.actions = .resume k o :: y.actions := by
      rw [actions, hrest]
      rfl
    refine hy.carryOut_first ha rfl hactions ?_
    simp [marks, hrest, hydef, Item.action?]
  case h_4 c rest hrest => exact h.record_first hrest rfl rfl (hplain hrest)
  case h_5 c rest hrest => exact h.record_first hrest rfl rfl (hplain hrest)

/-! ## What is on record -/

/-- The scene has put on record the same runs of programs as the history. -/
def Logged (x : Performance) : Prop :=
  (x.scene.entries.filterMap Entry.run?).reverse = x.history.filterMap Occurrence.run?

lemma run?_of_call? {promises : Store Int64 Failure Continuation} {d : Deed}
    {er : Occurrence × List Item} (h : x.call? promises d = some er) : er.1.run? = none := by
  cases d with
  | nothing => cases h
  | makes o | registers p k =>
    cases h
    rfl
  | settles p o =>
    rw [call?] at h
    split at h <;> cases h <;> rfl

lemma filterMap_run?_carryOut (x : Performance) (a : Action) :
    (x.carryOut a).history.filterMap Occurrence.run? = x.history.filterMap Occurrence.run? := by
  rw [carryOut]
  cases hcall : x.call? (x.scene.base a) (x.scene.deed a) with
  | none => rfl
  | some er =>
    have hnone : [er.1].filterMap Occurrence.run? = [] :=
      List.filterMap_cons_none (run?_of_call? hcall)
    change (x.history ++ [er.1]).filterMap Occurrence.run? = _
    rw [List.filterMap_append, hnone, List.append_nil]

lemma Faithful.logged_next (h : x.Faithful) (hl : x.Logged) : x.next.Logged := by
  unfold Performance.next
  split
  case h_1 => exact hl
  case h_2 a rest hrest =>
    have hnone : a.run? = none := by
      cases a with
      | resume k o => exact absurd (hrest ▸ List.mem_cons_self) (h.plain k o)
      | _ => rfl
    rw [Logged, filterMap_run?_carryOut, scene_carryOut, Scene.run?_act, hnone]
    exact hl
  case h_3 c p k o rest hrest =>
    rw [Logged, filterMap_run?_carryOut, scene_carryOut, Scene.run?_act, List.reverse_append,
      List.filterMap_append]
    refine congrArg₂ _ hl ?_
    cases k <;> rfl
  case h_4 c rest hrest =>
    rw [Logged, List.filterMap_append]
    exact hl.trans (List.append_nil _).symm
  case h_5 c rest hrest =>
    rw [Logged, List.filterMap_append]
    exact hl.trans (List.append_nil _).symm

/-! ## Performing a program -/

/-- Does everything that is to be done. -/
def finish (x : Performance) : Performance := next^[x.rank] x

/-- A performance comes to its end, and to what the scene comes to. -/
lemma Faithful.iterate_next (h : x.Faithful) (hl : x.Logged) {n : Nat} (hn : x.rank ≤ n) :
    (Performance.next^[n] x).Faithful ∧ (Performance.next^[n] x).Logged ∧
      (Performance.next^[n] x).agenda = [] ∧
      (Performance.next^[n] x).scene = x.scene.run x.actions := by
  induction n generalizing x with
  | zero =>
    have hagenda : x.agenda = [] := by
      by_contra hne
      exact absurd (h.next hne).2.1 (by omega)
    refine ⟨h, hl, hagenda, ?_⟩
    rw [actions, hagenda]
    exact (Scene.run_nil _).symm
  | succ n ih =>
    by_cases hagenda : x.agenda = []
    · have hnext : x.next = x := by rw [Performance.next, hagenda]
      rw [Function.iterate_fixed hnext]
      refine ⟨h, hl, hagenda, ?_⟩
      rw [actions, hagenda]
      exact (Scene.run_nil _).symm
    · obtain ⟨hnext, hrank, hrun⟩ := h.next hagenda
      rw [Function.iterate_succ_apply, ← hrun]
      exact ih hnext (h.logged_next hl) (by omega)

/-- Performs a step of the script. -/
def perform (x : Performance) (step : Step) : Performance :=
  finish { x with agenda := [.act (.perform .script step)] }

/-- A program that is performed. -/
def play (program : List Step) : Performance := program.foldl perform {}

lemma faithful_empty : Faithful {} where
  lawful := lawful_nil
  tallies := .empty
  handles _ hp := nomatch hp
  plain _ _ hmem := nomatch hmem

lemma Faithful.perform (h : x.Faithful) (hl : x.Logged) (hagenda : x.agenda = []) (step : Step) :
    (x.perform step).Faithful ∧ (x.perform step).Logged ∧ (x.perform step).agenda = [] ∧
      (x.perform step).scene = x.scene.perform step := by
  have hstart : Faithful { x with agenda := [.act (.perform .script step)] } := by
    refine ⟨?_, h.tallies, h.handles, by simp⟩
    have hlawful := h.lawful
    rwa [plan, hagenda] at hlawful
  exact hstart.iterate_next hl (Nat.le_refl _)

/-- Performing a program keeps the record, and comes to what the scene comes to. -/
lemma faithful_play (program : List Step) :
    (play program).Faithful ∧ (play program).Logged ∧ (play program).agenda = [] ∧
      (play program).scene = program.foldl Scene.perform {} := by
  induction program using List.reverseRecOn with
  | nil => exact ⟨faithful_empty, rfl, rfl, rfl⟩
  | append_singleton program step ih =>
    obtain ⟨hfaithful, hlogged, hagenda, hscene⟩ := ih
    rw [play, List.foldl_append, List.foldl_append, ← hscene]
    exact hfaithful.perform hlogged hagenda step

/-! ## What comes of programs -/

/-- What was registered on a promise runs to its end if the promise is settled. -/
lemma Faithful.runOf_sublist (h : x.Faithful) (hagenda : x.agenda = []) {c : Nat} {p : Id}
    {k : Continuation} {o : Outcome Int64} (hregistered : .registered c p k ∈ x.history)
    (hsettled : Settled x.history p o) : List.Sublist (runOf p o (c, k)) x.history := by
  have hplan : x.plan = [] := by
    rw [plan, hagenda]
    rfl
  obtain ⟨d, hd⟩ := hsettled
  obtain ⟨before, after, hsplit⟩ := List.append_of_mem hd
  have hlaw := h.lawful.law before _ after hsplit
  rw [hplan, List.append_nil] at hlaw
  rw [hsplit] at hregistered ⊢
  rcases List.mem_append.1 hregistered with hmem | hmem
  · -- it waited when the promise was settled
    have hruns : List.Sublist (runOf p o (c, k)) (runsOf p o before) := by
      obtain ⟨ks, ks', hks⟩ := List.append_of_mem (mem_registrants.2 hmem)
      rw [runsOf, hks, List.flatMap_append, List.flatMap_cons]
      exact (List.sublist_append_left _ _).trans (List.sublist_append_right _ _)
    refine (hruns.trans (List.sublist_append_left _ _)).trans (hlaw.2.trans ?_)
    exact (List.sublist_cons_self _ _).trans (List.sublist_append_right _ _)
  · -- it was registered when the promise was settled already
    obtain ⟨mid, rest, rfl⟩ := List.append_of_mem ((List.mem_cons.1 hmem).resolve_left (by simp))
    have hlater := h.lawful.law (before ++ .settled d p o :: mid) (.registered c p k) rest
      (by rw [hsplit]; simp)
    rw [hplan, List.append_nil] at hlater
    refine ((List.sublist_append_left _ _).trans (hlater.1 o ⟨d, by simp⟩)).trans ?_
    exact List.sublist_append_of_sublist_right (((List.sublist_cons_self _ _).trans
      (List.sublist_append_right _ _)).trans (List.sublist_cons_self _ _))

/-- What can be said of a program that has been performed. -/
structure Orderly (program : List Step) (x : Performance) : Prop where
  /-- The history is that of the scene: it has the same runs of programs, in the same order. -/
  scene : x.scene = program.foldl Scene.perform {}
  log : (x.scene.entries.filterMap Entry.run?).reverse = x.history.filterMap Occurrence.run?
  /-- A handle shows the outcome that its promise was settled with. -/
  outcome : ∀ n p o, x.scene.id? n = some p →
    (x.scene.outcome? n = some o ↔ Settled x.history p o)
  /-- Every call is made and returns once, and its continuation runs and ends once, at most. -/
  once : (x.history.map key).Nodup
  /-- What happens was to happen, and is followed by what must follow: a promise is settled only if
  it was not settled before, and is refused only if it was. What was registered on it runs before
  the settlement returns, in the order of registration; what is registered later runs before the
  registration returns. What runs is given the outcome, which the promise shows already. -/
  law : ∀ before e after, x.history = before ++ e :: after → Law before e after
  /-- What is registered on a promise that is settled, before or after, runs to its end. -/
  runs : ∀ c p k o, .registered c p k ∈ x.history → Settled x.history p o →
    List.Sublist (runOf p o (c, k)) x.history
  /-- What is registered on a promise that is never settled does not run. -/
  never : ∀ c p k, .registered c p k ∈ x.history → (∀ o, ¬Settled x.history p o) →
    ∀ q k' o shown, .ran c q k' o shown ∉ x.history

/-- **Promises are settled once.** Whatever a program does, and whatever its continuations do to the
promises that they wait for and to others, however deep that goes: what happens to promises is
orderly. In every scene, also in the midst of this, who settles a promise first fixes what all its
handles show from then on, and who settles it again is told so and changes nothing. -/
theorem single_assignment (program : List Step) :
    (play program).Orderly program ∧ ∀ s : Scene, s.SettlesOnce := by
  obtain ⟨h, hlogged, hagenda, hscene⟩ := faithful_play program
  have hplan : (play program).plan = [] := by
    rw [plan, hagenda]
    rfl
  refine ⟨?_, fun s => ⟨fun n p => Scene.first_of_pending, fun n o => Scene.final_of_outcome?⟩⟩
  refine
    { scene := hscene
      log := hlogged
      outcome := fun n p o hn => ?_
      once := ?_
      law := fun before e after he => ?_
      runs := fun c p k o => h.runOf_sublist hagenda
      never := fun c p k hregistered hnot q k' o shown hr => ?_ }
  · rw [Scene.outcome?_eq hn]
    exact h.tallies.outcome p o
  · have honce := h.lawful.once
    rwa [hplan, List.append_nil] at honce
  · have hlaw := h.lawful.law before e after he
    rwa [hplan, List.append_nil] at hlaw
  · exact h.lawful.not_ran hnot hregistered (List.mem_append_left _ hr)

/-- While the first of two continuations runs it settles another promise, whose continuation runs at
once, and registers a third one, which runs before the second of the two. -/
example :
    let x := play [.new, .new, .onSettled 1 "inner" [.reject 0 .timeout],
      .onSettled 0 "first" [.resolve 1 5, .onSettled 0 "late" []], .onSettled 0 "second" [],
      .resolve 0 7, .resolve 0 8, .resolve 1 9]
    x.history.filterMap Occurrence.run? =
        [("first", .ok 7), ("inner", .ok 5), ("late", .ok 7), ("second", .ok 7)] ∧
      x.scene.outcome? 0 = some (.ok 7) ∧ x.scene.outcome? 1 = some (.ok 5) := ⟨rfl, rfl, rfl⟩

end Performance

end ConsensusLink.Promise
