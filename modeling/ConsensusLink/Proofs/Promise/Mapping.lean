import ConsensusLink.Proofs.Promise.Performance
import ConsensusLink.Proofs.Promise.Web
import Mathlib.Data.List.Induction
import Mathlib.Logic.Function.Iterate
/-!
# Mapping is lawful

The target of a mapping shows a function of what its source shows, as soon as no hook is due, and no
hook remains due. So it does not matter when a promise is mapped and what else hangs on it, and to
map twice is to map with the composition. What the programs of a scene do to its promises are moves
of a web, in which the hooks run one inside the other.
-/

namespace ConsensusLink.Promise

variable {α ε κ : Type}

namespace Web

variable {n : Web α ε κ} {m : Mapping α} {p q r r' t : Id} {f g : α → α} {o : Except ε α}

/-! ## What becomes of a mapping -/

/-- Where the hook of a mapping is, and what its source and its target show then. -/
inductive Stage (n : Web α ε κ) (m : Mapping α) : Prop
  /-- It waits for the source. -/
  | waits (hsource : n.promises.outcome? m.source = none)
      (htarget : n.promises.outcome? m.target = none)
      (hwaits : .maps m.target m.f ∈ n.promises.continuations m.source)
  /-- It is to run. -/
  | due {o : Except ε α} (hsource : n.promises.outcome? m.source = some o)
      (htarget : n.promises.outcome? m.target = none) (hdue : (.maps m.target m.f, o) ∈ n.due)
  /-- It has run. -/
  | done {o : Except ε α} (hsource : n.promises.outcome? m.source = some o)
      (htarget : n.promises.outcome? m.target = some (o.map m.f)) (hran : (m.target, o) ∈ n.ran)

/-- Mappings are known by their targets. -/
lemma Woven.eq_of_target (h : n.Woven) {m m' : Mapping α} (hm : m ∈ n.mappings)
    (hm' : m' ∈ n.mappings) (he : m.target = m'.target) : m = m' :=
  List.inj_on_of_nodup_map h.own hm hm' he

lemma Woven.stage (h : n.Woven) (hm : m ∈ n.mappings) (hnot : m.target ∉ n.meddled) :
    n.Stage m := by
  obtain ⟨p, t, f⟩ := m
  have hmem : t ∈ n.targets := h.placed.mem_iff.2 (List.mem_map_of_mem hm)
  rcases List.mem_append.1 hmem with hopen | hran
  · -- the hook has not run, so that nobody has settled the target
    have hnotran := (List.disjoint_of_nodup_append (h.placed.nodup_iff.2 h.own)) hopen
    have htarget := h.untouched _ hm hnot hnotran
    obtain ⟨k, hk, hkt⟩ := List.mem_filterMap.1 hopen
    cases k with
    | other k => cases hkt
    | maps t f =>
      cases hkt
      rcases List.mem_append.1 hk with hk | hk
      · obtain ⟨p, hp⟩ := Store.mem_waiting hk
        cases h.eq_of_target (h.waits p t f hp) hm rfl
        refine .waits ?_ htarget hp
        by_contra hne
        obtain ⟨o, ho⟩ := Option.ne_none_iff_exists'.1 hne
        rw [Store.continuations_of_outcome ho] at hp
        cases hp
      · obtain ⟨⟨_, o⟩, hd, rfl⟩ := List.mem_map.1 hk
        obtain ⟨p, hm', ho⟩ := h.due t f o hd
        cases h.eq_of_target hm' hm rfl
        exact .due ho htarget hd
  · obtain ⟨⟨t, o⟩, hr, rfl⟩ := List.mem_map.1 hran
    obtain ⟨p, f, hm', ho, ht⟩ := h.ran t o hr
    cases h.eq_of_target hm' hm rfl
    exact .done ho (ht hnot) hr

/-! ## To the end -/

/-- Runs one hook, if any is due. -/
def next (n : Web α ε κ) : Web α ε κ := n.after (.run 0)

/-- Runs the hooks that are due, and those that become due thereby. -/
def finish (n : Web α ε κ) : Web α ε κ := next^[n.hooks.length] n

lemma hooks_settle (n : Web α ε κ) (p : Id) (o : Except ε α) :
    (n.settle p o).hooks.length = n.hooks.length :=
  (shifts_settle n p o).hooks.length_eq

/-- Every hook that runs is one less. -/
lemma length_hooks_next (hdue : n.due ≠ []) : n.next.hooks.length + 1 = n.hooks.length := by
  obtain ⟨⟨k, o⟩, rest, hrest⟩ := List.exists_cons_of_ne_nil hdue
  have hlength : (hooks { n with due := rest }).length + 1 = n.hooks.length := by
    simp only [hooks, hrest, List.length_append, List.length_map, List.length_cons]
    omega
  rw [← hlength, next, after, hrest]
  cases k with
  | other k => rfl
  | maps t f => exact congrArg (· + 1) (hooks_settle _ _ _)

lemma next_eq_self (hdue : n.due = []) : n.next = n := by
  rw [next, after, hdue]
  rfl

lemma due_iterate_next {k : Nat} (hk : n.hooks.length ≤ k) : (next^[k] n).due = [] := by
  induction k generalizing n with
  | zero =>
    have hnil : n.hooks = [] := List.length_eq_zero_iff.1 (Nat.le_zero.1 hk)
    exact List.map_eq_nil_iff.1 (List.append_eq_nil_iff.1 hnil).2
  | succ k ih =>
    by_cases hdue : n.due = []
    · rw [Function.iterate_fixed (next_eq_self hdue)]
      exact hdue
    · have hlength := length_hooks_next hdue
      rw [Function.iterate_succ_apply]
      exact ih (by omega)

/-- Running a hook makes no mapping and is no meddling. -/
lemma next_frame (n : Web α ε κ) : n.next.mappings = n.mappings ∧ n.next.meddled = n.meddled := by
  rw [next, after]
  split
  · rename_i k o _
    cases k with
    | other k => exact ⟨rfl, rfl⟩
    | maps t f =>
      obtain ⟨promises, due, he⟩ := settle_frame
        { n with due := n.due.eraseIdx 0, ran := (t, o) :: n.ran } t (o.map f)
      rw [run, he]
      exact ⟨rfl, rfl⟩
  · exact ⟨rfl, rfl⟩

lemma finish_frame (n : Web α ε κ) :
    n.finish.mappings = n.mappings ∧ n.finish.meddled = n.meddled := by
  refine Function.Iterate.rec (fun n' : Web α ε κ => n'.mappings = n.mappings ∧
    n'.meddled = n.meddled) ⟨rfl, rfl⟩ (fun n' h => ?_) _
  exact ⟨(next_frame n').1.trans h.1, (next_frame n').2.trans h.2⟩

/-! ## Laws -/

/-- What holds of a mapping whose target nobody else settles. -/
structure Maps (n : Web α ε κ) (m : Mapping α) : Prop where
  /-- The target is not settled before the source, and then with the function of the value or the
  same failure. -/
  after : ∀ o', n.promises.outcome? m.target = some o' →
    ∃ o, n.promises.outcome? m.source = some o ∧ o' = o.map m.f
  /-- Once the source is settled the target is, or its hook is about to run. -/
  prompt : ∀ o, n.promises.outcome? m.source = some o →
    n.promises.outcome? m.target = some (o.map m.f) ∨ (.maps m.target m.f, o) ∈ n.due
  /-- So both are settled or none, when no hook is about to run. -/
  together : n.due = [] →
    n.promises.outcome? m.target = (n.promises.outcome? m.source).map (Except.map m.f)

lemma Stage.maps (h : n.Stage m) : n.Maps m := by
  cases h with
  | waits hsource htarget =>
    refine ⟨fun o' ho' => ?_, fun o ho => ?_, fun _ => ?_⟩
    · cases htarget.symm.trans ho'
    · cases hsource.symm.trans ho
    · rw [hsource, htarget]
      rfl
  | @due o hsource htarget hdue =>
    refine ⟨fun o' ho' => ?_, fun o' ho' => ?_, fun hnone => ?_⟩
    · cases htarget.symm.trans ho'
    · cases hsource.symm.trans ho'
      exact .inr hdue
    · rw [hnone] at hdue
      cases hdue
  | @done o hsource htarget =>
    refine ⟨fun o' ho' => ?_, fun o' ho' => ?_, fun _ => ?_⟩
    · exact ⟨o, hsource, Option.some.inj (ho'.symm.trans htarget)⟩
    · cases hsource.symm.trans ho'
      exact .inl htarget
    · rw [hsource, htarget]
      rfl

/-- The laws of mapping. -/
structure Lawful (n : Web α ε κ) : Prop where
  maps : ∀ m ∈ n.mappings, m.target ∉ n.meddled → n.Maps m
  /-- The hook of a mapping runs once at most, and is given what the source shows; so the function
  is applied once at most, to the value of the source. -/
  once : (n.ran.map (·.1)).Nodup ∧ ∀ m ∈ n.mappings, ∀ o, (m.target, o) ∈ n.ran →
    n.promises.outcome? m.source = some o
  /-- To map a promise twice, one function after the other, is to map it with the composition. -/
  composes : ∀ p q r r' f g, ⟨p, q, f⟩ ∈ n.mappings → ⟨q, r, g⟩ ∈ n.mappings →
    ⟨p, r', g ∘ f⟩ ∈ n.mappings → q ∉ n.meddled → r ∉ n.meddled → r' ∉ n.meddled →
      (n.due = [] → n.promises.outcome? r = n.promises.outcome? r') ∧
      ∀ o o', n.promises.outcome? r = some o → n.promises.outcome? r' = some o' → o = o'
  /-- Hooks run to the end: then none is due any more, whatever they have set off. -/
  finishes : n.finish.due = [] ∧ n.finish.mappings = n.mappings ∧ n.finish.meddled = n.meddled

lemma map_map (o : Except ε α) : (o.map f).map g = o.map (g ∘ f) := by
  cases o <;> rfl

lemma Woven.lawful (h : n.Woven) : n.Lawful where
  maps m hm hnot := (h.stage hm hnot).maps
  once := by
    refine ⟨(List.nodup_append.1 (h.placed.nodup_iff.2 h.own)).2.1, ?_⟩
    rintro ⟨p, t, f⟩ hm o hr
    obtain ⟨p, f, hm', ho, -⟩ := h.ran t o hr
    cases h.eq_of_target hm' hm rfl
    exact ho
  composes p q r r' f g hf hg hgf hq hr hr' := by
    have hmf := (h.stage hf hq).maps
    have hmg := (h.stage hg hr).maps
    have hmgf := (h.stage hgf hr').maps
    refine ⟨fun hdue => ?_, fun o o' ho ho' => ?_⟩
    · have hfirst := hmf.together hdue
      have hsecond := hmg.together hdue
      have hboth := hmgf.together hdue
      dsimp only at hfirst hsecond hboth
      rw [hsecond, hboth, hfirst]
      cases n.promises.outcome? p with
      | none => rfl
      | some o => exact congrArg some (map_map o)
    · obtain ⟨o₁, ho₁, rfl⟩ := hmg.after o ho
      obtain ⟨o₂, ho₂, rfl⟩ := hmf.after o₁ ho₁
      obtain ⟨o₃, ho₃, rfl⟩ := hmgf.after o' ho'
      cases ho₂.symm.trans ho₃
      exact map_map o₂
  finishes := ⟨due_iterate_next (Nat.le_refl _), finish_frame n⟩

end Web

/-! ## The promises of a scene -/

/-- What a continuation is in a web. -/
def Continuation.hook : Continuation → Hook Int64 Continuation
  | .doubling t x => .maps t fun v => 2 * v + x
  | .program label steps => .other (.program label steps)

/-- The continuation that an action runs, with the outcome. -/
def Action.resume? : Action → Option (Hook Int64 Continuation × Outcome Int64)
  | .resume k o => some (k.hook, o)
  | _ => none

/-- The web changes as the promises do by a deed, and what is to run is due. -/
def Deed.Weaves (d : Deed) (promises : Store Int64 Failure Continuation)
    (n n' : Web Int64 Failure Continuation) : Prop :=
  n'.promises = (d.apply promises).relabel Continuation.hook ∧
    n'.due = (d.runs promises).map (fun e => (e.1.hook, e.2)) ++ n.due

namespace Scene

/-- The moves of a web that an action is. -/
def moves (s : Scene) : Action → List (Move Int64 Failure Continuation)
  | .perform _ .new | .perform _ .newDefault => [.make none]
  | .perform _ (.map h x) => (s.id? h).elim [] fun p => [.map p fun v => 2 * v + x]
  | .resume .. => [.run 0]
  | a =>
    match s.deed a with
    | .nothing => []
    | .makes o => [.make (some o)]
    | .settles p o => [.settle p o]
    | .registers p k => [.attach p k]

/-- The scene has the promises of the web, and its agenda the hooks that are due. -/
structure Shows (s : Scene) (agenda : List Action) (n : Web Int64 Failure Continuation) :
    Prop where
  promises : n.promises = s.promises.relabel Continuation.hook
  due : n.due = agenda.filterMap Action.resume?
  handles : ∀ p ∈ s.handles, s.promises.Known p

variable {s : Scene} {a : Action} {rest : List Action} {n : Web Int64 Failure Continuation}
  {promises : Store Int64 Failure Continuation} {p : Id} {o : Outcome Int64}

/-- What runs next after an action are the continuations that it hands back. -/
lemma filterMap_resume?_act (s : Scene) (a : Action) (rest : List Action) :
    ((s.act a).1 ++ rest).filterMap Action.resume? =
      ((s.deed a).runs (s.base a)).map (fun e => (e.1.hook, e.2)) ++
        rest.filterMap Action.resume? := by
  have hnone : (s.follows a).filterMap Action.resume? = [] := by
    rw [List.filterMap_eq_nil_iff]
    intro b hb
    cases b with
    | resume k o => exact absurd hb (s.resume_notMem_follows a k o)
    | _ => rfl
  have hruns : ∀ l : List (Continuation × Outcome Int64),
      (l.map fun e => Action.resume e.1 e.2).filterMap Action.resume? =
        l.map fun e => (e.1.hook, e.2) := by
    intro l
    rw [List.filterMap_map]
    exact congrFun List.filterMap_eq_map l
  rw [(s.act_eq a).1, List.filterMap_append, List.filterMap_append, hnone, hruns, List.append_nil]

/-- Settling in a web is settling in a store. -/
lemma weaves_settle (h : n.promises = promises.relabel Continuation.hook) (p : Id)
    (o : Outcome Int64) : (Deed.settles p o).Weaves promises n (n.settle p o) := by
  rw [Deed.Weaves, Web.settle, h, Store.relabel_settle?, Deed.apply, Deed.runs]
  cases promises.settle? p o with
  | none => exact ⟨h, rfl⟩
  | some kp => simp [Function.comp_def]

/-- It makes no difference that somebody else does it. -/
lemma weaves_after_settle (h : n.promises = promises.relabel Continuation.hook) (p : Id)
    (o : Outcome Int64) : (Deed.settles p o).Weaves promises n (n.after (.settle p o)) := by
  have hsettle := weaves_settle h p o
  rw [Web.after]
  split
  · rename_i hsettled
    rwa [Web.settle, Store.settle?_eq_none_of_isSettled hsettled] at hsettle
  · exact weaves_settle (n := { n with meddled := p :: n.meddled }) h p o

lemma weaves_register (h : n.promises = promises.relabel Continuation.hook) (p : Id)
    (k : Continuation) : (Deed.registers p k).Weaves promises n (n.register p k.hook) := by
  refine ⟨?_, ?_⟩
  · rw [Web.register, h, Store.relabel_register]
    rfl
  · rw [Web.due_register, h, Store.outcome?_relabel, Deed.runs]
    cases promises.outcome? p <;> rfl

/-- The moves of an action that is no continuation. -/
lemma Shows.weaves {agenda : List Action} (h : s.Shows agenda n) (ha : a.resume? = none) :
    (s.deed a).Weaves (s.base a) n (n.afterAll (s.moves a)) := by
  have hpromises := h.promises
  have hnothing : Deed.nothing.Weaves s.promises n n := ⟨hpromises, rfl⟩
  have hnew : n.promises.new = (s.promises.new.1, s.promises.new.2.relabel Continuation.hook) := by
    rw [hpromises]
    exact Store.relabel_add _ _ (.pending [])
  have hsettled : ∀ o, n.promises.newSettled o =
      (s.promises.new.1, (s.promises.newSettled o).2.relabel Continuation.hook) := by
    intro o
    rw [hpromises]
    exact Store.relabel_add _ _ (.settled o)
  have hsome : ∀ {m p}, s.id? m = some p → (n.promises.cell? p).isSome = true := by
    intro m p hm
    rw [hpromises, Store.cell?_relabel, Option.isSome_map]
    exact Store.isSome_cell? (h.handles p (mem_handles hm))
  cases a with
  | perform origin step =>
    cases step with
    | new | newDefault => exact ⟨congrArg Prod.snd hnew, rfl⟩
    | resolved v => exact ⟨congrArg Prod.snd (hsettled (.ok v)), rfl⟩
    | rejected e => exact ⟨congrArg Prod.snd (hsettled (.error e)), rfl⟩
    | map m x =>
      cases hm : s.id? m with
      | none => simpa [moves, deed, base, hm, Web.afterAll] using hnothing
      | some p =>
        have hafter : n.afterAll (s.moves (.perform origin (.map m x))) =
            Web.register { n with
              promises := n.promises.new.2
              mappings := ⟨p, n.promises.new.1, fun v => 2 * v + x⟩ :: n.mappings } p
              (.maps n.promises.new.1 fun v => 2 * v + x) := by
          simp only [moves, hm, Option.elim_some]
          exact if_pos (hsome hm)
        rw [hafter, hnew]
        simp only [deed, base, hm, Option.elim_some, Option.isSome_some, if_true]
        exact weaves_register (n := { n with
          promises := s.promises.new.2.relabel Continuation.hook
          mappings := ⟨p, s.promises.new.1, fun v => 2 * v + x⟩ :: n.mappings }) rfl p
          (.doubling s.promises.new.1 x)
    | resolve m v =>
      cases hm : s.id? m with
      | none => simpa [moves, deed, base, hm, Web.afterAll] using hnothing
      | some p =>
        simp only [moves, deed, base, hm, Option.elim_some]
        exact weaves_after_settle hpromises p (.ok v)
    | reject m e =>
      cases hm : s.id? m with
      | none => simpa [moves, deed, base, hm, Web.afterAll] using hnothing
      | some p =>
        simp only [moves, deed, base, hm, Option.elim_some]
        exact weaves_after_settle hpromises p (.error e)
    | onSettled m label steps =>
      cases hm : s.id? m with
      | none => simpa [moves, deed, base, hm, Web.afterAll] using hnothing
      | some p =>
        have hafter : n.afterAll [.attach p (.program label steps)] =
            n.register p (.other (.program label steps)) := if_pos (hsome hm)
        simp only [moves, deed, base, hm, Option.elim_some]
        rw [hafter]
        exact weaves_register hpromises p (.program label steps)
    | _ => exact hnothing
  | resume k o => cases ha
  | note origin step reply => exact hnothing

/-- A continuation runs. -/
lemma Shows.weaves_resume {k : Continuation} (h : s.Shows (.resume k o :: rest) n) :
    (s.deed (.resume k o)).Weaves s.promises { n with due := rest.filterMap Action.resume? }
      (n.afterAll (s.moves (.resume k o))) := by
  have hdue : n.due = (k.hook, o) :: rest.filterMap Action.resume? := h.due
  have hafter : n.afterAll (s.moves (.resume k o)) =
      Web.run { n with due := rest.filterMap Action.resume? } o k.hook := by
    change n.after (.run 0) = _
    rw [Web.after, hdue]
    rfl
  rw [hafter]
  cases k with
  | program label steps => exact ⟨h.promises, rfl⟩
  | doubling t x =>
    exact weaves_settle (n := { n with
      due := rest.filterMap Action.resume?
      ran := (t, o) :: n.ran }) h.promises t (o.map fun v => 2 * v + x)

/-- What an action does is what its moves do. -/
theorem Shows.act (h : s.Shows (a :: rest) n) :
    (s.act a).2.Shows ((s.act a).1 ++ rest) (n.afterAll (s.moves a)) := by
  have hweaves : (n.afterAll (s.moves a)).promises =
        ((s.deed a).apply (s.base a)).relabel Continuation.hook ∧
      (n.afterAll (s.moves a)).due =
        ((s.deed a).runs (s.base a)).map (fun e => (e.1.hook, e.2)) ++
          rest.filterMap Action.resume? := by
    cases ha : a.resume? with
    | none =>
      have hdue : n.due = rest.filterMap Action.resume? :=
        h.due.trans (List.filterMap_cons_none ha)
      exact hdue ▸ h.weaves ha
    | some e =>
      cases a with
      | resume k o => exact h.weaves_resume
      | _ => cases ha
  refine ⟨?_, ?_, fun p hp => ?_⟩
  · rw [(s.act_eq a).2]
    exact hweaves.1
  · rw [filterMap_resume?_act]
    exact hweaves.2
  · obtain ⟨l, hl, hnew⟩ := s.handles_act a
    have hold : ∀ p ∈ s.handles, (s.act a).2.promises.Known p := fun p hp =>
      (s.persists_act a).known p (h.handles p hp)
    rw [hl] at hp
    rcases List.mem_append.1 hp with hp | hp
    · exact hold p hp
    · exact (hnew p hp).elim (hold p) id

/-- A program is played: the moves that were made, the scene, and what is still to be done. -/
inductive Plays : List Step → List (Move Int64 Failure Continuation) → Scene → List Action → Prop
  /-- Nothing has been done. -/
  | start : Plays [] [] {} []
  /-- The script has its next step carried out. -/
  | perform {program moves s} (h : Plays program moves s []) (step : Step) :
      Plays (program ++ [step]) moves s [.perform .script step]
  /-- The next action is done. -/
  | act {program moves s a rest} (h : Plays program moves s (a :: rest)) :
      Plays program (moves ++ s.moves a) (s.act a).2 ((s.act a).1 ++ rest)

variable {program : List Step} {played : List (Move Int64 Failure Continuation)}
  {agenda : List Action}

/-- An agenda is worked through to its end. -/
lemma Plays.run (h : Plays program played s agenda) :
    ∃ moves, Plays program moves (s.run agenda) [] := by
  refine run_induct (motive := fun agenda s => ∃ moves, Plays program moves s agenda) ?_ ⟨_, h⟩
  rintro a rest s ⟨moves, h⟩
  exact ⟨_, h.act⟩

/-- Every program can be played. -/
lemma exists_plays (program : List Step) :
    ∃ moves, Plays program moves (program.foldl Scene.perform {}) [] := by
  induction program using List.reverseRecOn with
  | nil => exact ⟨[], .start⟩
  | append_singleton program step ih =>
    obtain ⟨moves, h⟩ := ih
    rw [List.foldl_concat]
    exact (h.perform step).run

/-- What a program does to promises is what its moves do. -/
theorem Plays.shows (h : Plays program played s agenda) :
    s.Shows agenda (Web.afterAll {} played) := by
  induction h with
  | start => exact ⟨rfl, rfl, fun _ h => nomatch h⟩
  | perform _ step ih => exact ⟨ih.promises, ih.due, ih.handles⟩
  | act _ ih =>
    rw [Web.afterAll, List.foldl_append]
    exact ih.act

end Scene

/-- Mapping is lawful, whatever is done with promises and in whatever order hooks run. A program is
among what can be done, with a mapping for each time that it maps; it leaves no hook due. -/
theorem map_lawful :
    (∀ moves : List (Move α ε κ), (Web.afterAll {} moves).Lawful) ∧
    ∀ program : List Step, ∃ moves, Scene.Plays program moves (program.foldl Scene.perform {}) [] ∧
      (program.foldl Scene.perform {}).Shows [] (Web.afterAll {} moves) := by
  refine ⟨fun moves => (Web.woven_empty.afterAll moves).lawful, fun program => ?_⟩
  obtain ⟨moves, h⟩ := Scene.exists_plays program
  exact ⟨moves, h, h.shows⟩

end ConsensusLink.Promise
