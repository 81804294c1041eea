import ConsensusLink.Proofs.Promise.Agenda
import ConsensusLink.Proofs.Promise.History
/-!
# Performances

A `Performance` is a scene amid its agenda, together with the history of its promises: it carries
out what the scene carries out, and writes down what happens. Whatever it has to do, its history is
lawful with what is planned, and says of each promise what the store says: its outcome, or what
waits for it.
-/

namespace ConsensusLink.Promise

open Occurrence

/-- What is still to be done, and for which call. -/
inductive Item where
  /-- An action of a program. -/
  | act (a : Action)
  /-- Running the continuation that the call has registered. -/
  | resume (call : Nat) (p : Id) (k : Continuation) (o : Outcome Int64)
  /-- Putting on record that the continuation has run to its end. -/
  | ended (call : Nat)
  /-- Putting on record that the call returns. -/
  | returned (call : Nat)

namespace Item

/-- The action, unless it is only to put something on record. -/
def action? : Item → Option Action
  | act a => some a
  | resume _ _ k o => some (.resume k o)
  | ended _ | returned _ => none

/-- What is thereby planned. -/
def plan : Item → List Occurrence
  | act _ => []
  | resume c p k o => runOf p o (c, k)
  | ended c => [.ended c]
  | returned c => [.returned c]

end Item

/-- A scene that carries out an agenda, with the history of its promises. -/
structure Performance where
  /-- The scene. -/
  scene : Scene := {}
  /-- What is still to be done. -/
  agenda : List Item := []
  /-- How many calls were made. -/
  calls : Nat := 0
  /-- What has happened to promises, oldest first. -/
  history : List Occurrence := []

namespace Performance

/-- The actions that are still to be done. -/
def actions (x : Performance) : List Action := x.agenda.filterMap Item.action?

/-- What is planned. -/
def plan (x : Performance) : List Occurrence := x.agenda.flatMap Item.plan

/-- What a deed comes to, with the continuations that are to run before it is done. -/
def call? (x : Performance) (promises : Store Int64 Failure Continuation) :
    Deed → Option (Occurrence × List Item)
  | .nothing => none
  | .makes o => some (.settled x.calls promises.new.1 o, [])
  | .settles p o =>
    match promises.outcome? p with
    | some _ => some (.refused x.calls p, [])
    | none =>
      some (.settled x.calls p o, (registrants p x.history).map fun e => .resume e.1 p e.2 o)
  | .registers p k =>
    some (.registered x.calls p k,
      ((promises.outcome? p).map (.resume x.calls p k)).toList)

/-- Does one action. -/
def carryOut (x : Performance) (a : Action) : Performance :=
  let scene := (x.scene.act a).2
  let follows := (x.scene.follows a).map .act
  match x.call? (x.scene.base a) (x.scene.deed a) with
  | none => { x with scene, agenda := follows ++ x.agenda }
  | some (e, runs) =>
    { scene
      agenda := runs ++ .returned x.calls :: (follows ++ x.agenda)
      calls := x.calls + 1
      history := x.history ++ [e] }

/-- Does what is to be done next. -/
def next (x : Performance) : Performance :=
  match x.agenda with
  | [] => x
  | .act a :: rest => { x with agenda := rest }.carryOut a
  | .resume c p k o :: rest =>
    let e : Occurrence := .ran c p k o (x.scene.promises.outcome? p)
    { x with agenda := .ended c :: rest, history := x.history ++ [e] }.carryOut (.resume k o)
  | .ended c :: rest => { x with agenda := rest, history := x.history ++ [.ended c] }
  | .returned c :: rest => { x with agenda := rest, history := x.history ++ [.returned c] }

end Performance

/-! ## What a history says of promises -/

/-- The history says of every promise what the store says. -/
structure Store.Matches (s : Store Int64 Failure Continuation) (h : List Occurrence) : Prop where
  outcome : ∀ p o, s.outcome? p = some o ↔ Settled h p o
  waits : ∀ p ks, s.cell? p = some (.pending ks) → (registrants p h).map (·.2) = ks
  known : ∀ c p k, .registered c p k ∈ h → s.Known p
  targets : ∀ c p t x, .registered c p (.doubling t x) ∈ h → s.Known t

namespace Store.Matches

variable {s s' : Store Int64 Failure Continuation} {h : List Occurrence} {e : Occurrence}
  {p q : Id} {o : Outcome Int64} {k : Continuation} {c n : Nat}

lemma empty : Store.Matches .empty [] where
  outcome p o := by
    refine ⟨fun ho => ?_, fun ⟨_, hc⟩ => nomatch hc⟩
    cases Store.known_of_outcome ho
  waits p ks hc := by cases hc
  known _ _ _ hr := nomatch hr
  targets _ _ _ _ hr := nomatch hr

lemma settled_concat (e : Occurrence) (hsettled : ∀ c p o, e ≠ .settled c p o) :
    Settled (h ++ [e]) p o ↔ Settled h p o := by
  refine exists_congr fun c => ?_
  rw [List.mem_append, List.mem_singleton, or_iff_left fun he => hsettled c p o he.symm]

lemma registered_concat (e : Occurrence) (hregistered : ∀ c p k, e ≠ .registered c p k) :
    .registered c p k ∈ h ++ [e] ↔ .registered c p k ∈ h := by
  rw [List.mem_append, List.mem_singleton, or_iff_left fun he => hregistered c p k he.symm]

lemma registered_concat_settled :
    .registered c q k ∈ h ++ [.settled n p o] ↔ .registered c q k ∈ h :=
  registered_concat _ (by simp)

/-- What neither settles a promise nor registers a continuation makes no difference. -/
lemma note (hm : s.Matches h) (hsettled : ∀ c p o, e ≠ .settled c p o)
    (hregistered : ∀ c p k, e ≠ .registered c p k) : s.Matches (h ++ [e]) where
  outcome p o := (hm.outcome p o).trans (settled_concat e hsettled).symm
  waits p ks hc := by
    have hnone : registrant? p e = none := by
      cases e with
      | registered c q k => exact absurd rfl (hregistered c q k)
      | _ => rfl
    rw [registrants_concat hnone]
    exact hm.waits p ks hc
  known c p k hr := hm.known c p k ((registered_concat e hregistered).1 hr)
  targets c p t x hr := hm.targets c p t x ((registered_concat e hregistered).1 hr)

/-- Nobody has registered anything on what is not known. -/
lemma registrants_eq_nil (hm : s.Matches h) (hp : ¬s.Known p) : registrants p h = [] :=
  List.eq_nil_iff_forall_not_mem.2 fun ⟨c, k⟩ hr => hp (hm.known c p k (mem_registrants.1 hr))

/-- A promise is made that is not settled. -/
lemma new (hm : s.Matches h) : s.new.2.Matches h := by
  have hout : s.HandsOut s.new.2 s.new.1 := Store.handsOut_add _
  refine ⟨fun p o => ?_, fun p ks hc => ?_, fun c p k hr => hout.known_mono (hm.known c p k hr),
    fun c p t x hr => hout.known_mono (hm.targets c p t x hr)⟩
  · rw [← hm.outcome]
    constructor
    · intro ho
      rcases (hout.known p).1 (Store.known_of_outcome ho) with hp | rfl
      · rwa [hout.outcome?_eq hp] at ho
      · cases Store.pending_new.outcome?_eq.symm.trans ho
    · exact hout.persists.outcome p o
  · rcases (hout.known p).1 (Store.known_of_cell hc) with hp | rfl
    · rw [hout.cells p hp] at hc
      exact hm.waits p ks hc
    · cases Store.cell?_new.symm.trans hc
      rw [hm.registrants_eq_nil hout.fresh, List.map_nil]

lemma settled_concat_settled {o' : Outcome Int64} :
    Settled (h ++ [.settled n p o]) q o' ↔ Settled h q o' ∨ q = p ∧ o' = o := by
  constructor
  · rintro ⟨c, hc⟩
    rcases List.mem_append.1 hc with hc | hc
    · exact .inl ⟨c, hc⟩
    · cases List.mem_singleton.1 hc
      exact .inr ⟨rfl, rfl⟩
  · rintro (hs | ⟨rfl, rfl⟩)
    · exact hs.append _
    · exact ⟨n, List.mem_append_right _ List.mem_cons_self⟩

/-- A promise is made that is settled. -/
lemma makes (hm : s.Matches h) (n : Nat) (o : Outcome Int64) :
    (s.newSettled o).2.Matches (h ++ [.settled n s.new.1 o]) := by
  have hout : s.HandsOut (s.newSettled o).2 s.new.1 := Store.handsOut_add _
  have ho : (s.newSettled o).2.outcome? s.new.1 = some o := Store.outcome?_newSettled o
  refine ⟨fun q o' => ?_, fun q ks hc => ?_, fun c q k hr => ?_, fun c q t x hr => ?_⟩
  · rw [settled_concat_settled, ← hm.outcome]
    by_cases hq : q = s.new.1
    · subst hq
      rw [ho, Option.some.injEq, and_iff_right rfl, or_iff_right, eq_comm]
      exact fun hold => hout.fresh (Store.known_of_outcome hold)
    · rw [or_iff_left fun he => hq he.1]
      constructor
      · intro hnew
        rwa [← hout.outcome?_eq (((hout.known q).1 (Store.known_of_outcome hnew)).resolve_right hq)]
      · exact hout.persists.outcome q o'
  · rw [registrants_concat rfl]
    rcases (hout.known q).1 (Store.known_of_cell hc) with hq | rfl
    · rw [hout.cells q hq] at hc
      exact hm.waits q ks hc
    · rw [Store.outcome?, hc] at ho
      cases ho
  · exact hout.known_mono (hm.known c q k (registered_concat_settled.1 hr))
  · exact hout.known_mono (hm.targets c q t x (registered_concat_settled.1 hr))

/-- A promise is settled. -/
lemma settles {ks : List Continuation} (hm : s.Matches h) (hs : s.settle? p o = some (ks, s'))
    (n : Nat) : s'.Matches (h ++ [.settled n p o]) := by
  have hset := Store.settles_of_settle? hs
  have ho : s'.outcome? p = some o := hset.outcome p (List.mem_singleton_self p)
  have hpending : s.Pending p := ⟨ks, Store.cell?_of_settle? hs⟩
  refine ⟨fun q o' => ?_, fun q ks' hc => ?_, fun c q k hr => ?_, fun c q t x hr => ?_⟩
  · rw [settled_concat_settled, ← hm.outcome]
    by_cases hq : q = p
    · subst hq
      rw [ho, hpending.outcome?_eq, Option.some.injEq, and_iff_right rfl, or_iff_right (by simp),
        eq_comm]
    · rw [or_iff_left fun he => hq he.1, hset.outcome?_of_notMem (by rwa [List.mem_singleton])]
  · have hq : q ≠ p := by
      rintro rfl
      rw [Store.outcome?, hc] at ho
      cases ho
    rw [hset.others q (by rwa [List.mem_singleton])] at hc
    rw [registrants_concat rfl]
    exact hm.waits q ks' hc
  · exact (hset.known q).2 (hm.known c q k (registered_concat_settled.1 hr))
  · exact (hset.known t).2 (hm.targets c q t x (registered_concat_settled.1 hr))

/-- A continuation is registered. -/
lemma registers (hm : s.Matches h) (hp : s.Known p) (htarget : ∀ t x, k = .doubling t x → s.Known t)
    (n : Nat) : (s.register p k).2.Matches (h ++ [.registered n p k]) := by
  refine ⟨fun q o => ?_, fun q ks hc => ?_, fun c q k' hr => ?_, fun c q t x hr => ?_⟩
  · rw [Store.outcome?_register, settled_concat (.registered n p k) nofun]
    exact hm.outcome q o
  · rw [registrants_append, List.map_append]
    by_cases hq : p = q
    · subst hq
      have hlast : registrants p [.registered n p k] = [(n, k)] :=
        List.filterMap_cons_some (if_pos rfl)
      rcases hcell : s.cell? p with _ | ks' | o
      · exact absurd hp (Nat.not_lt.2 (List.getElem?_eq_none_iff.1 hcell))
      · rw [Store.cell?_register_self hcell] at hc
        cases hc
        rw [hm.waits p ks' hcell, hlast]
        rfl
      · rw [Store.register, hcell] at hc
        cases hcell.symm.trans hc
    · have hlast : registrants q [.registered n p k] = [] :=
        List.filterMap_cons_none (if_neg hq)
      rw [Store.cell?_register_of_ne (Ne.symm hq)] at hc
      rw [hm.waits q ks hc, hlast, List.map_nil, List.append_nil]
  · rw [Store.known_register]
    rcases List.mem_append.1 hr with hr | hr
    · exact hm.known c q k' hr
    · cases List.mem_singleton.1 hr
      exact hp
  · rw [Store.known_register]
    rcases List.mem_append.1 hr with hr | hr
    · exact hm.targets c q t x hr
    · cases List.mem_singleton.1 hr
      exact htarget t x rfl

end Store.Matches

/-! ## What actions are about -/

namespace Scene

variable {s : Scene} {a : Action} {p : Id} {o : Outcome Int64} {k : Continuation}

lemma base_matches {h : List Occurrence} (hm : s.promises.Matches h) (a : Action) :
    (s.base a).Matches h := by
  rcases s.base_cases a with hbase | hbase
  · rwa [hbase]
  · rw [hbase]
    exact hm.new

lemma mem_handles {n : Nat} (h : s.id? n = some p) : p ∈ s.handles := List.mem_of_getElem? h

/-- Promises are settled by their handles, or by continuations. -/
lemma deed_settles (hd : s.deed a = .settles p o) :
    p ∈ s.handles ∨ ∃ x o', a = .resume (.doubling p x) o' := by
  cases a with
  | perform origin step =>
    cases step with
    | resolve n v =>
      cases hn : s.id? n with
      | none => simp [deed, hn] at hd
      | some id =>
        simp only [deed, hn, Option.elim_some, Deed.settles.injEq] at hd
        exact .inl (hd.1 ▸ mem_handles hn)
    | reject n e =>
      cases hn : s.id? n with
      | none => simp [deed, hn] at hd
      | some id =>
        simp only [deed, hn, Option.elim_some, Deed.settles.injEq] at hd
        exact .inl (hd.1 ▸ mem_handles hn)
    | map n x => cases hn : s.id? n <;> simp [deed, hn] at hd
    | onSettled n label steps => cases hn : s.id? n <;> simp [deed, hn] at hd
    | _ => cases hd
  | resume k o' =>
    cases k with
    | program label steps => cases hd
    | doubling t x =>
      cases hd
      exact .inr ⟨x, o', rfl⟩
  | note origin step reply => cases hd

/-- Continuations are registered by handles. -/
lemma deed_registers (hd : s.deed a = .registers p k) :
    p ∈ s.handles ∧ ∀ t x, k = .doubling t x → (s.base a).Known t := by
  cases a with
  | perform origin step =>
    cases step with
    | map n x =>
      cases hn : s.id? n with
      | none => simp [deed, hn] at hd
      | some id =>
        simp only [deed, hn, Option.elim_some, Deed.registers.injEq] at hd
        obtain ⟨rfl, rfl⟩ := hd
        refine ⟨mem_handles hn, fun t y he => ?_⟩
        cases he
        simp only [base, hn, Option.isSome_some, if_true]
        exact Store.pending_new.known
    | onSettled n label steps =>
      cases hn : s.id? n with
      | none => simp [deed, hn] at hd
      | some id =>
        simp only [deed, hn, Option.elim_some, Deed.registers.injEq] at hd
        obtain ⟨rfl, rfl⟩ := hd
        exact ⟨mem_handles hn, by simp⟩
    | resolve n v => cases hn : s.id? n <;> simp [deed, hn] at hd
    | reject n e => cases hn : s.id? n <;> simp [deed, hn] at hd
    | _ => cases hd
  | resume k o => cases k <;> cases hd
  | note origin step reply => cases hd

/-- Handles stay, and new ones are of promises that have one already or are made. -/
lemma handles_act (s : Scene) (a : Action) :
    ∃ l, (s.act a).2.handles = s.handles ++ l ∧
      ∀ p ∈ l, p ∈ s.handles ∨ (s.act a).2.promises.Known p := by
  have hsettle : ∀ p o, (s.settle p o).2.2.handles = s.handles := by
    intro p o
    unfold settle
    split <;> rfl
  have hadd : ∀ cell : Cell Int64 Failure Continuation, ∀ p ∈ [(s.promises.add cell).1],
      p ∈ s.handles ∨ (s.addPromise cell).2.promises.Known p := fun cell p hp =>
    .inr (List.mem_singleton.1 hp ▸ (Store.handsOut_add cell).known_self)
  have hsame : (s.act a).2.handles = s.handles → ∃ l, (s.act a).2.handles = s.handles ++ l ∧
      ∀ p ∈ l, p ∈ s.handles ∨ (s.act a).2.promises.Known p := fun h =>
    ⟨[], h.trans (List.append_nil _).symm, nofun⟩
  cases a with
  | perform origin step =>
    cases step with
    | new | newDefault | resolved | rejected => exact ⟨_, rfl, hadd _⟩
    | clone n =>
      cases hn : s.id? n with
      | none => exact hsame (by simp [act, step, hn])
      | some id =>
        refine ⟨[id], by simp [act, step, addHandle, hn], fun p hp => .inl ?_⟩
        exact List.mem_singleton.1 hp ▸ mem_handles hn
    | map n x =>
      cases hn : s.id? n with
      | none => exact hsame (by simp [act, step, hn])
      | some id =>
        refine ⟨[s.promises.new.1], by simp [act, step, addHandle, register, hn],
          fun p hp => .inr ?_⟩
        rw [(s.act_eq _).2, List.mem_singleton.1 hp]
        simp only [deed, base, hn, Option.elim_some, Option.isSome_some, if_true, Deed.apply]
        exact (Store.known_register _).2 Store.pending_new.known
    | resolve n v => exact hsame (by cases hn : s.id? n <;> simp [act, step, hn, hsettle])
    | reject n e => exact hsame (by cases hn : s.id? n <;> simp [act, step, hn, hsettle])
    | onSettled n label steps =>
      exact hsame (by cases hn : s.id? n <;> simp [act, step, register, hn])
    | waiter n label limit token =>
      exact hsame (by cases hn : s.id? n <;> simp [act, step, spawn, hn])
    | read | isSettled | same | describe | token | cancel | later => exact hsame rfl
  | resume k o =>
    cases k with
    | program label steps => exact hsame rfl
    | doubling t x => exact hsame (hsettle t _)
  | note origin step reply => cases origin <;> exact hsame rfl

/-- What an action sets off besides continuations are no continuations. -/
lemma resume_notMem_follows (s : Scene) (a : Action) (k : Continuation) (o : Outcome Int64) :
    Action.resume k o ∉ s.follows a := by
  cases a with
  | perform origin step => simp [follows]
  | resume k o => cases k <;> simp [follows]
  | note origin step reply => simp [follows]

end Scene

namespace Performance

/-- What is recorded is what has happened. -/
structure Faithful (x : Performance) : Prop where
  lawful : Lawful x.calls x.history x.plan
  tallies : x.scene.promises.Matches x.history
  handles : ∀ p ∈ x.scene.handles, x.scene.promises.Known p
  plain : ∀ k o, Item.act (.resume k o) ∉ x.agenda

variable {x : Performance} {a : Action} {s : Store Int64 Failure Continuation} {p : Id}
  {k : Continuation}

/-- A deed comes to an occurrence, and to continuations that are to run before it is done. These
are the ones that the store is to run, and it says of promises what the history then says. -/
structure Comes (x : Performance) (s : Store Int64 Failure Continuation) (d : Deed) (e : Occurrence)
    (runs : List Item) : Prop where
  call : x.call? s d = some (e, runs)
  lawful : Lawful (x.calls + 1) (x.history ++ [e])
    (runs.flatMap Item.plan ++ .returned x.calls :: x.plan)
  tallies : (d.apply s).Matches (x.history ++ [e])
  actions : runs.filterMap Item.action? = (d.runs s).map fun e => .resume e.1 e.2
  plain : ∀ k o, Item.act (.resume k o) ∉ runs

lemma comes_makes (hl : Lawful x.calls x.history x.plan) (hm : s.Matches x.history)
    (o : Outcome Int64) : ∃ e runs, x.Comes s (.makes o) e runs := by
  have hfresh : ¬s.Known s.new.1 := Store.not_known_add (.pending [])
  have hnot : ∀ o', ¬Settled x.history s.new.1 o' := fun o' hs =>
    hfresh (Store.known_of_outcome ((hm.outcome _ _).2 hs))
  -- nobody waits for a promise that is new
  have hnobody : runsOf s.new.1 o x.history = [] := by
    rw [runsOf, hm.registrants_eq_nil hfresh, List.flatMap_nil]
  have hlawful := hl.settle hnot o
  rw [hnobody] at hlawful
  exact ⟨_, _, rfl, hlawful, hm.makes x.calls o, rfl, by simp⟩

lemma comes_settles (hl : Lawful x.calls x.history x.plan) (hm : s.Matches x.history)
    (hp : s.Known p) (o : Outcome Int64) : ∃ e runs, x.Comes s (.settles p o) e runs := by
  cases ho : s.outcome? p with
  | some o' =>
    have hnone : s.settle? p o = none :=
      Store.settle?_eq_none_of_isSettled (by rw [Store.isSettled, ho]; rfl) o
    refine ⟨.refused x.calls p, [], ?_, hl.refuse ((hm.outcome p o').1 ho), ?_, ?_, by simp⟩
    · simp only [call?, ho]
    · simp only [Deed.apply, hnone]
      exact hm.note (by simp) (by simp)
    · simp only [Deed.runs, hnone]
      rfl
  | none =>
    have hnot : ∀ o', ¬Settled x.history p o' := fun o' hs => by
      cases ho.symm.trans ((hm.outcome p o').2 hs)
    obtain ⟨ks, promises, hcell, hs⟩ := (Store.pending_of_known hp ho).exists_settle? o
    have hwaits := hm.waits p ks hcell
    refine ⟨.settled x.calls p o, (registrants p x.history).map fun e => .resume e.1 p e.2 o,
      ?_, ?_, ?_, ?_, ?_⟩
    · simp only [call?, ho]
    · rw [List.flatMap_map]
      exact hl.settle hnot o
    · simp only [Deed.apply, hs]
      exact hm.settles hs x.calls
    · -- those that wait are those that were registered
      simp [Deed.runs, hs, ← hwaits, Function.comp_def, Item.action?]
    · simp

lemma comes_registers (hl : Lawful x.calls x.history x.plan) (hm : s.Matches x.history)
    (hp : s.Known p) (htarget : ∀ t y, k = .doubling t y → s.Known t) :
    ∃ e runs, x.Comes s (.registers p k) e runs := by
  refine ⟨_, _, rfl, ?_, hm.registers hp htarget x.calls, ?_, ?_⟩
  · cases ho : s.outcome? p with
    | none =>
      refine hl.wait (fun o hs => ?_) k
      cases ho.symm.trans ((hm.outcome p o).2 hs)
    | some o => exact hl.runNow ((hm.outcome p o).1 ho) k
  · cases ho : s.outcome? p <;> simp [Deed.runs, ho, Item.action?]
  · cases ho : s.outcome? p <;> simp

/-- What a deed comes to is what becomes of the promises. -/
lemma Faithful.comes (h : x.Faithful)
    (ha : ∀ t y o, a = .resume (.doubling t y) o → x.scene.promises.Known t) :
    x.scene.deed a = .nothing ∨
      ∃ e runs, x.Comes (x.scene.base a) (x.scene.deed a) e runs := by
  have hm := x.scene.base_matches h.tallies a
  have hknown : ∀ q, x.scene.promises.Known q → (x.scene.base a).Known q :=
    (x.scene.persists_base a).known
  cases hd : x.scene.deed a with
  | nothing => exact .inl rfl
  | makes o => exact .inr (comes_makes h.lawful hm o)
  | settles p o =>
    have hp : x.scene.promises.Known p := by
      rcases Scene.deed_settles hd with hp | ⟨y, o', rfl⟩
      · exact h.handles p hp
      · exact ha p y o' rfl
    exact .inr (comes_settles h.lawful hm (hknown p hp) o)
  | registers p k =>
    obtain ⟨hhandle, htarget⟩ := Scene.deed_registers hd
    exact .inr (comes_registers h.lawful hm (hknown p (h.handles p hhandle)) htarget)

@[simp] lemma flatMap_plan_act (l : List Action) : (l.map Item.act).flatMap Item.plan = [] := by
  simp [Item.plan]

@[simp] lemma filterMap_action?_act (l : List Action) :
    (l.map Item.act).filterMap Item.action? = l := by
  simp [Item.action?, Function.comp_def]

@[simp] lemma scene_carryOut (x : Performance) (a : Action) :
    (x.carryOut a).scene = (x.scene.act a).2 := by
  rw [Performance.carryOut]
  split <;> rfl

/-- Carrying out an action keeps the record, and leaves to do what the action sets off. -/
lemma Faithful.carryOut (h : x.Faithful)
    (ha : ∀ t y o, a = .resume (.doubling t y) o → x.scene.promises.Known t) :
    (x.carryOut a).Faithful ∧ (x.carryOut a).actions = (x.scene.act a).1 ++ x.actions := by
  obtain ⟨hactions, hpromises⟩ := x.scene.act_eq a
  have hhandles : ∀ p ∈ (x.scene.act a).2.handles, (x.scene.act a).2.promises.Known p := by
    intro p hp
    obtain ⟨l, hl, hknown⟩ := x.scene.handles_act a
    have hold : p ∈ x.scene.handles → (x.scene.act a).2.promises.Known p := fun hp =>
      (x.scene.persists_act a).known p (h.handles p hp)
    rw [hl] at hp
    rcases List.mem_append.1 hp with hp | hp
    · exact hold hp
    · exact (hknown p hp).elim hold id
  have hplain : ∀ k o, Item.act (.resume k o) ∉ (x.scene.follows a).map .act := by
    intro k o hmem
    obtain ⟨a', ha', he⟩ := List.mem_map.1 hmem
    cases he
    exact x.scene.resume_notMem_follows a k o ha'
  rcases h.comes ha with hd | ⟨e, runs, hcomes⟩
  · -- nothing happens to promises
    have hcarry : x.carryOut a =
        { x with
          scene := (x.scene.act a).2
          agenda := (x.scene.follows a).map .act ++ x.agenda } := by
      rw [Performance.carryOut, hd]
      rfl
    rw [hcarry]
    refine ⟨⟨?_, ?_, hhandles, fun k o hmem => ?_⟩, ?_⟩
    · simpa [plan] using h.lawful
    · rw [hpromises, hd]
      exact x.scene.base_matches h.tallies a
    · rcases List.mem_append.1 hmem with hmem | hmem
      · exact hplain k o hmem
      · exact h.plain k o hmem
    · rw [hactions, hd, actions, List.filterMap_append, filterMap_action?_act]
      rfl
  · -- a call is made, and what it runs comes before all that is still to be done
    have hcarry : x.carryOut a =
        { scene := (x.scene.act a).2
          agenda := runs ++ .returned x.calls :: ((x.scene.follows a).map .act ++ x.agenda)
          calls := x.calls + 1
          history := x.history ++ [e] } := by
      rw [Performance.carryOut, hcomes.call]
    rw [hcarry]
    refine ⟨⟨?_, ?_, hhandles, fun k o hmem => ?_⟩, ?_⟩
    · simpa [plan, Item.plan] using hcomes.lawful
    · rw [hpromises]
      exact hcomes.tallies
    · rcases List.mem_append.1 hmem with hmem | hmem
      · exact hcomes.plain k o hmem
      · rcases List.mem_append.1 ((List.mem_cons.1 hmem).resolve_left nofun) with hmem | hmem
        · exact hplain k o hmem
        · exact h.plain k o hmem
    · rw [hactions, ← hcomes.actions, actions, List.filterMap_append, List.filterMap_cons_none rfl,
        List.filterMap_append, filterMap_action?_act, List.append_assoc]
      rfl

end Performance

end ConsensusLink.Promise
