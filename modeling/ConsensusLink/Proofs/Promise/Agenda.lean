import ConsensusLink.Promise.Program
import ConsensusLink.Proofs.Promise.Pending
import Mathlib.Algebra.GroupWithZero.Nat
/-!
# Agendas come to an end

Whatever an action does, it leaves less to do than before: what it sets off, together with what the
continuations that wait may lead to, is smaller than the action and what waited before. So the bound
on the number of actions is never reached, and an agenda is worked through to its end, one action
after the other.
-/

namespace ConsensusLink.Promise

/-! ## How much is left to do -/

/-- How much actions may lead to in all. -/
def Action.sizes (agenda : List Action) : Nat := (agenda.map Action.size).sum

/-- How much the continuations of a promise may lead to. -/
def Cell.size : Cell Int64 Failure Continuation → Nat
  | .pending ks => (ks.map Continuation.size).sum
  | .settled _ => 0

/-- How much the continuations of all promises may lead to. -/
def Store.size (s : Store Int64 Failure Continuation) : Nat := (s.cells.map Cell.size).sum

@[simp] lemma Action.sizes_nil : Action.sizes [] = 0 := rfl

@[simp] lemma Action.sizes_cons (a : Action) (agenda : List Action) :
    Action.sizes (a :: agenda) = a.size + Action.sizes agenda := by
  simp [Action.sizes]

@[simp] lemma Action.sizes_append (agenda agenda' : List Action) :
    Action.sizes (agenda ++ agenda') = Action.sizes agenda + Action.sizes agenda' := by
  simp [Action.sizes]

/-- Running continuations leads to what they lead to. -/
lemma Action.sizes_resume (ks : List Continuation) (o : Outcome Int64) :
    Action.sizes (ks.map (.resume · o)) = (ks.map Continuation.size).sum := by
  simp only [Action.sizes, List.map_map]
  rfl

/-- Carrying out a program leads to what its steps lead to. -/
lemma Action.sizes_perform (origin : Origin) (steps : List Step) :
    Action.sizes (steps.map (.perform origin)) = Step.size.sizes steps := by
  induction steps with
  | nil => rfl
  | cons step steps ih => rw [List.map_cons, Action.sizes_cons, ih, Step.size.sizes, Action.size]

/-- Replacing one summand. -/
lemma sum_map_set {β : Type} (f : β → Nat) {l : List β} {i : Nat} {b : β} (h : l[i]? = some b)
    (b' : β) : ((l.set i b').map f).sum + f b = (l.map f).sum + f b' := by
  induction l generalizing i with
  | nil => cases h
  | cons c l ih =>
    cases i with
    | zero =>
      cases h
      simp only [List.set_cons_zero, List.map_cons, List.sum_cons]
      omega
    | succ i =>
      have := ih h
      simp only [List.set_cons_succ, List.map_cons, List.sum_cons]
      omega

namespace Store

variable {s s' : Store Int64 Failure Continuation} {p : Id}

lemma size_add (s : Store Int64 Failure Continuation) (c : Cell Int64 Failure Continuation) :
    (s.add c).2.size = s.size + c.size := by
  simp [size, add]

/-- What has waited is handed back. -/
lemma size_settle? {o : Outcome Int64} {ks : List Continuation}
    (h : s.settle? p o = some (ks, s')) : (ks.map Continuation.size).sum + s'.size = s.size := by
  have hcell := cell?_of_settle? h
  have hs : s' = ⟨s.cells.set p.index (.settled o)⟩ := by
    rw [settle?, hcell] at h
    cases h
    rfl
  have hsum := sum_map_set Cell.size hcell (.settled o)
  rw [hs, size, size]
  simp only [Cell.size] at hsum ⊢
  omega

/-- A continuation waits, or it is handed back. -/
lemma size_register (s : Store Int64 Failure Continuation) (p : Id) (k : Continuation) :
    ((s.register p k).1.elim 0 fun _ => k.size) + (s.register p k).2.size ≤ s.size + k.size := by
  unfold register
  split
  · rename_i ks hcell
    have hsum := sum_map_set Cell.size hcell (.pending (ks ++ [k]))
    simp only [Cell.size, List.map_append, List.sum_append, List.map_cons, List.map_nil,
      List.sum_cons, List.sum_nil] at hsum
    simp only [Option.elim_none, size]
    omega
  · simp only [Option.elim_some]
    omega
  · simp only [Option.elim_none]
    omega

end Store

/-! ## What an action does to promises -/

/-- What an action does to promises, besides making ones that are not settled. -/
inductive Deed where
  /-- Nothing. -/
  | nothing
  /-- Makes a promise that is settled. -/
  | makes (outcome : Outcome Int64)
  /-- Settles a promise, if it is not settled. -/
  | settles (p : Id) (outcome : Outcome Int64)
  /-- Registers a continuation. -/
  | registers (p : Id) (k : Continuation)

namespace Deed

/-- What becomes of the promises. -/
def apply (s : Store Int64 Failure Continuation) : Deed → Store Int64 Failure Continuation
  | nothing => s
  | makes o => (s.newSettled o).2
  | settles p o => ((s.settle? p o).map (·.2)).getD s
  | registers p k => (s.register p k).2

/-- The continuations that are to run now, each with the outcome. -/
def runs (s : Store Int64 Failure Continuation) : Deed → List (Continuation × Outcome Int64)
  | settles p o => ((s.settle? p o).map (·.1.map (·, o))).getD []
  | registers p k => ((s.outcome? p).map (k, ·)).toList
  | _ => []

/-- How much a deed adds to what is to be done. -/
def size : Deed → Nat
  | registers _ k => k.size
  | _ => 0

end Deed

namespace Scene

variable {s : Scene} {a : Action} {agenda : List Action} {p : Id}

/-- The promises, with those that an action makes and does not settle. -/
def base (s : Scene) : Action → Store Int64 Failure Continuation
  | .perform _ .new | .perform _ .newDefault => s.promises.new.2
  | .perform _ (.map n _) => if (s.id? n).isSome then s.promises.new.2 else s.promises
  | _ => s.promises

/-- What an action does to promises. -/
def deed (s : Scene) : Action → Deed
  | .perform _ (.resolved v) => .makes (.ok v)
  | .perform _ (.rejected e) => .makes (.error e)
  | .perform _ (.resolve n v) => (s.id? n).elim .nothing (.settles · (.ok v))
  | .perform _ (.reject n e) => (s.id? n).elim .nothing (.settles · (.error e))
  | .perform _ (.onSettled n label steps) =>
    (s.id? n).elim .nothing (.registers · (.program label steps))
  | .perform _ (.map n x) => (s.id? n).elim .nothing (.registers · (.doubling s.promises.new.1 x))
  | .resume (.doubling target x) o => .settles target (o.map fun v => 2 * v + x)
  | _ => .nothing

/-- What an action sets off besides continuations. -/
def follows (s : Scene) : Action → List Action
  | .perform origin step => [.note origin step (s.step step).1]
  | .resume (.program label steps) _ => steps.map (.perform (.continuation label))
  | _ => []

lemma settle_eq (s : Scene) (p : Id) (o : Outcome Int64) :
    (s.settle p o).2.1 = ((Deed.settles p o).runs s.promises).map (fun e => .resume e.1 e.2) ∧
      (s.settle p o).2.2.promises = (Deed.settles p o).apply s.promises := by
  cases hs : s.promises.settle? p o with
  | none => simp [settle, Deed.runs, Deed.apply, hs]
  | some kp => simp [settle, Deed.runs, Deed.apply, hs]

lemma register_eq (s : Scene) (p : Id) (k : Continuation) :
    (s.register p k).1 = ((Deed.registers p k).runs s.promises).map (fun e => .resume e.1 e.2) ∧
      (s.register p k).2.promises = (Deed.registers p k).apply s.promises := by
  have hnow := s.promises.register_fst p k
  rcases hr : s.promises.register p k with ⟨_ | o, promises⟩
  · rw [hr] at hnow
    simp [register, Deed.runs, Deed.apply, hr, ← hnow]
  · rw [hr] at hnow
    simp [register, Deed.runs, Deed.apply, hr, ← hnow]

/-- What an action sets off, and what becomes of the promises. -/
theorem act_eq (s : Scene) (a : Action) :
    (s.act a).1 = ((s.deed a).runs (s.base a)).map (fun e => .resume e.1 e.2) ++ s.follows a ∧
      (s.act a).2.promises = (s.deed a).apply (s.base a) := by
  cases a with
  | perform origin step =>
    cases step with
    | new | newDefault | resolved | rejected => exact ⟨rfl, rfl⟩
    | clone n =>
      cases hn : s.id? n with
      | none => simp [act, step, deed, base, follows, Deed.runs, Deed.apply, hn]
      | some id => simp [act, step, addHandle, deed, base, follows, Deed.runs, Deed.apply, hn]
    | map n x =>
      cases hn : s.id? n with
      | none => simp [act, step, deed, base, follows, Deed.runs, Deed.apply, hn]
      | some id =>
        have h := register_eq ({ s with promises := s.promises.new.2 }.addHandle s.promises.new.1).2
          id (.doubling s.promises.new.1 x)
        simp only [act, step, deed, base, follows, hn]
        exact ⟨congrArg (· ++ _) h.1, h.2⟩
    | resolve n v =>
      cases hn : s.id? n with
      | none => simp [act, step, deed, base, follows, Deed.runs, Deed.apply, hn]
      | some id =>
        have h := s.settle_eq id (.ok v)
        simp only [act, step, deed, base, follows, hn]
        exact ⟨congrArg (· ++ _) h.1, h.2⟩
    | reject n e =>
      cases hn : s.id? n with
      | none => simp [act, step, deed, base, follows, Deed.runs, Deed.apply, hn]
      | some id =>
        have h := s.settle_eq id (.error e)
        simp only [act, step, deed, base, follows, hn]
        exact ⟨congrArg (· ++ _) h.1, h.2⟩
    | onSettled n label steps =>
      cases hn : s.id? n with
      | none => simp [act, step, deed, base, follows, Deed.runs, Deed.apply, hn]
      | some id =>
        have h := s.register_eq id (.program label steps)
        simp only [act, step, deed, base, follows, hn]
        exact ⟨congrArg (· ++ _) h.1, h.2⟩
    | waiter n label limit token =>
      cases hn : s.id? n with
      | none => simp [act, step, deed, base, follows, Deed.runs, Deed.apply, hn]
      | some id => simp [act, step, spawn, deed, base, follows, Deed.runs, Deed.apply, hn]
    | read | isSettled | same | describe | token | cancel | later => exact ⟨rfl, rfl⟩
  | resume k o =>
    cases k with
    | program label steps => exact ⟨rfl, rfl⟩
    | doubling target x =>
      have h := s.settle_eq target (o.map fun v => 2 * v + x)
      exact ⟨h.1.trans (List.append_nil _).symm, h.2⟩
  | note origin step reply => cases origin <;> exact ⟨rfl, rfl⟩

/-- An action makes one promise at most that is not settled. -/
lemma base_cases (s : Scene) (a : Action) :
    s.base a = s.promises ∨ s.base a = s.promises.new.2 := by
  unfold base
  split
  · exact .inr rfl
  · exact .inr rfl
  · split
    · exact .inr rfl
    · exact .inl rfl
  · exact .inl rfl

/-- No deed loses a promise or changes an outcome. -/
lemma persists_apply (d : Deed) (promises : Store Int64 Failure Continuation) :
    promises.Persists (d.apply promises) := by
  cases d with
  | nothing => exact .refl _
  | makes o => exact (Store.handsOut_add _).persists
  | settles p o =>
    cases hs : promises.settle? p o with
    | none =>
      rw [Deed.apply, hs]
      exact .refl _
    | some kp =>
      rw [Deed.apply, hs]
      refine (Store.settles_of_settle? hs).persists (List.forall_mem_singleton.2 ?_)
      exact ⟨_, Store.cell?_of_settle? hs⟩
  | registers p k =>
    exact ⟨fun _ => (Store.known_register k).2, fun q o ho =>
      (Store.outcome?_register p q k).trans ho⟩

lemma persists_base (s : Scene) (a : Action) : s.promises.Persists (s.base a) := by
  rcases s.base_cases a with h | h
  · rw [h]
    exact .refl _
  · rw [h]
    exact (Store.handsOut_add _).persists

/-- No action loses a promise or changes an outcome. -/
theorem persists_act (s : Scene) (a : Action) : s.promises.Persists (s.act a).2.promises := by
  rw [(s.act_eq a).2]
  exact (s.persists_base a).trans (persists_apply _ _)

lemma foldl_add {β : Type} (f : β → Nat) (l : List β) (n : Nat) :
    l.foldl (fun n b => n + f b) n = n + (l.map f).sum := by
  induction l generalizing n with
  | nil => rfl
  | cons b l ih =>
    rw [List.foldl_cons, ih, List.map_cons, List.sum_cons]
    omega

lemma pendingSize_eq (s : Scene) : s.pendingSize = s.promises.size := by
  refine Eq.trans (congrArg (s.promises.cells.foldl · 0) (funext fun n => funext fun cell => ?_))
    ((foldl_add Cell.size _ 0).trans (Nat.zero_add _))
  cases cell with
  | pending ks => exact foldl_add _ _ _
  | settled o => rfl

/-- How much there is left to do. -/
def work (s : Scene) (agenda : List Action) : Nat := Action.sizes agenda + s.promises.size

/-! ## What an action leaves to do -/

lemma size_runs (d : Deed) (promises : Store Int64 Failure Continuation) :
    Action.sizes ((d.runs promises).map fun e => .resume e.1 e.2) + (d.apply promises).size ≤
      promises.size + d.size := by
  cases d with
  | nothing => simp [Deed.runs, Deed.apply, Deed.size]
  | makes o => simp [Deed.runs, Deed.apply, Deed.size, Store.newSettled, Store.size_add, Cell.size]
  | settles p o =>
    cases hs : promises.settle? p o with
    | none => simp [Deed.runs, Deed.apply, Deed.size, hs]
    | some kp =>
      -- what is to run was counted with the store, where it waited
      obtain ⟨ks, promises'⟩ := kp
      have hsize := Store.size_settle? hs
      have hruns : ((Deed.settles p o).runs promises).map (fun e => Action.resume e.1 e.2) =
          ks.map (.resume · o) := by
        simp [Deed.runs, hs]
      rw [hruns, Action.sizes_resume]
      simp only [Deed.apply, Deed.size, hs, Option.map_some, Option.getD_some]
      omega
  | registers p k =>
    have hsize := promises.size_register p k
    rw [Store.register_fst] at hsize
    cases ho : promises.outcome? p with
    | none => simpa [Deed.runs, Deed.apply, Deed.size, ho] using hsize
    | some o => simpa [Deed.runs, Deed.apply, Deed.size, Action.size, ho] using hsize

/-- Nothing waits for a promise that is made. -/
lemma size_base (s : Scene) (a : Action) : (s.base a).size = s.promises.size := by
  rcases s.base_cases a with h | h
  · rw [h]
  · rw [h]
    exact Store.size_add _ _

/-- What an action registers and sets off besides is smaller than the action. -/
lemma size_follows (s : Scene) (a : Action) :
    (s.deed a).size + Action.sizes (s.follows a) < a.size := by
  cases a with
  | perform origin step =>
    have hnote : Action.sizes (s.follows (.perform origin step)) = 1 := rfl
    rw [hnote]
    cases step with
    | map n x =>
      cases hn : s.id? n <;>
        simp [deed, Deed.size, Action.size, Step.size, hn, Continuation.size]
    | resolve n v => cases hn : s.id? n <;> simp [deed, Deed.size, Action.size, Step.size, hn]
    | reject n e => cases hn : s.id? n <;> simp [deed, Deed.size, Action.size, Step.size, hn]
    | onSettled n label steps =>
      cases hn : s.id? n <;>
        simp [deed, Deed.size, Action.size, Step.size, hn, Continuation.size] <;> omega
    | _ => simp [deed, Deed.size, Action.size, Step.size] <;> omega
  | resume k o =>
    cases k with
    | program label steps =>
      simp only [follows, Action.sizes_perform, deed, Deed.size, Action.size, Continuation.size]
      omega
    | doubling target x => simp [follows, deed, Deed.size, Action.size, Continuation.size]
  | note origin step reply => simp [follows, deed, Deed.size, Action.size]

/-- Every action leaves less to do. -/
theorem work_act_lt (s : Scene) (a : Action) (rest : List Action) :
    (s.act a).2.work ((s.act a).1 ++ rest) < s.work (a :: rest) := by
  obtain ⟨hactions, hpromises⟩ := s.act_eq a
  have hruns := size_runs (s.deed a) (s.base a)
  have hbase := s.size_base a
  have hfollows := s.size_follows a
  rw [work, work, hactions, hpromises, Action.sizes_append, Action.sizes_append,
    Action.sizes_cons]
  omega

/-! ## Running to the end -/

/-- The bound does not matter if it exceeds what there is to do. -/
lemma runAgenda_of_work_lt {fuel fuel' : Nat} (h : s.work agenda < fuel)
    (h' : s.work agenda < fuel') : runAgenda fuel agenda s = runAgenda fuel' agenda s := by
  induction fuel generalizing fuel' agenda s with
  | zero => exact absurd h (Nat.not_lt_zero _)
  | succ fuel ih =>
    obtain ⟨fuel', rfl⟩ := Nat.exists_eq_succ_of_ne_zero (Nat.ne_zero_of_lt h')
    cases agenda with
    | nil => rfl
    | cons a rest =>
      have hlt := s.work_act_lt a rest
      exact ih (Nat.lt_of_lt_of_le hlt (Nat.le_of_lt_succ h))
        (Nat.lt_of_lt_of_le hlt (Nat.le_of_lt_succ h'))

lemma run_eq_runAgenda {fuel : Nat} (h : s.work agenda < fuel) :
    s.run agenda = runAgenda fuel agenda s := by
  have hbound : agenda.foldl (fun n a => n + a.size) s.pendingSize = s.work agenda := by
    rw [foldl_add, pendingSize_eq, work, Action.sizes, Nat.add_comm]
  rw [run, hbound]
  exact runAgenda_of_work_lt (Nat.lt_succ_self _) h

@[simp] theorem run_nil (s : Scene) : s.run [] = s := run_eq_runAgenda (Nat.lt_succ_self _)

/-- An agenda is worked through by doing its first action and then what this has set off and what
was on it already. -/
theorem run_cons (s : Scene) (a : Action) (rest : List Action) :
    s.run (a :: rest) = (s.act a).2.run ((s.act a).1 ++ rest) := by
  rw [run_eq_runAgenda (Nat.lt_succ_self _), run_eq_runAgenda (s.work_act_lt a rest)]
  rfl

/-- What every action preserves, of what is done and what is still to be done, holds at the end. -/
theorem run_induct {motive : List Action → Scene → Prop}
    (hact : ∀ a rest s, motive (a :: rest) s → motive ((s.act a).1 ++ rest) (s.act a).2)
    (h : motive agenda s) : motive [] (s.run agenda) := by
  induction hn : s.work agenda using Nat.strongRecOn generalizing s agenda with
  | _ n ih =>
    cases agenda with
    | nil =>
      rw [run_nil]
      exact h
    | cons a rest =>
      rw [run_cons]
      exact ih _ (hn ▸ s.work_act_lt a rest) (hact a rest s h) rfl

end Scene

end ConsensusLink.Promise
