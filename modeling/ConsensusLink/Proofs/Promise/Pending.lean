import ConsensusLink.Promise.Store
import Mathlib.Tactic.Common
/-!
# Promises that wait for their outcome

A promise is *pending* when it is known to its store and has no outcome yet. Every operation of a
store is described by what it does to pending promises and to outcomes: a new promise disturbs no
earlier one, registering a continuation changes no outcome, and settling gives one pending promise
its outcome and leaves the others as they are.
-/

namespace ConsensusLink.Promise.Store

variable {α ε κ : Type} {s s' : Store α ε κ} {p q : Id}

/-- The promise is known and has no outcome yet. -/
def Pending (s : Store α ε κ) (p : Id) : Prop := ∃ ks, s.cell? p = some (.pending ks)

/-- The promise was handed out by the store. -/
def Known (s : Store α ε κ) (p : Id) : Prop := p.index < s.cells.length

lemma known_of_cell {c : Cell α ε κ} (h : s.cell? p = some c) : s.Known p :=
  (List.getElem?_eq_some_iff.1 h).1

lemma Pending.known (h : s.Pending p) : s.Known p := by
  obtain ⟨ks, hk⟩ := h
  exact known_of_cell hk

lemma Pending.outcome?_eq (h : s.Pending p) : s.outcome? p = none := by
  obtain ⟨ks, hk⟩ := h
  simp [outcome?, hk]

lemma pending_of_known (h : s.Known p) (ho : s.outcome? p = none) : s.Pending p := by
  rcases hc : s.cell? p with _ | ks | o
  · exact absurd h (Nat.not_lt.2 (List.getElem?_eq_none_iff.1 hc))
  · exact ⟨ks, hc⟩
  · rw [outcome?, hc] at ho
    cases ho

lemma known_of_outcome {o : Except ε α} (h : s.outcome? p = some o) : s.Known p := by
  unfold outcome? at h
  split at h
  · rename_i o' hc
    exact known_of_cell hc
  · cases h

lemma continuations_of_outcome {o : Except ε α} (h : s.outcome? p = some o) :
    s.continuations p = [] := by
  unfold outcome? at h
  split at h
  · rename_i o' hc
    rw [continuations, hc]
  · cases h

lemma known_of_mem_continuations {k : κ} (h : k ∈ s.continuations p) : s.Known p := by
  unfold continuations at h
  split at h
  · rename_i ks hc
    exact known_of_cell hc
  · cases h

lemma isSome_cell? (h : s.Known p) : (s.cell? p).isSome = true := by
  rw [cell?, List.getElem?_eq_getElem h]
  rfl

lemma index_ne (h : p ≠ q) : p.index ≠ q.index := by
  intro hi
  cases p; cases q
  exact h (congrArg Id.mk hi)

/-! ## A new promise -/

lemma cell?_add_of_known (h : s.Known p) (c : Cell α ε κ) : (s.add c).2.cell? p = s.cell? p :=
  List.getElem?_append_left h

@[simp] lemma cell?_add_self (c : Cell α ε κ) : (s.add c).2.cell? (s.add c).1 = some c := by
  simp [add, cell?]

lemma not_known_add (c : Cell α ε κ) : ¬ s.Known (s.add c).1 := Nat.lt_irrefl _

lemma cell?_new : s.new.2.cell? s.new.1 = some (.pending []) := cell?_add_self _

lemma pending_new : s.new.2.Pending s.new.1 := ⟨[], cell?_new⟩

lemma outcome?_newSettled (o : Except ε α) :
    (s.newSettled o).2.outcome? (s.newSettled o).1 = some o := by
  simp [newSettled, outcome?]

/-! ## Registering a continuation -/

lemma known_register (k : κ) : (s.register p k).2.Known q ↔ s.Known q := by
  unfold register Known
  split <;> simp

lemma cell?_register_of_ne (h : q ≠ p) (k : κ) : (s.register p k).2.cell? q = s.cell? q := by
  unfold register
  split
  · exact List.getElem?_set_ne (index_ne h.symm)
  · rfl
  · rfl

lemma cell?_register_self {ks : List κ} (h : s.cell? p = some (.pending ks)) (k : κ) :
    (s.register p k).2.cell? p = some (.pending (ks ++ [k])) := by
  have hlt : p.index < s.cells.length := known_of_cell h
  rw [register, h]
  exact List.getElem?_set_self hlt

lemma register_of_outcome {o : Except ε α} (h : s.outcome? p = some o) (k : κ) :
    s.register p k = (some o, s) := by
  unfold outcome? at h
  split at h
  · rename_i o' hc
    cases h
    rw [register, hc]
  · cases h

lemma register_fst (s : Store α ε κ) (p : Id) (k : κ) :
    (s.register p k).1 = s.outcome? p := by
  rw [register, outcome?]
  rcases s.cell? p with _ | ks | o <;> rfl

lemma continuations_register {ks : List κ} (h : s.cell? p = some (.pending ks)) (k : κ) :
    (s.register p k).2.continuations p = ks ++ [k] := by
  rw [continuations, cell?_register_self h]

lemma Pending.register (h : s.Pending q) (p : Id) (k : κ) : (s.register p k).2.Pending q := by
  obtain ⟨ks, hk⟩ := h
  by_cases hq : q = p
  · subst hq
    exact ⟨ks ++ [k], cell?_register_self hk k⟩
  · exact ⟨ks, by rw [cell?_register_of_ne hq, hk]⟩

lemma outcome?_register (p q : Id) (k : κ) : (s.register p k).2.outcome? q = s.outcome? q := by
  by_cases hq : q = p
  · subst hq
    rcases hc : s.cell? q with _ | ks | o
    · rw [register, hc]
    · rw [outcome?, cell?_register_self hc, outcome?, hc]
    · rw [register, hc]
  · rw [outcome?, cell?_register_of_ne hq, outcome?]

/-- How a store changes when it hands out one more promise: everything known before stays as it
was. -/
structure HandsOut (s s' : Store α ε κ) (p : Id) : Prop where
  fresh : ¬ s.Known p
  known : ∀ q, s'.Known q ↔ s.Known q ∨ q = p
  cells : ∀ q, s.Known q → s'.cell? q = s.cell? q

lemma handsOut_add (c : Cell α ε κ) : s.HandsOut (s.add c).2 (s.add c).1 where
  fresh := not_known_add c
  known q := by
    have hq : q.index = s.cells.length ↔ q = ⟨s.cells.length⟩ := by
      cases q
      simp
    simp only [Known, add, List.length_append, List.length_singleton, ← hq]
    omega
  cells q hq := cell?_add_of_known hq c

namespace HandsOut

lemma ne (h : s.HandsOut s' p) (hq : s.Known q) : q ≠ p := by
  rintro rfl
  exact h.fresh hq

lemma known_self (h : s.HandsOut s' p) : s'.Known p := (h.known p).2 (.inr rfl)

lemma known_mono (h : s.HandsOut s' p) (hq : s.Known q) : s'.Known q := (h.known q).2 (.inl hq)

lemma outcome?_eq (h : s.HandsOut s' p) (hq : s.Known q) : s'.outcome? q = s.outcome? q := by
  rw [outcome?, h.cells q hq, outcome?]

lemma pending (h : s.HandsOut s' p) (hq : s.Pending q) : s'.Pending q := by
  rw [Pending, h.cells q hq.known]
  exact hq

lemma mem_continuations {k : κ} (h : s.HandsOut s' p) (hk : k ∈ s'.continuations q) :
    k ∈ s.continuations q ∨ q = p := by
  refine ((h.known q).1 (known_of_mem_continuations hk)).imp_left fun hknown => ?_
  rwa [continuations, h.cells q hknown] at hk

lemma register (h : s.HandsOut s' p) (k : κ) : s.HandsOut (s'.register p k).2 p where
  fresh := h.fresh
  known q := by rw [known_register, h.known]
  cells q hq := by rw [cell?_register_of_ne (h.ne hq), h.cells q hq]

end HandsOut

/-! ## Settling -/

lemma Pending.exists_settle? (h : s.Pending p) (o : Except ε α) :
    ∃ ks s', s.cell? p = some (.pending ks) ∧ s.settle? p o = some (ks, s') := by
  obtain ⟨ks, hk⟩ := h
  exact ⟨ks, _, hk, by rw [settle?, hk]⟩

/-- How a store changes when some of its promises are settled, all with the same outcome. -/
structure Settles (s s' : Store α ε κ) (ps : List Id) (o : Except ε α) : Prop where
  outcome : ∀ p ∈ ps, s'.outcome? p = some o
  others : ∀ q, q ∉ ps → s'.cell? q = s.cell? q
  known : ∀ q, s'.Known q ↔ s.Known q

lemma settles_of_settle? {o : Except ε α} {ks : List κ} (h : s.settle? p o = some (ks, s')) :
    s.Settles s' [p] o := by
  have ho := outcome?_of_settle? h
  unfold settle? at h
  split at h
  · simp only [Option.some.injEq, Prod.mk.injEq] at h
    obtain ⟨-, rfl⟩ := h
    refine ⟨?_, fun q hq => ?_, fun q => by simp [Known]⟩
    · rintro q hq
      rwa [List.mem_singleton.1 hq]
    · have hne : q ≠ p := fun hc => hq (List.mem_singleton.2 hc)
      exact List.getElem?_set_ne (index_ne hne.symm)
  · cases h

/-- What is handed back was waiting. -/
lemma cell?_of_settle? {o : Except ε α} {ks : List κ} (h : s.settle? p o = some (ks, s')) :
    s.cell? p = some (.pending ks) := by
  unfold settle? at h
  split at h
  · rename_i hc
    cases h
    exact hc
  · cases h

namespace Settles

variable {o : Except ε α} {ps qs : List Id} {s'' : Store α ε κ}

lemma refl (s : Store α ε κ) (o : Except ε α) : s.Settles s [] o where
  outcome _ hp := nomatch hp
  others _ _ := rfl
  known _ := Iff.rfl

lemma outcome?_of_notMem (h : s.Settles s' ps o) (hq : q ∉ ps) :
    s'.outcome? q = s.outcome? q := by
  rw [outcome?, h.others q hq, outcome?]

lemma pending_of_notMem (h : s.Settles s' ps o) (hq : q ∉ ps) : s'.Pending q ↔ s.Pending q := by
  rw [Pending, h.others q hq, Pending]

/-- Settling some promises and then others settles them all. -/
lemma trans (h : s.Settles s' ps o) (h' : s'.Settles s'' qs o) : s.Settles s'' (ps ++ qs) o where
  outcome p hp := by
    by_cases hq : p ∈ qs
    · exact h'.outcome p hq
    · rw [h'.outcome?_of_notMem hq]
      exact h.outcome p ((List.mem_append.1 hp).resolve_right hq)
  others q hq := by
    have hps : q ∉ ps := fun hc => hq (List.mem_append_left _ hc)
    have hqs : q ∉ qs := fun hc => hq (List.mem_append_right _ hc)
    rw [h'.others q hqs, h.others q hps]
  known q := by rw [h'.known, h.known]

end Settles

/-- How a store changes when nothing is lost and at most some promises are settled. -/
structure Carries (s s' : Store α ε κ) (ps : List Id) : Prop where
  pending : ∀ q, q ∉ ps → s.Pending q → s'.Pending q
  known : ∀ q, s.Known q → s'.Known q

lemma Carries.refl (s : Store α ε κ) : s.Carries s [] := ⟨fun _ _ => id, fun _ => id⟩

lemma Settles.carries {ps : List Id} {o : Except ε α} (h : s.Settles s' ps o) :
    s.Carries s' ps :=
  ⟨fun _ hq => (h.pending_of_notMem hq).2, fun q => (h.known q).2⟩

/-- How a store changes over any time: nothing is lost, and outcomes stay. -/
structure Persists (s s' : Store α ε κ) : Prop where
  known : ∀ q, s.Known q → s'.Known q
  outcome : ∀ q o, s.outcome? q = some o → s'.outcome? q = some o

namespace Persists

lemma refl (s : Store α ε κ) : s.Persists s := ⟨fun _ => id, fun _ _ => id⟩

lemma trans {s'' : Store α ε κ} (h : s.Persists s') (h' : s'.Persists s'') : s.Persists s'' :=
  ⟨fun q hq => h'.known q (h.known q hq), fun q o ho => h'.outcome q o (h.outcome q o ho)⟩

end Persists

lemma HandsOut.persists (h : s.HandsOut s' p) : s.Persists s' :=
  ⟨fun _ => h.known_mono, fun _ _ ho => (h.outcome?_eq (known_of_outcome ho)).trans ho⟩

lemma Settles.persists {ps : List Id} {o : Except ε α} (h : s.Settles s' ps o)
    (hp : ∀ p ∈ ps, s.Pending p) : s.Persists s' where
  known q := (h.known q).2
  outcome q o' ho := by
    have hq : q ∉ ps := fun hq => by cases (hp q hq).outcome?_eq.symm.trans ho
    exact (h.outcome?_of_notMem hq).trans ho

end ConsensusLink.Promise.Store

/-! ## Other names for continuations -/

namespace ConsensusLink.Promise

variable {α ε κ κ' : Type} (g : κ → κ')

/-- The same promise with other names for what waits for it. -/
def Cell.relabel : Cell α ε κ → Cell α ε κ'
  | .pending ks => .pending (ks.map g)
  | .settled o => .settled o

/-- The same promises with other names for what waits for them. -/
def Store.relabel (s : Store α ε κ) : Store α ε κ' := ⟨s.cells.map (Cell.relabel g)⟩

namespace Store

variable (s : Store α ε κ) (p : Id)

@[simp] lemma cell?_relabel : (s.relabel g).cell? p = (s.cell? p).map (Cell.relabel g) :=
  List.getElem?_map

@[simp] lemma outcome?_relabel : (s.relabel g).outcome? p = s.outcome? p := by
  rw [outcome?, outcome?, cell?_relabel]
  rcases s.cell? p with _ | ks | o <;> rfl

lemma relabel_add (c : Cell α ε κ) :
    (s.relabel g).add (c.relabel g) = ((s.add c).1, (s.add c).2.relabel g) := by
  simp [add, relabel]

lemma relabel_settle? (o : Except ε α) :
    (s.relabel g).settle? p o = (s.settle? p o).map fun e => (e.1.map g, e.2.relabel g) := by
  rw [settle?, settle?, cell?_relabel]
  rcases s.cell? p with _ | ks | o'
  · rfl
  · simp [Cell.relabel, relabel]
  · rfl

lemma relabel_register (k : κ) :
    (s.relabel g).register p (g k) = ((s.register p k).1, (s.register p k).2.relabel g) := by
  rw [register, register, cell?_relabel]
  rcases s.cell? p with _ | ks | o'
  · rfl
  · simp [Cell.relabel, relabel]
  · rfl

end Store

end ConsensusLink.Promise
