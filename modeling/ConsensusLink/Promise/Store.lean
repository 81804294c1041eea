/-!
# Promises

A promise is a place for one outcome that is produced once and observed by many. A `Promise.Store`
holds promises by their identity. What observes a promise before it is settled is kept with it as a
list of continuations, here mere data of a type `κ`: settling hands them back to the caller in the
order of registration, and whoever registers one on a settled promise is handed the outcome at once.
Who runs continuations, and what they may do, is decided by the users of the store.
-/

namespace ConsensusLink

namespace Promise

/-- The identity of a promise. -/
structure Id where
  /-- The place of the promise in its store. -/
  index : Nat
deriving DecidableEq, Inhabited, Repr

/-- What has become of a promise. -/
inductive Cell (α ε κ : Type) where
  /-- It is not settled; these continuations wait for it, oldest first. -/
  | pending (continuations : List κ)
  /-- It is settled with an outcome. -/
  | settled (outcome : Except ε α)
deriving Inhabited

/-- Promises by their identity. -/
structure Store (α ε κ : Type) where
  /-- What has become of each promise, oldest first. -/
  cells : List (Cell α ε κ)

/-- What is said when a promise is settled again. -/
def alreadySettledMessage : String := "promise already settled"

namespace Store

variable {α ε κ : Type}

/-- No promises. -/
def empty : Store α ε κ := ⟨[]⟩

instance : Inhabited (Store α ε κ) := ⟨empty⟩

/-- A new promise in a given state. -/
def add (s : Store α ε κ) (cell : Cell α ε κ) : Id × Store α ε κ :=
  (⟨s.cells.length⟩, ⟨s.cells ++ [cell]⟩)

/-- A new promise that is not settled. -/
def new (s : Store α ε κ) : Id × Store α ε κ := s.add (.pending [])

/-- A new promise that is settled already. -/
def newSettled (s : Store α ε κ) (outcome : Except ε α) : Id × Store α ε κ :=
  s.add (.settled outcome)

/-- What has become of a promise. -/
def cell? (s : Store α ε κ) (p : Id) : Option (Cell α ε κ) := s.cells[p.index]?

/-- The outcome of a promise, once it is settled. -/
def outcome? (s : Store α ε κ) (p : Id) : Option (Except ε α) :=
  match s.cell? p with
  | some (.settled outcome) => some outcome
  | _ => none

/-- Whether a promise is settled. -/
def isSettled (s : Store α ε κ) (p : Id) : Bool := (s.outcome? p).isSome

/-- The continuations that wait for a promise. -/
def continuations (s : Store α ε κ) (p : Id) : List κ :=
  match s.cell? p with
  | some (.pending ks) => ks
  | _ => []

/-- Settles a promise. The continuations that are now to run are handed back, oldest first; there
are none to hand back, and nothing changes, if the promise is settled already. -/
def settle? (s : Store α ε κ) (p : Id) (outcome : Except ε α) : Option (List κ × Store α ε κ) :=
  match s.cell? p with
  | some (.pending ks) => some (ks, ⟨s.cells.set p.index (.settled outcome)⟩)
  | _ => none

/-- Registers a continuation. If the promise is settled the outcome is handed back, and the
continuation is to run now; otherwise it is kept behind those registered before. -/
def register (s : Store α ε κ) (p : Id) (k : κ) : Option (Except ε α) × Store α ε κ :=
  match s.cell? p with
  | some (.pending ks) => (none, ⟨s.cells.set p.index (.pending (ks ++ [k]))⟩)
  | some (.settled outcome) => (some outcome, s)
  | none => (none, s)

theorem outcome?_of_settle? {s s' : Store α ε κ} {p : Id} {o : Except ε α} {ks : List κ}
    (h : s.settle? p o = some (ks, s')) : s'.outcome? p = some o := by
  unfold settle? at h
  split at h
  · rename_i ks' hc
    simp only [Option.some.injEq, Prod.mk.injEq] at h
    obtain ⟨-, rfl⟩ := h
    have hlt : p.index < s.cells.length := by
      unfold cell? at hc
      exact (List.getElem?_eq_some_iff.1 hc).1
    simp [outcome?, cell?, List.getElem?_set_self hlt]
  · cases h

theorem settle?_eq_none_of_isSettled {s : Store α ε κ} {p : Id} (h : s.isSettled p = true)
    (o : Except ε α) : s.settle? p o = none := by
  unfold isSettled outcome? at h
  unfold settle?
  split at h
  · rename_i hc; simp [hc]
  · simp at h

/-- Settling one promise leaves the outcome of every other as it was. -/
theorem outcome?_settle?_of_ne {s s' : Store α ε κ} {p q : Id} {o : Except ε α} {ks : List κ}
    (h : s.settle? p o = some (ks, s')) (hne : q ≠ p) : s'.outcome? q = s.outcome? q := by
  unfold settle? at h
  split at h
  · simp only [Option.some.injEq, Prod.mk.injEq] at h
    obtain ⟨-, rfl⟩ := h
    have : p.index ≠ q.index := fun hc => hne (by cases p; cases q; simp_all)
    simp [outcome?, cell?, List.getElem?_set_ne this]
  · cases h

end Store

end Promise

end ConsensusLink
