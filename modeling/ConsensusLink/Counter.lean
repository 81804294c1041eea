import ConsensusLink.Index
/-!
# The three message counts

The consensus node reports three counts of messages: how many are finalized, how many are safe,
and how many there are to sync. They are ordered by dominance: a count never falls below the counts
that it dominates.
-/

namespace ConsensusLink

/-- One of the three message counts, lowest first. -/
inductive Counter where
  /-- Messages that can no longer be reordered. -/
  | finalized
  /-- Messages that are unlikely to be reordered. -/
  | safe
  /-- Messages that exist somewhere in the network. -/
  | syncTarget
deriving DecidableEq, Inhabited, Repr

namespace Counter

/-- All counters, lowest first. -/
def all : List Counter := [finalized, safe, syncTarget]

/-- The place of a counter among all counters. -/
def rank : Counter → Nat
  | finalized => 0
  | safe => 1
  | syncTarget => 2

/-- The counters that this one must never fall below, lowest first. -/
def dominated : Counter → List Counter
  | finalized => []
  | safe => [finalized]
  | syncTarget => [finalized, safe]

/-- The name of a counter in configuration, errors and messages. -/
def name : Counter → String
  | finalized => "finalized"
  | safe => "safe"
  | syncTarget => "sync_target"

/-- The counter of a given name. -/
def ofName? (s : String) : Option Counter := all.find? (·.name = s)

theorem mem_dominated {c d : Counter} : d ∈ c.dominated ↔ d.rank < c.rank := by
  cases c <;> cases d <;> simp [dominated, rank]

theorem mem_all (c : Counter) : c ∈ all := by cases c <;> simp [all]

theorem rank_inj {c d : Counter} : c.rank = d.rank ↔ c = d := by
  cases c <;> cases d <;> simp [rank]

theorem ofName?_name (c : Counter) : ofName? c.name = some c := by
  cases c <;> decide

end Counter

/-- A value for each counter. -/
structure PerCounter (α : Type) where
  /-- The value of the finalized count. -/
  finalized : α
  /-- The value of the safe count. -/
  safe : α
  /-- The value of the sync target. -/
  target : α
deriving DecidableEq, Inhabited, Repr

namespace PerCounter

variable {α : Type}

/-- The same value for every counter. -/
def const (a : α) : PerCounter α := ⟨a, a, a⟩

/-- The value of one counter. -/
def get (t : PerCounter α) : Counter → α
  | .finalized => t.finalized
  | .safe => t.safe
  | .syncTarget => t.target

/-- The values with that of one counter replaced. -/
def set (t : PerCounter α) (c : Counter) (a : α) : PerCounter α :=
  match c with
  | .finalized => { t with finalized := a }
  | .safe => { t with safe := a }
  | .syncTarget => { t with target := a }

@[simp] theorem get_set_self (t : PerCounter α) (c : Counter) (a : α) : (t.set c a).get c = a := by
  cases c <;> rfl

theorem get_set_of_ne {c d : Counter} (h : d ≠ c) (t : PerCounter α) (a : α) :
    (t.set c a).get d = t.get d := by
  cases c <;> cases d <;> first | rfl | exact absurd rfl h

@[simp] theorem get_const (a : α) (c : Counter) : (const a).get c = a := by
  cases c <;> rfl

end PerCounter

/-- The three message counts. -/
abbrev MessageCounts := PerCounter MessageIndex

namespace MessageCounts

/-- Whether no count falls below a count that it dominates. -/
def isOrdered (t : MessageCounts) : Bool :=
  decide (t.finalized ≤ t.safe) && decide (t.safe ≤ t.target)

theorem isOrdered_iff (t : MessageCounts) :
    t.isOrdered = true ↔ t.finalized ≤ t.safe ∧ t.safe ≤ t.target := by
  simp [isOrdered]

end MessageCounts

end ConsensusLink
