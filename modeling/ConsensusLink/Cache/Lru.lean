/-!
# Least recently used entries are dropped first

An `Lru` holds at most `capacity` entries, the most recently used in front. Reading an entry or
writing one brings it to the front; writing one more than fit drops the one at the back.
-/

namespace ConsensusLink

/-- Entries by recency of use, the latest in front. -/
structure Lru (κ α : Type) [DecidableEq κ] where
  /-- How many entries fit. -/
  capacity : Nat
  /-- The entries, most recently used first. -/
  entries : List (κ × α)
  length_le : entries.length ≤ capacity
  capacity_pos : 0 < capacity
  nodup : (entries.map (·.1)).Nodup

namespace Lru

variable {κ α : Type} [DecidableEq κ]

/-- No entries; room for one at least. -/
def empty (capacity : Nat) : Lru κ α where
  capacity := max capacity 1
  entries := []
  length_le := Nat.zero_le _
  capacity_pos := by omega
  nodup := List.nodup_nil

instance : Inhabited (Lru κ α) := ⟨empty 1⟩

/-- The value of a key, without using it. -/
def peek? (t : Lru κ α) (k : κ) : Option α := t.entries.lookup k

/-- The entries of all keys but one. -/
def without (entries : List (κ × α)) (k : κ) : List (κ × α) := entries.filter (·.1 ≠ k)

theorem nodup_without {entries : List (κ × α)} (h : (entries.map (·.1)).Nodup) (k : κ) :
    ((without entries k).map (·.1)).Nodup :=
  h.sublist (List.filter_sublist.map _)

theorem notMem_without (entries : List (κ × α)) (k : κ) : k ∉ (without entries k).map (·.1) := by
  simp [without]

theorem length_without_le (entries : List (κ × α)) (k : κ) :
    (without entries k).length ≤ entries.length := List.length_filter_le ..

/-- Writes an entry in front, dropping what no longer fits. -/
def put (t : Lru κ α) (k : κ) (a : α) : Lru κ α where
  capacity := t.capacity
  entries := (k, a) :: (without t.entries k).take (t.capacity - 1)
  length_le := by
    have := t.capacity_pos
    simp only [List.length_cons, List.length_take]
    omega
  capacity_pos := t.capacity_pos
  nodup := by
    have hsub : List.Sublist (((without t.entries k).take (t.capacity - 1)).map (·.1))
        ((without t.entries k).map (·.1)) := (List.take_sublist _ _).map _
    simp only [List.map_cons, List.nodup_cons]
    exact ⟨fun h => notMem_without t.entries k (hsub.subset h),
      (nodup_without t.nodup k).sublist hsub⟩

/-- The value of a key, which is thereby the most recently used. -/
def get? (t : Lru κ α) (k : κ) : Option (α × Lru κ α) := (t.peek? k).map fun a => (a, t.put k a)

/-- Drops the entry of a key. -/
def erase (t : Lru κ α) (k : κ) : Lru κ α where
  capacity := t.capacity
  entries := without t.entries k
  length_le := Nat.le_trans (length_without_le _ _) t.length_le
  capacity_pos := t.capacity_pos
  nodup := nodup_without t.nodup k

/-- Drops all entries. -/
def clear (t : Lru κ α) : Lru κ α where
  capacity := t.capacity
  entries := []
  length_le := Nat.zero_le _
  capacity_pos := t.capacity_pos
  nodup := List.nodup_nil

@[simp] theorem peek?_put_self (t : Lru κ α) (k : κ) (a : α) : (t.put k a).peek? k = some a := by
  simp [peek?, put]

@[simp] theorem peek?_clear (t : Lru κ α) (k : κ) : t.clear.peek? k = none := rfl

@[simp] theorem peek?_erase_self (t : Lru κ α) (k : κ) : (t.erase k).peek? k = none := by
  simp only [peek?, erase, without, List.lookup_eq_none_iff, List.mem_filter, ne_eq, decide_not,
    Bool.not_eq_eq_eq_not, Bool.not_true, decide_eq_false_iff_not, and_imp, bne_iff_ne, Prod.forall]
  exact fun a _ _ h hc => h hc.symm

end Lru

end ConsensusLink
