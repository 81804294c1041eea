import ConsensusLink.Cache.Lru
import ConsensusLink.Promise.Store
/-!
# One request in flight for each key

A `CacheTable` keeps the values that were fetched, bounded by recency of use, and the promises of
requests that are in flight, which are never dropped for want of room. A key that is asked for
while its request is in flight gets the promise of that request. When a request is settled its
value is retained if it is still the request of its key and the value is accepted; failures are
never kept.
-/

namespace ConsensusLink

open Promise

/-- Values that were fetched and requests in flight, by key. -/
structure CacheTable (κ α : Type) [DecidableEq κ] where
  /-- The values that are served without a request. -/
  ready : Lru κ α
  /-- The requests in flight. -/
  pending : List (κ × Id)

/-- What a table knows of a key. -/
inductive Lookup (α : Type) where
  /-- The value is there. -/
  | ready (value : α)
  /-- A request is in flight. -/
  | pending (promise : Id)
  /-- A request has to be made. -/
  | absent

namespace CacheTable

variable {κ α : Type} [DecidableEq κ]

/-- An empty table. -/
def empty (capacity : Nat) : CacheTable κ α := ⟨.empty capacity, []⟩

instance : Inhabited (CacheTable κ α) := ⟨empty 1⟩

/-- The request of a key that is in flight. -/
def pending? (t : CacheTable κ α) (k : κ) : Option Id := t.pending.lookup k

/-- What the table knows of a key; a value that is served counts as used. -/
def lookup (t : CacheTable κ α) (k : κ) : Lookup α × CacheTable κ α :=
  match t.ready.get? k with
  | some (a, ready) => (.ready a, { t with ready })
  | none =>
    match t.pending? k with
    | some p => (.pending p, t)
    | none => (.absent, t)

/-- Notes the request of a key. -/
def begin (t : CacheTable κ α) (k : κ) (p : Id) : CacheTable κ α :=
  { t with pending := (k, p) :: t.pending.filter (·.1 ≠ k) }

/-- Notes that a request of a key is settled. Nothing changes unless it is the one in flight; then
its value is retained if `accepts` it. -/
def finish {ε : Type} (t : CacheTable κ α) (k : κ) (p : Id) (outcome : Except ε α)
    (accepts : α → Bool) : CacheTable κ α :=
  if t.pending? k = some p then
    let pending := t.pending.filter (·.1 ≠ k)
    match outcome with
    | .ok a => if accepts a then ⟨t.ready.put k a, pending⟩ else { t with pending }
    | .error _ => { t with pending }
  else t

/-- Forgets the value and the request of a key. -/
def purge (t : CacheTable κ α) (k : κ) : CacheTable κ α :=
  ⟨t.ready.erase k, t.pending.filter (·.1 ≠ k)⟩

end CacheTable

end ConsensusLink
