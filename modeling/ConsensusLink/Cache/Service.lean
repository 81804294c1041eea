import ConsensusLink.Cache.Table
/-!
# A cache and the promises it hands out

A `CacheService` is a table together with the promises of the requests made through it. A request
is answered by the table, by the request in flight for its key, or by a new request; a new request
is watched, so that the table learns when it is settled.
-/

namespace ConsensusLink

open Promise

/-- What the table does when a request is settled. -/
structure CacheWatch (κ α : Type) where
  /-- The key asked for. -/
  key : κ
  /-- The request. -/
  promise : Id
  /-- Whether a value may be kept. -/
  accepts : α → Bool

/-- A table with the promises that it hands out. -/
structure CacheService (κ α ε : Type) [DecidableEq κ] where
  /-- The table. -/
  table : CacheTable κ α
  /-- The promises. -/
  promises : Store α ε (CacheWatch κ α)

namespace CacheService

variable {κ α ε : Type} [DecidableEq κ]

/-- An empty cache. -/
def empty (capacity : Nat) : CacheService κ α ε := ⟨.empty capacity, .empty⟩

/-- Tells the table that a watched request is settled. -/
def notify (s : CacheService κ α ε) (w : CacheWatch κ α) (outcome : Except ε α) :
    CacheService κ α ε :=
  { s with table := s.table.finish w.key w.promise outcome w.accepts }

/-- Asks for a key. A request that has to be made may be settled at once, with `fetched`. The
promise of the answer is returned, and whether a request was made. -/
def get (s : CacheService κ α ε) (k : κ) (fetched : Option (Except ε α)) (accepts : α → Bool) :
    Id × Bool × CacheService κ α ε :=
  match s.table.lookup k with
  | (.ready a, table) =>
    let (p, promises) := s.promises.newSettled (.ok a)
    (p, false, ⟨table, promises⟩)
  | (.pending p, table) => (p, false, { s with table })
  | (.absent, table) =>
    let (p, promises) := match fetched with
      | some outcome => s.promises.newSettled outcome
      | none => s.promises.new
    let w : CacheWatch κ α := ⟨k, p, accepts⟩
    let (now, promises) := promises.register p w
    let s : CacheService κ α ε := ⟨table.begin k p, promises⟩
    (p, true, match now with
      | some outcome => s.notify w outcome
      | none => s)

/-- Settles a request. Returns whether it was not settled before. -/
def settle (s : CacheService κ α ε) (p : Id) (outcome : Except ε α) : Bool × CacheService κ α ε :=
  match s.promises.settle? p outcome with
  | some (watches, promises) =>
    (true, watches.foldl (fun s w => s.notify w outcome) { s with promises })
  | none => (false, s)

/-- Forgets the value and the request of a key. -/
def purge (s : CacheService κ α ε) (k : κ) : CacheService κ α ε :=
  { s with table := s.table.purge k }

end CacheService

end ConsensusLink
