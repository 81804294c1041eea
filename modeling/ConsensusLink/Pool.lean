import ConsensusLink.Client.Config
import ConsensusLink.Failure
/-!
# The request pool

Requests are admitted, wait for a slot and run. A `Pool` counts the admitted requests that have not
been granted or refused a slot, refuses to admit more than fit, and hands slots out in the order in
which they are asked for: a slot that is given back goes to whoever waits longest.

A request that is given up while it waits for its slot loses its place, but remains counted.
-/

namespace ConsensusLink

/-- The slots of a pool and who waits for them, for requests named by `τ`. -/
structure Pool (τ : Type) where
  /-- How many requests may run at once. -/
  slots : Nat
  /-- How many admitted requests may wait. -/
  room : Nat
  /-- How many slots are free. -/
  free : Nat
  /-- Who waits for a slot, longest first. -/
  waiting : List τ
  /-- Who was handed a slot and has not taken it up yet. -/
  granted : List τ
  /-- How many requests count as admitted without having been granted or refused a slot. -/
  queued : Nat
  /-- Whether the pool is shut down. -/
  isDown : Bool
deriving Inhabited, Repr

/-- What comes of asking for a slot. -/
inductive SlotReply where
  /-- The slot is taken. -/
  | taken
  /-- There is none yet. -/
  | wait
  /-- There will be none. -/
  | refused
deriving DecidableEq, Inhabited, Repr

namespace Pool

variable {τ : Type} [DecidableEq τ]

/-- A pool in which nothing runs. There is room for one request at least, and a slot. -/
def empty (c : PoolConfig) : Pool τ where
  slots := max c.maxConcurrentRequests.toNat 1
  room := max c.maxQueuedRequests.toNat 1
  free := max c.maxConcurrentRequests.toNat 1
  waiting := []
  granted := []
  queued := 0
  isDown := false

/-- How many slots are in use. -/
def running (p : Pool τ) : Nat := p.slots - p.free - p.granted.length

/-- Admits a request. -/
def enter (p : Pool τ) : Except Failure (Pool τ) :=
  if p.isDown then .error .shutDown
  else if p.room ≤ p.queued then .error .overloaded
  else .ok { p with queued := p.queued + 1 }

/-- Gives a slot back. It is handed to whoever waits longest, who is returned. -/
def release (p : Pool τ) : Option τ × Pool τ :=
  match p.waiting with
  | t :: rest => (some t, { p with waiting := rest, granted := p.granted ++ [t] })
  | [] => (none, { p with free := p.free + 1 })

/-- Takes a request out of the waiting line. A slot that was handed to it is given back. -/
def leave (p : Pool τ) (t : τ) : Option τ × Pool τ :=
  if t ∈ p.granted then { p with granted := p.granted.erase t }.release
  else (none, { p with waiting := p.waiting.filter (· ≠ t) })

/-- Asks for a slot for an admitted request, which joins the waiting line if it must. Once a slot
is taken or refused the request no longer counts as queued. Returns also who is handed a slot. -/
def ask (p : Pool τ) (t : τ) : SlotReply × Option τ × Pool τ :=
  if p.isDown then
    let (next, p) := p.leave t
    (.refused, next, { p with queued := p.queued - 1 })
  else if t ∈ p.granted then
    (.taken, none, { p with granted := p.granted.erase t, queued := p.queued - 1 })
  else if t ∈ p.waiting then (.wait, none, p)
  else if 0 < p.free then (.taken, none, { p with free := p.free - 1, queued := p.queued - 1 })
  else (.wait, none, { p with waiting := p.waiting ++ [t] })

/-- Shuts the pool down. -/
def shutDown (p : Pool τ) : Pool τ := { p with isDown := true }

end Pool

end ConsensusLink
