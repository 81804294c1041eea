import ConsensusLink.Proofs.Client.Settlements
/-!
# A node whose calls are noted

What reaches a node is not to be read off its answers. Hence a list stands beside the node, in which
every call is noted when it begins; the node itself goes on as it did before. Jobs only read, and of
the coordinator it is known what it can be at, so that the list tells exactly which writes and
probes have reached the node, whatever node this is and however it changes by itself.
-/

namespace ConsensusLink

open Promise Relation Client

/-- A node, with the calls that were begun at it. -/
structure Monitored (σ : Type) where
  /-- The node. -/
  node : σ
  /-- The calls that were begun, latest first. -/
  calls : List Call := []

variable {σ φ : Type}

/-- How calls go at a node whose calls are noted: they go as at the node. -/
def Remote.monitored (remote : Remote σ φ) : Remote (Monitored σ) φ where
  begin call now n :=
    let (progress, node) := remote.begin call now n.node
    (progress, ⟨node, call :: n.calls⟩)
  resume call phase now n :=
    let (progress, node) := remote.resume call phase now n.node
    (progress, { n with node })

namespace Monitored

/-- How the node may change by itself: in any way, but nobody else calls it. -/
def Uncalled (n n' : Monitored σ) : Prop := n'.calls = n.calls

/-- The calls of which the log and the lease know, latest first. -/
def commands (n : Monitored σ) : List Call := n.calls.filter fun call => !call.isRead

variable {remote : Remote σ φ} {call : Call} {now : Nat} {start : Option φ}
  {progress : CallProgress φ} {n n' : Monitored σ}

/-- Only calls that begin are noted. -/
lemma calls_goes (h : remote.monitored.Goes call now start n progress n') :
    n'.calls = if start.isNone then call :: n.calls else n.calls := by
  cases h with
  | begun h =>
    obtain ⟨-, rfl⟩ := Prod.mk.inj h
    rfl
  | resumed h =>
    obtain ⟨-, rfl⟩ := Prod.mk.inj h
    rfl

lemma commands_eq (h : n'.calls = n.calls) : n'.commands = n.commands := by
  rw [commands, h, commands]

lemma commands_cons (h : n'.calls = call :: n.calls) (hcall : call.isRead = false) :
    n'.commands = call :: n.commands := by
  rw [commands, h, List.filter_cons_of_pos (by rw [hcall]; rfl), commands]

/-- Reading is no command. -/
lemma commands_browses (h : remote.monitored.Browses n n') : n'.commands = n.commands := by
  induction h with
  | refl => rfl
  | tail _ hgo ih =>
    obtain ⟨call, _, start, _, hread, hgo⟩ := hgo
    rw [← ih, commands, calls_goes hgo]
    split
    · rw [List.filter_cons_of_neg (by rw [hread]; simp), commands]
    · rfl

end Monitored

/-- The request for which a call was begun in an attempt, if one was. -/
def Entry.begun : Entry (Monitored σ) → List (SequencerRequest × Id)
  | .attempted r p before after _ =>
    if after.calls.length ≤ before.calls.length then [] else [(r, p)]
  | .concluded .. => []

/-- Every request calls for a command. -/
lemma SequencerRequest.isRead_call (r : SequencerRequest) : r.call.isRead = false := by
  cases r <;> rfl

/-- An attempt notes its call if it begins it, and nothing else. -/
lemma Client.AttemptEffect.calls {c : Client (Monitored σ) φ} {remote : Remote σ φ}
    {r : SequencerRequest} {p : Id} {a : Attempts} {start : Option φ}
    {progress : AttemptProgress (Monitored σ) φ} (h : AttemptEffect c r p a start progress)
    (hremote : c.remote = remote.monitored) :
    progress.client.node.calls = c.node.calls ∨
      progress.client.node.calls = r.call :: c.node.calls := by
  have hgoes : ∀ {progress node}, c.remote.Goes r.call c.now start c.node progress node →
      node.calls = c.node.calls ∨ node.calls = r.call :: c.node.calls := by
    intro progress node hgo
    rw [hremote] at hgo
    rw [Monitored.calls_goes hgo]
    split
    · exact .inr rfl
    · exact .inl rfl
  cases h with
  | stays => exact .inl rfl
  | fails => exact .inl rfl
  | waits _ hgo => exact hgoes hgo
  | returns _ hgo => exact hgoes hgo

namespace Situation

/-! ## The calls of the coordinator -/

/-- The requests for which calls were begun, latest first. -/
def begun (s : Situation (Monitored σ) φ) : List (SequencerRequest × Id) :=
  s.journal.flatMap Entry.begun

lemma begun_congr {s s' : Situation (Monitored σ) φ} (h : s'.journal = s.journal) :
    s'.begun = s.begun := by
  rw [begun, h, begun]

variable {remote : Remote σ φ} {s s' : Situation (Monitored σ) φ}

/-- At an attempt the call of the request is begun, or no call is. -/
lemma begun_attempt {r : SequencerRequest} {p : Id} {a : Attempts} {start : Option φ}
    {progress : AttemptProgress (Monitored σ) φ} (hremote : s.client.remote = remote.monitored)
    (heff : AttemptEffect s.client r p a start progress) :
    ((s.attempt r p progress).begun = s.begun ∧
        progress.client.node.commands = s.client.node.commands) ∨
      (s.attempt r p progress).begun = (r, p) :: s.begun ∧
        progress.client.node.commands = r.call :: s.client.node.commands := by
  have hbegun : (s.attempt r p progress).begun =
      (if progress.client.node.calls.length ≤ s.client.node.calls.length then [] else [(r, p)]) ++
        s.begun := by
    cases progress <;> rfl
  obtain hc | hc := heff.calls hremote
  · refine .inl ⟨?_, Monitored.commands_eq hc⟩
    rw [hbegun, hc, if_pos (Nat.le_refl _), List.nil_append]
  · refine .inr ⟨?_, Monitored.commands_cons hc r.isRead_call⟩
    rw [hbegun, hc, if_neg (by rw [List.length_cons]; exact Nat.not_succ_le_self _),
      List.singleton_append]

/-- In a step of the coordinator a call can begin only for the first request that it owes, and still
owes then. -/
theorem Advances.begun (h : Advances s s') (hremote : s.client.remote = remote.monitored) :
    (s'.begun = s.begun ∧ s'.client.node.commands = s.client.node.commands) ∨
      ∃ a, a ∈ s.duties.head? ∧ a ∈ s'.duties.head? ∧ s'.begun = a :: s.begun ∧
        s'.client.node.commands = a.1.call :: s.client.node.commands := by
  cases h with
  | attempts htake heff =>
    rename_i r p a start coordinator progress
    obtain ⟨hsame, -⟩ := htake.ends heff
    have hhead : (r, p) ∈ s.duties.head? := by
      rw [htake.duties_eq]
      rfl
    rw [client_attempt]
    obtain hc | ⟨hbegun, hcommands⟩ := begun_attempt
      (s := { s with client := { s.client with coordinator } }) hremote heff
    · exact .inl hc
    · refine .inr ⟨(r, p), hhead, ?_, hbegun, hcommands⟩
      rw [List.nil_append] at hsame
      rwa [hsame] at hhead
  | _ => exact .inl ⟨rfl, rfl⟩

end Situation

end ConsensusLink
