import ConsensusLink.Proofs.Client.Keeping
/-!
# What is expected is watched

Whatever request a cache or the counts have noted to be under way, the end of its promise is watched
for them, so that the promise is pending. Hence nobody is ever handed a noted promise that is
settled already.
-/

namespace ConsensusLink

open Promise Client

variable {σ φ : Type}

namespace Promise.Store

variable {α ε κ : Type} {s s' : Store α ε κ} {p q : Id} {k : κ}

lemma HandsOut.mem_continuations_of_mem (h : s.HandsOut s' p) (hk : k ∈ s.continuations q) :
    k ∈ s'.continuations q := by
  rw [continuations, h.cells q (known_of_mem_continuations hk)]
  exact hk

lemma mem_continuations_register (k' : κ) (hk : k ∈ s.continuations q) :
    k ∈ (s.register p k').2.continuations q := by
  by_cases hq : q = p
  · subst hq
    unfold continuations at hk
    split at hk
    · rename_i ks hc
      rw [continuations_register hc]
      exact List.mem_append_left _ hk
    · cases hk
  · rw [continuations, cell?_register_of_ne hq]
    exact hk

end Promise.Store

namespace Client

variable {c c' : Client σ φ} {f : Follow}

/-- What is expected, is watched at its promise. -/
def Attentive (c : Client σ φ) : Prop :=
  ∀ f, c.Expects f → f ∈ c.promises.continuations f.promise

lemma Attentive.settle (h : c.Attentive) (p : Id) (o : Outcome Answer) :
    (c.settle p o).Attentive := by
  by_cases hp : c.promises.Pending p
  · intro g hg
    obtain ⟨ks, promises, hk, hs⟩ := hp.exists_settle? o
    have hexpects : c.Expects g ∧ g ∉ ks := by
      rw [Client.settle, hs] at hg
      obtain ⟨hg, hmem⟩ := (expects_followAll ..).1 hg
      exact ⟨expects_of_eq rfl rfl rfl rfl g hg, hmem⟩
    have hmem := h g hexpects.1
    -- what was watched at the promise is expected no longer
    have hne : g.promise ∉ [p] := by
      rw [List.mem_singleton]
      intro hgp
      rw [hgp, Store.continuations, hk] at hmem
      exact hexpects.2 hmem
    obtain ⟨_, _, _, _, _, hc, hset⟩ := settle_eq hp o
    rw [hc]
    exact (hset.mem_continuations _ g).2 ⟨hne, hmem⟩
  · rwa [settle_of_not_pending hp]

lemma Attentive.watch (h : c.Attentive) (hp : c'.promises = c.promises)
    (he : ∀ g, c'.Expects g → g = f ∨ c.Expects g) (hknown : c.promises.Known f.promise) :
    (c'.onSettled f.promise f).Attentive := by
  intro g hg
  cases ho : c'.promises.outcome? f.promise with
  | some o =>
    -- the promise is settled, and is expected no longer
    rw [onSettled_of_outcome ho] at hg ⊢
    obtain ⟨hg, hne⟩ := (expects_follow ..).1 hg
    have hmem := h g ((he g hg).resolve_left hne)
    obtain ⟨_, _, _, _, hf, -⟩ := follow_eq c' o f
    rw [hf]
    exact hp.symm ▸ hmem
  | none =>
    have hpending : c'.promises.Pending f.promise := Store.pending_of_known (hp.symm ▸ hknown) ho
    rw [onSettled_of_pending hpending] at hg ⊢
    obtain rfl | hexpects := he g (expects_of_eq rfl rfl rfl rfl g hg)
    · obtain ⟨ks, hk⟩ := hpending
      rw [Store.continuations_register hk]
      exact List.mem_append_right _ (List.mem_singleton_self _)
    · exact Store.mem_continuations_register _ (hp.symm ▸ h g hexpects)

/-- Each operation on promises keeps what is expected watched. -/
lemma lasting_attentive : Lasting (@Attentive σ φ) where
  alike h ha f hf := ha.promises.symm ▸ h f (ha.expects f hf)
  new h f hf :=
    (Store.handsOut_add _).mem_continuations_of_mem (h f (expects_of_eq rfl rfl rfl rfl f hf))
  newSettled _ h f hf :=
    (Store.handsOut_add _).mem_continuations_of_mem (h f (expects_of_eq rfl rfl rfl rfl f hf))
  settle p o h := h.settle p o
  watch _ h hp _ he hknown := h.watch hp he hknown

lemma attentive_ofConfig (config : ClientConfig) (remote : Remote σ φ) (node : σ) :
    Attentive (ofConfig config remote node) := by
  rintro (⟨_ | _ | _, q⟩ | ⟨_ | _ | _, q⟩) ⟨⟩

/-- What is expected is pending. -/
lemma Attentive.pending (h : c.Attentive) (hf : c.Expects f) :
    c.promises.Pending f.promise := by
  have hmem := h f hf
  unfold Store.continuations at hmem
  split at hmem
  · exact ⟨_, ‹_›⟩
  · cases hmem

end Client

/-- **What is expected is pending.** Along every run the requests that the caches and the counts
have noted are not settled. -/
theorem Situation.pending_of_expects {config : ClientConfig} {remote : Remote σ φ} {node : σ}
    {moves : σ → σ → Prop} {s : Situation σ φ} (hr : Runs moves (fresh config remote node) s)
    {f : Follow} (hf : s.client.Expects f) : s.client.promises.Pending f.promise :=
  (lasting_attentive.of_runs (attentive_ofConfig config remote node) hr).pending hf

end ConsensusLink
