import ConsensusLink.Proofs.Client.Keeping
/-!
# The record of settlements

A client records each promise at the moment at which it is settled. The record is complete and
without repetition: along every run it names exactly the promises that have an outcome, once each.
Since outcomes stay, a promise is settled once.
-/

namespace ConsensusLink

open Promise Relation Client

variable {σ φ : Type}

namespace Client

variable {c c' : Client σ φ} {p : Id}

/-- The record names the promises that are settled, once each. -/
structure Tallied (c : Client σ φ) : Prop where
  once : c.settled.Nodup
  mem_iff : ∀ q, q ∈ c.settled ↔ (c.promises.outcome? q).isSome = true

lemma Tallied.of_same (h : c.Tallied) (hs : c'.settlements = c.settlements)
    (ho : ∀ q, c'.promises.outcome? q = c.promises.outcome? q) : c'.Tallied := by
  have hsettled := settled_congr hs
  exact ⟨hsettled ▸ h.once, fun q => by rw [hsettled, ho, h.mem_iff]⟩

/-- One more promise is settled, and put on record. -/
lemma Tallied.of_one (h : c.Tallied) (hs : c'.settled = c.settled ++ [p])
    (hbefore : c.promises.outcome? p = none) (hafter : (c'.promises.outcome? p).isSome = true)
    (ho : ∀ q, q ≠ p → c'.promises.outcome? q = c.promises.outcome? q) : c'.Tallied := by
  have hnew : p ∉ c.settled := by rw [h.mem_iff, hbefore]; simp
  refine ⟨?_, fun q => ?_⟩
  · rw [hs, List.nodup_append]
    refine ⟨h.once, List.pairwise_singleton _ p, fun q hq q' hq' => ?_⟩
    rw [List.mem_singleton.1 hq']
    rintro rfl
    exact hnew hq
  · rw [hs, List.mem_append, List.mem_singleton, h.mem_iff]
    by_cases hq : q = p
    · simp [hq, hafter]
    · simp [hq, ho q hq]

lemma Tallied.settle (h : c.Tallied) (p : Id) (o : Outcome Answer) : (c.settle p o).Tallied := by
  by_cases hp : c.promises.Pending p
  · obtain ⟨_, _, _, _, _, hc, hset⟩ := settle_eq hp o
    refine h.of_one (settled_settle hp o) hp.outcome?_eq (by rw [outcome?_settle hp]; rfl) ?_
    intro q hq
    rw [hc]
    exact hset.toSettles.outcome?_of_notMem (by rwa [List.mem_singleton])
  · rwa [settle_of_not_pending hp]

lemma outcome?_of_not_known {s : Store Answer Failure Follow} (h : ¬s.Known p) :
    s.outcome? p = none := by
  by_contra hne
  obtain ⟨o, ho⟩ := Option.ne_none_iff_exists'.1 hne
  exact h (Store.known_of_outcome ho)

/-- Whatever was known keeps its outcome when a promise is handed out, and what was not has none. -/
lemma outcome?_of_handsOut {s s' : Store Answer Failure Follow} (h : s.HandsOut s' p) {q : Id}
    (hq : q ≠ p) : s'.outcome? q = s.outcome? q := by
  by_cases hknown : s.Known q
  · exact h.outcome?_eq hknown
  · have hnot : ¬s'.Known q := fun hk => ((h.known q).1 hk).elim hknown hq
    rw [outcome?_of_not_known hknown, outcome?_of_not_known hnot]

lemma Tallied.newSettled (h : c.Tallied) (o : Outcome Answer) : (c.newSettled o).2.Tallied :=
  h.of_one (p := c.promises.new.1) (settled_of_cons rfl)
    (outcome?_of_not_known (Store.not_known_add _))
    (Option.isSome_iff_exists.2 ⟨o, Store.outcome?_newSettled o⟩)
    fun _ hq => outcome?_of_handsOut (Store.handsOut_add _) hq

/-- A promise that is handed out pending is not on record. -/
lemma Tallied.of_new (h : c.Tallied) (hs : c'.settlements = c.settlements)
    (hp : c'.promises = c.promises.new.2) : c'.Tallied := by
  refine h.of_same hs fun q => ?_
  rw [hp]
  by_cases hq : q = c.promises.new.1
  · have hfresh : ¬c.promises.Known c.promises.new.1 := Store.not_known_add _
    rw [hq, Store.pending_new.outcome?_eq, outcome?_of_not_known hfresh]
  · exact outcome?_of_handsOut (Store.handsOut_add _) hq

/-- Each operation on promises keeps the record. -/
lemma lasting_tallied : Lasting (@Tallied σ φ) where
  alike h ha := h.of_same ha.settlements fun _ => by rw [ha.promises]
  new h := h.of_new rfl rfl
  newSettled o h := h.newSettled o
  settle p o h := h.settle p o
  watch := by
    intro c c' f h hp hs _ _
    obtain ⟨_, _, _, _, hf, -⟩ := onSettled_eq c' f.promise f
    rw [hf]
    refine h.of_same hs fun q => ?_
    rw [← hp]
    exact Store.outcome?_register ..

lemma tallied_ofConfig (config : ClientConfig) (remote : Remote σ φ) (node : σ) :
    Tallied (ofConfig config remote node) :=
  ⟨List.nodup_nil, fun q => by simp [ofConfig, settled, Store.empty, Store.outcome?, Store.cell?]⟩

end Client

/-- **Settled once.** Along every run the record names the settled promises, once each. -/
theorem Situation.tallied_of_runs {config : ClientConfig} {remote : Remote σ φ} {node : σ}
    {moves : σ → σ → Prop} {s : Situation σ φ} (hr : Runs moves (fresh config remote node) s) :
    s.client.Tallied :=
  lasting_tallied.of_runs (tallied_ofConfig config remote node) hr

end ConsensusLink
