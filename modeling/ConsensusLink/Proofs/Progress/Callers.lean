import ConsensusLink.Proofs.Progress.Consistency
/-!
# Counts that are received one after the other

Somebody receives a count and then asks for the same count again, or for one that dominates it. The
answer may be served from what was observed, come from a query that was under way already, or from a
new query; in each case it is compared with what was recorded before its query was issued. Hence it
is not below the count that was received, unless something newer was recorded of that count since
the query was issued. A query that was under way before the count was received may be overtaken in
this way, and its answer is handed to those who join it nevertheless.
-/

namespace ConsensusLink.Situation

open Promise Client

variable {σ φ : Type} {s s' : Situation σ φ} {x y k : Counter} {p q : Id} {v w : MessageIndex}

/-! ## Runs as lists of events -/

/-- What every event keeps, whatever the node answers. -/
structure Regular (s : Situation σ φ) : Prop where
  owned : s.Owned
  orderly : s.Orderly

namespace Regular

lemma fresh (config : ClientConfig) (remote : Remote σ φ) (node : σ) :
    Regular (fresh config remote node) := ⟨owned_fresh _ _ _, .fresh _ _ _⟩

lemma after (h : s.Regular) (e : Event σ) : (s.after e).Regular :=
  ⟨h.owned.after e, h.orderly.after h.owned e⟩

lemma afterAll (h : s.Regular) (es : List (Event σ)) : (s.afterAll es).Regular := by
  induction es generalizing s with
  | nil => exact h
  | cons e es ih => exact ih (h.after e)

lemma session_le (h : s.Regular) (e : Event σ) :
    s.observations.session ≤ (s.after e).observations.session :=
  (h.orderly.evolves_after h.owned e).session_le

lemma session_le_afterAll (h : s.Regular) (es : List (Event σ)) :
    s.observations.session ≤ (s.afterAll es).observations.session := by
  induction es generalizing s with
  | nil => exact Nat.le_refl _
  | cons e es ih => exact Nat.le_trans (h.session_le e) (ih (h.after e))

/-- A session that lasts to the end of a run lasts through its first event. -/
lemma session_eq (h : s.Regular) {e : Event σ} {es : List (Event σ)}
    (hsession : (s.afterAll (e :: es)).observations.session = s.observations.session) :
    (s.after e).observations.session = s.observations.session := by
  have hrest := (h.after e).session_le_afterAll es
  exact Nat.le_antisymm (hsession ▸ hrest) (h.session_le e)

lemma tidy (h : s.Regular) {e : Event σ}
    (hsession : (s.after e).observations.session = s.observations.session) :
    s.Tidy (s.after e) e.turn? := by
  have he : e ≠ .order .newSession := by
    rintro rfl
    exact Nat.succ_ne_self _ hsession
  exact (h.owned.polls h.orderly.watched he).tidy

end Regular

/-! ## What a caller is told -/

/-- A query of this session owes the promise. -/
def Awaits (s : Situation σ φ) (k : Counter) (p : Id) : Prop :=
  ∃ i t, s.client.Owes i (.query k t) p ∧ t.session = s.observations.session

/-- A query of this session owes the promise, or it has an outcome; if this is a count, it has some
property. -/
def Told (s : Situation σ φ) (k : Counter) (p : Id) (P : MessageIndex → Prop) : Prop :=
  s.Awaits k p ∨ ∃ o, s.client.promises.outcome? p = some o ∧ ∀ v, o = .ok (.count v) → P v

lemma Told.mono {P Q : MessageIndex → Prop} (h : s.Told k p P) (hPQ : ∀ v, P v → Q v) :
    s.Told k p Q := by
  obtain h | ⟨o, ho, hv⟩ := h
  · exact .inl h
  · exact .inr ⟨o, ho, fun v he => hPQ v (hv v he)⟩

namespace Regular

/-- A promise with an outcome is owed by no query. -/
lemma of_outcome (h : s.Regular) {P : MessageIndex → Prop} (ht : s.Told k p P)
    (ho : s.client.outcome? p = some (.ok (.count v))) : P v := by
  obtain ⟨i, t, howes, -⟩ | ⟨o, ho', hv⟩ := ht
  · cases (h.owned.jobs_pending i _ p howes).outcome?_eq.symm.trans ho
  · exact hv v (Option.some.inj (ho'.symm.trans ho))

/-- Who asks for a count is told what is served now, or what a query of this session comes to. -/
lemma told_count (h : s.Regular) (k : Counter) :
    (s.after (.ask (.count k))).Told k (s.client.count k).1 fun v =>
      s.observations.cached? k s.client.now s.client.config.sync.countTtlMs.toNat = some v := by
  have heff := count_effect s.client k
  rw [Situation.after, Client.take]
  generalize s.client.count k = pc at heff ⊢
  obtain ⟨p, c⟩ := pc
  dsimp only at heff ⊢
  cases heff with
  | serves _ ho hvalue =>
    refine .inr ⟨_, ho, ?_⟩
    rintro v ⟨⟩
    exact hvalue
  | joins hp => exact .inl (h.orderly.pending k p hp)
  | refuses _ ho =>
    refine .inr ⟨_, ho, ?_⟩
    rintro v ⟨⟩
  | queries _ _ _ _ hobs =>
    have hsession := congrArg Observations.session hobs
    exact .inl ⟨_, _, ⟨.waiting, List.getElem?_concat_length⟩, hsession.symm⟩

/-- What is told later was told before, or a query of this session ends now. -/
lemma told_after (h : s.Regular) {P : MessageIndex → Prop} (ht : s.Told k p P) {e : Event σ}
    (hsession : (s.after e).observations.session = s.observations.session) :
    (s.after e).Told k p fun v => P v ∨ ∃ i t, s.client.Owes i (.query k t) p ∧
      s.observations.Passes k v t ∧
      (s.after e).observations = s.observations.record k v t s.client.now := by
  have htidy := h.tidy hsession
  obtain ⟨i, t, howes, hs⟩ | ⟨o, ho, hv⟩ := ht
  · obtain howes' | ⟨-, o, ho, hended⟩ := htidy.ends i k t p howes
    · exact .inl ⟨i, t, howes', hs.trans hsession.symm⟩
    · -- a count that ends a query of this session has passed
      refine .inr ⟨o, ho, fun v hv => .inr ⟨i, t, howes, ?_⟩⟩
      exact hended.records v hv hs
  · exact .inr ⟨o, htidy.outcomes p o ho, fun v he => .inl (hv v he)⟩

end Regular

/-! ## The count that is received first -/

/-- Something not below `v` is recorded of the count. -/
def Floor (s : Situation σ φ) (x : Counter) (v : MessageIndex) : Prop :=
  ∃ u, s.observations.value? x = some u ∧ v ≤ u

namespace Regular

lemma floor_after (h : s.Regular) (hf : s.Floor x v) {e : Event σ}
    (hsession : (s.after e).observations.session = s.observations.session) :
    (s.after e).Floor x v := by
  obtain ⟨u, hu, hle⟩ := hf
  obtain ⟨u', hu', hle'⟩ := (h.orderly.evolves_after h.owned e).value_le hsession hu
  exact ⟨u', hu', Nat.le_trans hle hle'⟩

/-- A count that a caller receives is recorded, or something above it. -/
lemma told_floor_afterAll (h : s.Regular) (ht : s.Told x p (s.Floor x)) (es : List (Event σ))
    (hsession : (s.afterAll es).observations.session = s.observations.session) :
    (s.afterAll es).Told x p ((s.afterAll es).Floor x) := by
  induction es generalizing s with
  | nil => exact ht
  | cons e es ih =>
    have hfirst := h.session_eq hsession
    refine ih (h.after e) ((h.told_after ht hfirst).mono ?_) (hsession.trans hfirst.symm)
    rintro v (hf | ⟨i, t, -, -, hrecord⟩)
    · exact h.floor_after hf hfirst
    · -- the query ends now, with `v`
      refine ⟨v, ?_, Nat.le_refl _⟩
      rw [hrecord]
      exact Observations.value?_record_self

lemma floor_of_received (h : s.Regular) (es : List (Event σ))
    (hsession : ((s.after (.ask (.count x))).afterAll es).observations.session =
      s.observations.session)
    (hv : ((s.after (.ask (.count x))).afterAll es).client.outcome? (s.client.count x).1 =
      some (.ok (.count v))) :
    ((s.after (.ask (.count x))).afterAll es).Floor x v := by
  have hfirst := h.session_eq (e := .ask (.count x)) hsession
  have hasked : (s.after (.ask (.count x))).Told x (s.client.count x).1
      ((s.after (.ask (.count x))).Floor x) := by
    refine (h.told_count x).mono fun v hserved => ?_
    exact h.floor_after ⟨v, Observations.value?_of_cached hserved, Nat.le_refl _⟩ hfirst
  have hafter := h.after (.ask (.count x))
  have htold := hafter.told_floor_afterAll hasked es (hsession.trans hfirst.symm)
  exact (hafter.afterAll es).of_outcome htold hv

end Regular

/-! ## The count that is asked for next -/

/-- The query that is to answer for `y` was overtaken: what was last recorded of `x` was not
recorded before the query was issued. -/
def Overtaken (s : Situation σ φ) (x y : Counter) (q : Id) : Prop :=
  ∃ i t o, s.client.Owes i (.query y t) q ∧ s.observations.latest.get x = some o ∧
    t.issued ≤ o.recorded

namespace Regular

variable (hxy : x = y ∨ x ∈ y.dominated)
include hxy

/-- What is served for `y` is not below what was recorded of `x`. -/
lemma le_of_served (h : s.Regular) (hf : s.Floor x v) {now ttl : Nat}
    (hw : s.observations.cached? y now ttl = some w) : v ≤ w := by
  obtain ⟨u, hu, hle⟩ := hf
  refine Nat.le_trans hle ?_
  obtain rfl | hdom := hxy
  · rw [Observations.value?_of_cached hw] at hu
    cases hu
    exact Nat.le_refl _
  · exact h.orderly.coherent.le_of_cached hw hdom hu

/-- What passes for `y` is not below what was recorded of `x`, unless the query was overtaken. -/
lemma le_of_passes (hf : s.Floor x v) {i : Nat} {t : Ticket}
    (howes : s.client.Owes i (.query y t) q) (hpasses : s.observations.Passes y w t) :
    v ≤ w ∨ x ∈ y.dominated ∧ s.Overtaken x y q := by
  obtain ⟨u, hu, hle⟩ := hf
  obtain ⟨o, ho, rfl⟩ := Observations.value?_eq_some.1 hu
  obtain rfl | hdom := hxy
  · exact .inl (Nat.le_trans hle (hpasses.own o ho))
  · by_cases hprec : o.recorded < t.issued
    · exact .inl (Nat.le_trans hle (hpasses.bound x hdom o ho hprec))
    · exact .inr ⟨hdom, i, t, o, howes, ho, Nat.le_of_not_lt hprec⟩

/-- The induction is on the events; `v` remains the floor of `x`, and the answer is not below it
unless the query is overtaken on the way. -/
lemma le_or_overtaken (h : s.Regular) (hf : s.Floor x v) (ht : s.Told y q (v ≤ ·))
    (es : List (Event σ))
    (hsession : (s.afterAll es).observations.session = s.observations.session)
    (hw : (s.afterAll es).client.outcome? q = some (.ok (.count w))) :
    v ≤ w ∨ x ∈ y.dominated ∧ ∃ es', es' <+: es ∧ (s.afterAll es').Overtaken x y q := by
  induction es generalizing s with
  | nil => exact .inl (h.of_outcome ht hw)
  | cons e es ih =>
    by_cases hover : x ∈ y.dominated ∧ s.Overtaken x y q
    · exact .inr ⟨hover.1, [], List.nil_prefix, hover.2⟩
    · -- a query that ends in this event without having been overtaken is not below the floor
      have hfirst := h.session_eq hsession
      have ht' : (s.after e).Told y q (v ≤ ·) := by
        refine (h.told_after ht hfirst).mono ?_
        rintro w (hle | ⟨i, t, howes, hpasses, -⟩)
        · exact hle
        · exact (le_of_passes hxy hf howes hpasses).resolve_right hover
      obtain hle | ⟨hdom, es', hes', hover'⟩ := ih (h.after e) (h.floor_after hf hfirst) ht'
        (hsession.trans hfirst.symm) hw
      · exact .inl hle
      · exact .inr ⟨hdom, e :: es', List.cons_prefix_cons.2 ⟨rfl, hes'⟩, hover'⟩

end Regular

/-- **Counts in the order in which they are received.** Whatever the node answers: if a caller has
received `v` for a count `x`, and in the same session asks for the same count or for one that
dominates it, and is given `w`, then `w` is not below `v`; unless the query that gives `w` was at
some moment since overtaken by something recorded of `x`, which a dominating count only can be. -/
theorem received_counts_ordered {config : ClientConfig} {remote : Remote σ φ} {node : σ}
    {es₀ es₁ es₂ : List (Event σ)} {s₀ s₁ s₂ : Situation σ φ}
    (h₀ : s₀ = (fresh config remote node).afterAll es₀)
    (h₁ : s₁ = (s₀.after (.ask (.count x))).afterAll es₁)
    (h₂ : s₂ = (s₁.after (.ask (.count y))).afterAll es₂)
    (hsession : s₂.observations.session = s₀.observations.session)
    (hxy : x = y ∨ x ∈ y.dominated)
    (hv : s₁.client.outcome? (s₀.client.count x).1 = some (.ok (.count v)))
    (hw : s₂.client.outcome? (s₁.client.count y).1 = some (.ok (.count w))) :
    v ≤ w ∨ x ∈ y.dominated ∧ ∃ es, es <+: es₂ ∧
      ((s₁.after (.ask (.count y))).afterAll es).Overtaken x y (s₁.client.count y).1 := by
  subst h₀ h₁ h₂
  set s₀ := (fresh config remote node).afterAll es₀
  have hs₀ : s₀.Regular := (Regular.fresh config remote node).afterAll es₀
  set s₁ := (s₀.after (.ask (.count x))).afterAll es₁
  have hs₁ : s₁.Regular := (hs₀.after _).afterAll es₁
  -- the session lasts from the first question to the last answer
  have hle₁ : s₀.observations.session ≤ s₁.observations.session :=
    hs₀.session_le_afterAll (.ask (.count x) :: es₁)
  have hle₂ := hs₁.session_le_afterAll (.ask (.count y) :: es₂)
  have hsession₁ : s₁.observations.session = s₀.observations.session :=
    Nat.le_antisymm (hsession ▸ hle₂) hle₁
  have hsession₂ := hsession.trans hsession₁.symm
  have hfirst := hs₁.session_eq (e := .ask (.count y)) hsession₂
  have hfloor : s₁.Floor x v := hs₀.floor_of_received es₁ hsession₁ hv
  have hasked : (s₁.after (.ask (.count y))).Told y (s₁.client.count y).1 (v ≤ ·) :=
    (hs₁.told_count y).mono fun w hserved => hs₁.le_of_served hxy hfloor hserved
  exact (hs₁.after _).le_or_overtaken hxy (hs₁.floor_after hfloor hfirst) hasked es₂
    (hsession₂.trans hfirst.symm) hw

/-! ## Joining a query that is overtaken -/

/-- The safe count is asked for, and its answer is taken; then the counts of the node grow. -/
def sampled : Situation MessageCounts MessageIndex :=
  (fresh {} Watch.tardy (Watch.growing 0)).afterAll
    [.ask (.count .safe), .job 0, .node (Watch.growing 1)]

/-- The finalized count is asked for and received. -/
def received : Situation MessageCounts MessageIndex :=
  (sampled.after (.ask (.count .finalized))).afterAll [.job 1, .clock { now := 1 }, .job 1]

/-- The safe count is asked for again. The query that was under way ends. -/
def joined : Situation MessageCounts MessageIndex :=
  (received.after (.ask (.count .safe))).afterAll [.job 0]

lemma outcome?_received :
    received.client.outcome? (sampled.client.count .finalized).1 =
      some (.ok (.count (.ofNat 8))) := by
  cbv

lemma outcome?_joined :
    joined.client.outcome? (received.client.count .safe).1 = some (.ok (.count (.ofNat 7))) := by
  cbv

lemma session_joined : joined.observations.session = sampled.observations.session := by
  cbv

/-- Whoever has received the finalized count and asks for the safe count then, is given less. The
query was overtaken. -/
theorem received_counts_ordered_joined :
    (received.client.outcome? (sampled.client.count .finalized).1 =
        some (.ok (.count (.ofNat 8))) ∧
      joined.client.outcome? (received.client.count .safe).1 =
        some (.ok (.count (.ofNat 7)))) ∧
    ∃ es, es <+: [Event.job 0] ∧
      ((received.after (.ask (.count .safe))).afterAll es).Overtaken .finalized .safe
        (received.client.count .safe).1 := by
  have hordered := received_counts_ordered rfl rfl rfl session_joined
    (.inr (by decide)) outcome?_received outcome?_joined
  have hless : ¬MessageIndex.ofNat 8 ≤ .ofNat 7 := by decide
  exact ⟨⟨outcome?_received, outcome?_joined⟩, (hordered.resolve_left hless).2⟩

/-- A dominating count that is asked for later may be below what was received, even if the node is
honest. -/
theorem not_received_counts_ordered :
    ¬∀ (es₀ es₁ es₂ : List (Event MessageCounts)) (s₀ s₁ s₂ : Situation MessageCounts MessageIndex)
      (x y : Counter) (v w : MessageIndex),
      s₀ = (fresh {} Watch.tardy (Watch.growing 0)).afterAll es₀ →
      s₁ = (s₀.after (.ask (.count x))).afterAll es₁ →
      s₂ = (s₁.after (.ask (.count y))).afterAll es₂ →
      s₂.observations.session = s₀.observations.session → x = y ∨ x ∈ y.dominated →
      s₁.client.outcome? (s₀.client.count x).1 = some (.ok (.count v)) →
      s₂.client.outcome? (s₁.client.count y).1 = some (.ok (.count w)) → v ≤ w := by
  intro h
  have hle := h _ _ _ sampled received joined .finalized .safe (.ofNat 8) (.ofNat 7) rfl rfl rfl
    session_joined (.inr (by decide)) outcome?_received outcome?_joined
  exact absurd hle (by decide)

end ConsensusLink.Situation
