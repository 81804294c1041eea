import ConsensusLink.Probe.Report
import ConsensusLink.Proofs.Client.Turns
import ConsensusLink.Proofs.Progress.Callers
import Mathlib.Algebra.Module.Submodule.Lattice
import Mathlib.Computability.Primrec.List
/-!
# Reports are ordered

The probe asks for the counts lowest first and waits for each before it asks for the next. While it
waits nobody else asks, so that the only query of the session is the one that it waits for, and this
was issued after all that was recorded. Hence no answer that it is given is below what was recorded
of a count that it dominates, among which is the answer that it was given before. What the node
answers does not matter, nor how old the counts are that are served without a query.
-/

namespace ConsensusLink

open Promise Client

variable {σ φ : Type}

namespace Client

variable {c c' : Client σ φ} {p : Id} {limit : Nat}

/-- An answer that was waited for is the outcome of the promise. -/
lemma outcome?_of_await {a : Answer} (h : (c.await p limit).1 = .ok a) :
    (c.await p limit).2.outcome? p = some (.ok a) := by
  change ((c.await p limit).2.outcome? p).getD (.error .timeout) = .ok a at h
  cases ho : (c.await p limit).2.outcome? p with
  | none =>
    rw [ho] at h
    cases h
  | some o =>
    rw [ho] at h
    exact congrArg some h

/-- A count that is told is the outcome of the promise that was handed out for it. -/
lemma askCount_ok {k : Counter} {v : MessageIndex} (h : c.askCount k limit = (.ok v, c')) :
    c'.outcome? (c.count k).1 = some (.ok (.count v)) ∧
      c' = ((c.count k).2.await (c.count k).1 limit).2 := by
  unfold askCount ask at h
  dsimp only at h
  split at h
  · cases h
  · rename_i a c₁ hawait
    split at h
    · rename_i w hread
      cases h
      have hanswer := outcome?_of_await (congrArg Prod.fst hawait)
      rw [hawait] at hanswer ⊢
      cases a <;> cases hread
      exact ⟨hanswer, rfl⟩
    · cases h

end Client

namespace Situation

variable {s s' : Situation σ φ} {x y k : Counter} {p q : Id} {v w : MessageIndex} {e : Event σ}

/-! ## One query at a time -/

/-- No query of this session is under way. -/
def Unqueried (s : Situation σ φ) : Prop := ∀ k, s.client.tracker.pending? k = none

/-- The one query of this session, if there is any, is for the count `y` and owes the promise `q`.
It was issued after all that was recorded. -/
structure Sole (s : Situation σ φ) (y : Counter) (q : Id) : Prop where
  alone : ∀ k p, s.client.tracker.pending? k = some p → k = y ∧ p = q
  newest : ∀ i t p, s.client.Owes i (.query y t) p → t.session = s.observations.session →
    ∀ d o, s.observations.latest.get d = some o → o.recorded < t.issued

namespace Regular

/-- Only orders start sessions. -/
lemma session_after (h : s.Regular) (he : e ≠ .order .newSession) :
    (s.after e).observations.session = s.observations.session := by
  cases h.owned.polls h.orderly.watched he with
  | quiet hq => exact hq.session
  | issues hi =>
    rw [hi.observations]
    rfl
  | records hr =>
    rw [hr.observations]
    rfl

/-- A query that is issued now is issued after all that was recorded. -/
lemma sole_count (h : s.Regular) (hnone : s.Unqueried) (y : Counter) :
    (s.after (.ask (.count y))).Sole y (s.client.count y).1 := by
  have hfree : ∀ {k p} {P : Prop}, s.client.tracker.pending? k = some p → P := fun hp =>
    nomatch (hnone _).symm.trans hp
  have hold : ∀ {i t p} {P : Prop}, s.client.Owes i (.query y t) p →
      t.session = s.observations.session → P := fun ho hs =>
    hfree (h.orderly.underWay _ y _ _ ho hs)
  have heff := count_effect s.client y
  rw [Situation.after, Client.take]
  generalize s.client.count y = pc at heff ⊢
  obtain ⟨q, c⟩ := pc
  dsimp only at heff ⊢
  cases heff with
  | serves => exact ⟨fun k p hp => hfree hp, fun i t p ho hs => hold ho hs⟩
  | joins hp => exact hfree hp
  | refuses _ _ _ hobs _ hunderWay =>
    have hsession := congrArg Observations.session hobs
    refine ⟨fun k p hp => hfree ((hunderWay k).symm.trans hp), fun i t p ho hs => ?_⟩
    exact hold ho (hs.trans hsession)
  | queries _ _ _ _ hobs _ hself hothers =>
    have hsession := congrArg Observations.session hobs
    refine ⟨fun k p hp => ?_, fun i t p ho hs d o hl => ?_⟩
    · by_cases hk : k = y
      · subst hk
        exact ⟨rfl, Option.some.inj (hp.symm.trans hself)⟩
      · exact hfree ((hothers k hk).symm.trans hp)
    · obtain ho | ⟨he, -⟩ := owes_append_job rfl ho
      · exact hold ho (hs.trans hsession)
      · cases he
        have hl : s.observations.latest.get d = some o := by
          rw [← hl]
          exact congrArg (fun s => s.latest.get d) hobs.symm
        exact Nat.lt_succ_of_le (h.orderly.coherent.recorded d o hl)

/-- As long as nobody asks. -/
lemma sole_after (h : s.Regular) (hsole : s.Sole y q) (he : Own e) : (s.after e).Sole y q := by
  have hne : e ≠ .order .newSession := by
    rintro rfl
    cases he
  cases h.owned.polls h.orderly.watched hne with
  | quiet hq =>
    refine ⟨fun k p hp => hsole.alone k p (hq.earlier k p hp), fun i t p ho hs d o hl => ?_⟩
    exact hsole.newest i t p (hq.queries i y t p ho) (hs.trans hq.session) d o (hq.latest ▸ hl)
  | issues => cases he
  | @records i k t p v hr howes =>
    refine ⟨fun k p hp => hsole.alone k p (hr.earlier k p hp), fun j t' p' ho hs => ?_⟩
    -- the query that ends now was the only one
    obtain ⟨ho, hji⟩ := hr.queries j y t' p' ho
    have hsame := congrArg Observations.session hr.observations
    obtain ⟨rfl, rfl⟩ := hsole.alone k p (h.orderly.underWay i k t p howes hr.passes.session)
    obtain ⟨-, rfl⟩ := hsole.alone _ p' (h.orderly.underWay j _ t' p' ho (hs.trans hsame))
    exact absurd (h.owned.jobs_once j i _ _ _ ho howes) hji

end Regular

/-! ## One count after the other -/

/-- Somebody waits for the count `y` at the promise `q`, and nobody else asks. What he is told is
recorded, and it is not below the bounds on the counts that `y` dominates. -/
structure Inquires (bound : Counter → MessageIndex → Prop) (s : Situation σ φ) (y : Counter)
    (q : Id) : Prop where
  regular : s.Regular
  sole : s.Sole y q
  floor : ∀ x ∈ y.dominated, ∀ v, bound x v → s.Floor x v
  told : s.Told y q fun w => s.Floor y w ∧ ∀ x ∈ y.dominated, ∀ v, bound x v → v ≤ w

variable {bound : Counter → MessageIndex → Prop}

lemma Regular.inquires (h : s.Regular) (hnone : s.Unqueried) (y : Counter) :
    Inquires s.Floor (s.after (.ask (.count y))) y (s.client.count y).1 := by
  have hsession := h.session_after (e := .ask (.count y)) (by simp)
  refine ⟨h.after _, h.sole_count hnone y, fun x _ v hv => h.floor_after hv hsession, ?_⟩
  refine (h.told_count y).mono fun w hserved => ⟨?_, fun x hx v hv => ?_⟩
  · exact h.floor_after ⟨w, Observations.value?_of_cached hserved, Nat.le_refl _⟩ hsession
  · exact h.le_of_served (.inr hx) hv hserved

namespace Inquires

lemma after (h : Inquires bound s y q) (he : Own e) : Inquires bound (s.after e) y q := by
  have hsession := h.regular.session_after (e := e) (by rintro rfl; cases he)
  refine ⟨h.regular.after e, h.regular.sole_after h.sole he,
    fun x hx v hv => h.regular.floor_after (h.floor x hx v hv) hsession, ?_⟩
  refine (h.regular.told_after h.told hsession).mono ?_
  rintro w (⟨hfloor, hle⟩ | ⟨i, t, howes, hpasses, hrecord⟩)
  · exact ⟨h.regular.floor_after hfloor hsession, hle⟩
  · refine ⟨⟨w, ?_, Nat.le_refl _⟩, fun x hx v hv => ?_⟩
    · rw [hrecord]
      exact Observations.value?_record_self
    · -- the query was issued after what was recorded of `x`, and its answer was compared with that
      obtain ⟨u, hu, hle⟩ := h.floor x hx v hv
      obtain ⟨o, ho, rfl⟩ := Observations.value?_eq_some.1 hu
      have hprec := h.sole.newest i t q howes hpasses.session x o ho
      exact Nat.le_trans hle (hpasses.bound x hx o ho hprec)

lemma works (h : Inquires bound s y q) (hw : Works s s') : Inquires bound s' y q := by
  induction hw with
  | refl => exact h
  | tail _ hstep ih =>
    obtain ⟨e, he, rfl⟩ := hstep
    exact ih.after he

/-- Once the promise has an outcome no query is left. -/
lemma unqueried (h : Inquires bound s y q) {o : Outcome Answer}
    (ho : s.client.outcome? q = some o) : s.Unqueried := by
  intro k
  by_contra hne
  obtain ⟨p, hp⟩ := Option.ne_none_iff_exists'.1 hne
  obtain ⟨-, rfl⟩ := h.sole.alone k p hp
  cases (h.regular.orderly.watched.outcome?_eq hp).symm.trans ho

end Inquires

/-! ## The probe -/

/-- Waiting for a promise is a run in which nobody asks. -/
lemma rests_await (hs : s.stance = .resting) (p : Id) (limit : Nat) :
    s.Rests (s.client.await p limit).2 := by
  unfold Client.await
  split
  · exact rests_refl hs
  · split
    · exact rests_refl hs
    · exact rests_passWithin hs _ _ _

/-- A count that the probe is told leaves no query behind. It is recorded, and it is not below what
was recorded of the counts that it dominates. -/
lemma Regular.askCount (h : s.Regular) (hs : s.stance = .resting) (hnone : s.Unqueried)
    {limit : Nat} {c : Client σ φ} (hask : s.client.askCount k limit = (.ok v, c)) :
    ∃ s' : Situation σ φ, s'.client = c ∧ s'.stance = .resting ∧ s'.Regular ∧ s'.Unqueried ∧
      s'.Floor k v ∧ ∀ x ∈ k.dominated, ∀ u, s.Floor x u → u ≤ v := by
  obtain ⟨ho, hc⟩ := askCount_ok hask
  obtain ⟨journal, hw⟩ :=
    rests_await (s := s.after (.ask (.count k))) hs (s.client.count k).1 limit
  have hend := (h.inquires hnone k).works hw
  rw [Situation.after, Client.take] at hend
  obtain ⟨hfloor, hle⟩ := hend.regular.of_outcome hend.told (hc ▸ ho)
  exact ⟨_, hc.symm, rfl, hend.regular, hend.unqueried (hc ▸ ho), hfloor, hle⟩

/-- **Reports are ordered.** Let no query of the current session be under way. Whatever the node
answers, however old the counts may be that are served without a query and however long the probe
waits: its status report fails, or the counts in it are ordered. -/
theorem status_report_ordered {config : ClientConfig} {remote : Remote σ φ} {node : σ}
    {moves : σ → σ → Prop} (hr : Runs moves (fresh config remote node) s)
    (hs : s.stance = .resting) (hnone : s.Unqueried) (limit : Nat) :
    (∃ failure, (s.client.report .status limit).1 = .error failure) ∨
      ∃ finalized safe target progress, (s.client.report .status limit).1 =
        .ok (.status finalized safe target progress) ∧ finalized ≤ safe ∧ safe ≤ target := by
  have h : s.Regular := ⟨owned_of_runs hr, orderly_of_runs hr⟩
  rw [report, reportStatus]
  rcases hfinalized : s.client.askCount .finalized limit with ⟨e | finalized, c⟩
  · exact .inl ⟨e, rfl⟩
  obtain ⟨s₁, rfl, hs₁, h₁, hnone₁, hfloor₁, -⟩ := h.askCount hs hnone hfinalized
  dsimp only
  rcases hsafe : s₁.client.askCount .safe limit with ⟨e | safe, c⟩
  · exact .inl ⟨e, rfl⟩
  obtain ⟨s₂, rfl, hs₂, h₂, hnone₂, hfloor₂, hle₂⟩ := h₁.askCount hs₁ hnone₁ hsafe
  dsimp only
  rcases htarget : s₂.client.askCount .syncTarget limit with ⟨e | target, c⟩
  · exact .inl ⟨e, rfl⟩
  obtain ⟨s₃, rfl, -, -, -, -, hle₃⟩ := h₂.askCount hs₂ hnone₂ htarget
  dsimp only
  have hlow : finalized ≤ safe := hle₂ .finalized (by decide) _ hfloor₁
  have hhigh : safe ≤ target := hle₃ .safe (by decide) _ hfloor₂
  -- what is left is to ask for the diagnostics
  generalize (Client.ask s₃.client (·.progressMap) _ limit).1 = diagnostics
  cases diagnostics with
  | error e => exact .inl ⟨e, rfl⟩
  | ok progress => exact .inr ⟨finalized, safe, target, progress, rfl, hlow, hhigh⟩

/-! ## A node that takes back what it said -/

/-- A node whose safe count is overtaken by its finalized count. -/
def fickle : ScriptedNode where
  scripts :=
    [(.count .finalized, [⟨0, .answer (.ok (.count (.ofNat 65)))⟩]),
      (.count .safe, [⟨0, .answer (.ok (.count (.ofNat 60)))⟩,
        ⟨3, .answer (.ok (.count (.ofNat 66)))⟩]),
      (.count .syncTarget, [⟨0, .answer (.ok (.count (.ofNat 70)))⟩])]

/-- The safe count was asked for before, and is fresh enough to be served. -/
def remembering : Situation ScriptedNode ScriptedNode.Phase :=
  (fresh {} ScriptedNode.remote fickle).afterAll [.ask (.count .safe), .job 0]

lemma report_remembering :
    (remembering.client.report .status 10).1 =
      .ok (.status (.ofNat 65) (.ofNat 66) (.ofNat 70) []) := by
  -- it looks up and compares with the equations of `List.lookup` and `≤` in both Mathlib modules
  cbv

lemma cached?_remembering :
    remembering.observations.cached? .safe remembering.client.now
      remembering.client.config.sync.countTtlMs.toNat = some (.ofNat 60) := by
  cbv

lemma unqueried_remembering : remembering.Unqueried := by
  intro k
  cases k <;> cbv

/-- The safe count could be served at first, but not once the finalized count has passed it: it is
asked for again, and the report is ordered. -/
theorem status_report_ordered_remembering :
    remembering.observations.cached? .safe remembering.client.now
        remembering.client.config.sync.countTtlMs.toNat = some (.ofNat 60) ∧
      (remembering.client.report .status 10).1 =
        .ok (.status (.ofNat 65) (.ofNat 66) (.ofNat 70) []) ∧
      MessageIndex.ofNat 65 ≤ .ofNat 66 ∧ MessageIndex.ofNat 66 ≤ .ofNat 70 := by
  have hruns : Runs (fun _ _ => False) (fresh {} ScriptedNode.remote fickle) remembering :=
    runs_afterAll rfl _
  have hordered := status_report_ordered hruns (by cbv) unqueried_remembering 10
  rw [report_remembering] at hordered
  obtain ⟨_, ⟨⟩⟩ | ⟨_, _, _, _, hreport, hlow, hhigh⟩ := hordered
  cases hreport
  exact ⟨cached?_remembering, report_remembering, hlow, hhigh⟩

end Situation

end ConsensusLink
