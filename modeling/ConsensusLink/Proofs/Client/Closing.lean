import ConsensusLink.Proofs.Client.Settlements
/-!
# Closing down

Once the pool is down the coordinator does not call the node any more: an attempt that is to begin
is refused, and one that waits is given up. All that it owes is rejected. Only an attempt that has
ended already, and is just being judged, may still give its request another outcome. After three
steps at most the coordinator has stopped.
-/

namespace ConsensusLink

open Promise Relation Client

variable {σ φ : Type}

namespace Client

/-- No attempt begins when the pool is down. -/
lemma beginAttempt_of_isDown {c : Client σ φ} (hd : c.pool.isDown = true) (r : SequencerRequest)
    (p : Id) (a : Attempts) : c.beginAttempt r p a = .result a (.error .shutDown) c := by
  have henter : c.pool.enter = .error .shutDown := by rw [Pool.enter, if_pos hd]
  rw [beginAttempt, henter]

/-- That the pool is down is no reason to try again. -/
lemma judge_shutDown (c : Client σ φ) (s : Retry.State) :
    c.writePolicy.judge s (.error .shutDown : Outcome Unit) = .finish (.error .shutDown) := rfl

lemma coordinatorStage_settle (c : Client σ φ) (p : Id) (o : Outcome Answer) :
    (c.settle p o).coordinatorStage = c.coordinatorStage := by
  have hfollow : ∀ (c : Client σ φ) f, (c.follow o f).coordinatorStage = c.coordinatorStage := by
    rintro c (⟨_ | _ | _, _⟩ | _) <;> rfl
  unfold settle
  split
  · rfl
  · rename_i follows promises _
    exact List.foldlRecOn follows _ (motive := fun c' => c'.coordinatorStage = c.coordinatorStage)
      (b := { c with promises, settlements := (p, c.now) :: c.settlements }) rfl
      fun c' hc' f _ => (hfollow c' f).trans hc'

lemma coordinatorStage_stopCoordinator (c : Client σ φ) :
    c.stopCoordinator.coordinatorStage = .stopped := by
  unfold stopCoordinator
  refine List.foldlRecOn _ _ (motive := fun c' : Client σ φ => c'.coordinatorStage = .stopped)
    rfl ?_
  rintro c' hc' ⟨r, p⟩ -
  exact (coordinatorStage_settle c' p _).trans hc'

end Client

/-- A request that is refused at its attempt, or given up, is rejected. -/
lemma Attempts.conclude_shutDown (a : Attempts) (r : SequencerRequest) :
    a.conclude r (.error .shutDown) = .error .shutDown := by
  cases r <;> rfl

namespace Situation

variable {s s' s'' : Situation σ φ} {moves : σ → σ → Prop} {r : SequencerRequest} {p : Id}
  {a : Attempts} {o : Outcome Unit}

/-- An attempt that is to be repeated is refused. -/
lemma advance_again_of_isDown {next : Retry.State} (hd : s.client.pool.isDown = true)
    (hs : s.stance = .judging r p a o)
    (hj : s.client.writePolicy.judge a.retry o = .again 0 next) :
    s.advance.client = s.client ∧
      s.advance.stance = .judging r p { a with retry := next } (.error .shutDown) := by
  rw [advance_again hs hj, beginAttempt_of_isDown hd]
  exact ⟨rfl, rfl⟩

/-- When the pool is down the coordinator does not call the node. -/
lemma Owned.node_advance_of_isDown (h : s.Owned) (hd : s.client.pool.isDown = true) :
    s.advance.client.node = s.client.node := by
  have hadv := h.advances
  generalize hs' : s.advance = s' at hadv
  cases hadv with
  | attempts htake heff =>
    cases htake with
    | resumes _ _ hup => cases hup.symm.trans hd
    | begins _ hup => cases hup.symm.trans hd
    | repeats hs hj => rw [← hs', (advance_again_of_isDown hd hs hj).1]
  | _ => rfl

/-- An attempt that is judged after a step with the pool down was refused. -/
lemma Owned.judging_advance_of_isDown (h : s.Owned) (hd : s.client.pool.isDown = true)
    (hs' : s.advance.stance = .judging r p a o) : o = .error .shutDown := by
  have hadv := h.advances
  generalize hadvance : s.advance = s' at hadv hs'
  cases hadv with
  | idles hat hc hat' =>
    dsimp only at hs'
    subst hs'
    cases hat'
  | stops => cases hs'
  | attempts htake heff =>
    cases htake with
    | resumes _ _ hup => cases hup.symm.trans hd
    | begins _ hup => cases hup.symm.trans hd
    | repeats hs hj =>
      rw [← hadvance, (advance_again_of_isDown hd hs hj).2] at hs'
      cases hs'
      rfl
  | concludes => cases hs'
  | pauses => cases hs'
  | answers => cases hs'

/-! ## What becomes of what is owed -/

/-- What can have become of a request since a situation in which it was owed and the pool was down:
it is still owed, and if an attempt of it is judged that was not judged then, it was refused; or it
was rejected; or it has ended with the result of the attempt that was judged then. -/
inductive Dismissed (s s' : Situation σ φ) (d : SequencerRequest × Id) : Prop
  | waits (h : d ∈ s'.duties)
      (hj : ∀ a o, s'.stance = .judging d.1 d.2 a o → s.stance = s'.stance ∨ o = .error .shutDown)
  | rejected (ho : s'.client.promises.outcome? d.2 = some (.error .shutDown))
  | concluded {a : Attempts} {o : Outcome Unit} (hs : s.stance = .judging d.1 d.2 a o)
      (ho : s'.client.promises.outcome? d.2 = some ((a.conclude d.1 o).map fun _ => .done))

variable {d : SequencerRequest × Id}

/-- Nothing else can become of it. -/
lemma Dismissed.after (h : s.Dismissed s' d) (howned : s'.Owned)
    (hd : s'.client.pool.isDown = true) (e : Event σ) : s.Dismissed (s'.after e) d := by
  have hpersists := howned.persists_after e
  cases h with
  | rejected ho => exact .rejected (hpersists.outcome _ _ ho)
  | concluded hs ho => exact .concluded hs (hpersists.outcome _ _ ho)
  | waits hmem hj =>
    by_cases he : e = .advance
    · subst he
      cases howned.advances.fate hmem with
      | stays hmem' =>
        exact .waits hmem' fun a o hs => .inr (howned.judging_advance_of_isDown hd hs)
      | rejected _ ho => exact .rejected ho
      | answered hup => cases hup.symm.trans hd
      | @concluded a o hs ho =>
        obtain hsame | rfl := hj a o hs
        · exact .concluded (hsame.trans hs) ho
        · rw [Attempts.conclude_shutDown] at ho
          exact .rejected ho
    · -- beside the coordinator nothing changes but what it owes besides
      have ha := howned.aside_of_ne he
      exact .waits (ha.duties_prefix.subset hmem) (ha.stance ▸ hj)

/-- **Everything is rejected.** When the pool is down, what is owed waits on or is rejected, unless
it is the request whose attempt had ended already. -/
theorem Owned.dismissed_of_runs (h : s.Owned) (hd : s.client.pool.isDown = true)
    (hr : Runs moves s s') (hmem : d ∈ s.duties) : s.Dismissed s' d := by
  induction hr with
  | refl => exact .waits hmem fun _ _ _ => .inl rfl
  | tail hr hstep ih =>
    obtain ⟨e, -, rfl⟩ := hstep
    exact ih.after (h.of_runs hr) (h.isDown_of_runs hr hd) e

/-! ## The last steps -/

/-- The coordinator stops when it is about to take up a request, or is at one between two turns. -/
lemma stops_advance (hd : s.client.pool.isDown = true)
    (hs : s.stance = .taking ∨
      s.stance = .resting ∧ ∃ r p a stage, s.client.coordinatorStage = .busy r p a stage) :
    s.advance.client.coordinatorStage = .stopped := by
  rw [Situation.advance]
  obtain hs | ⟨hs, r, p, a, stage, hc⟩ := hs
  · simp only [hs, hd, if_true]
    exact coordinatorStage_stopCoordinator _
  · simp only [hs, hc, hd, if_true]
    exact coordinatorStage_stopCoordinator _

/-- Steps of the coordinator, without anything in between. -/
def ahead (s : Situation σ φ) (n : Nat) : Situation σ φ := s.afterAll (List.replicate n .advance)

/-- After an attempt that is not made again two steps are left. -/
lemma Owned.stops_of_finish (h : s.Owned) (hd : s.client.pool.isDown = true) {o' : Outcome Unit}
    (hs : s.stance = .judging r p a o)
    (hj : s.client.writePolicy.judge a.retry o = .finish o') :
    (s.ahead 2).client.coordinatorStage = .stopped := by
  have htaking : s.advance.stance = .taking := by
    rw [advance_finish hs hj]
    rfl
  exact stops_advance (h.advances.isDown.trans hd) (.inl htaking)

/-- Three steps are enough for a coordinator that was started: one that judges an attempt, one that
judges its repetition, and one that stops. -/
theorem Owned.stops (h : s.Owned) (hd : s.client.pool.isDown = true)
    (hc : s.stance = .resting → s.client.coordinatorStage ≠ .held) :
    ∃ n ≤ 3, (s.ahead n).client.coordinatorStage = .stopped := by
  have hd' : s.advance.client.pool.isDown = true := h.advances.isDown.trans hd
  rcases hs : s.stance with _ | ⟨r, p, a, o⟩ | _
  · rcases hstage : s.client.coordinatorStage with _ | _ | ⟨r, p, a, stage⟩ | _
    · exact absurd hstage (hc hs)
    · have htaking : s.advance.stance = .taking := by
        rw [Situation.advance, hs]
        simp only [hstage]
      exact ⟨2, by decide, stops_advance hd' (.inl htaking)⟩
    · exact ⟨1, by decide, stops_advance hd (.inr ⟨hs, r, p, a, stage, hstage⟩)⟩
    · exact ⟨0, by decide, hstage⟩
  · cases hj : s.client.writePolicy.judge a.retry o with
    | finish o' => exact ⟨2, by decide, h.stops_of_finish hd hs hj⟩
    | again delay next =>
      by_cases hzero : delay = 0
      · subst hzero
        obtain ⟨-, hs'⟩ := advance_again_of_isDown hd hs hj
        exact ⟨3, by decide, (h.after .advance).stops_of_finish hd' hs' (judge_shutDown _ _)⟩
      · have hpauses : s.advance.stance = .resting ∧
            ∃ r p a stage, s.advance.client.coordinatorStage = .busy r p a stage := by
          rw [advance_pause hs hj hzero]
          exact ⟨rfl, r, p, _, .pausing, rfl⟩
        exact ⟨2, by decide, stops_advance hd' (.inr hpauses)⟩
  · exact ⟨1, by decide, stops_advance hd (.inl hs)⟩

end Situation

end ConsensusLink
