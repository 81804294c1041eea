import ConsensusLink.Proofs.Cache.Entries
import ConsensusLink.Proofs.Node.Contract
/-!
# What a coordinator may say of the log

A view *fits* a log when the recent writes stand in the log where the view says, and the tail is a
position of the log. An outcome of a write is *warranted* by a log when the log bears out what it
says. Both survive when the log grows. A view that fits answers with warranted outcomes, and a
warranted outcome leads from one fitting view to the next.
-/

namespace ConsensusLink

lemma getElem?_of_grows {α : Type} {l l' : List α} {i : Nat} {a : α} (h : l <+: l')
    (hi : l[i]? = some a) : l'[i]? = some a := by
  obtain ⟨t, rfl⟩ := h
  obtain ⟨hlt, -⟩ := List.getElem?_eq_some_iff.1 hi
  rw [List.getElem?_append_left hlt, hi]

/-! ## Outcomes -/

variable {log log' : List Message} {pos : MessageIndex} {msg : Message} {o : Outcome Unit}

/-- What the outcome of a write says of the log is true. -/
structure Warranted (log : List Message) (pos : MessageIndex) (msg : Message)
    (o : Outcome Unit) : Prop where
  /-- After a success the log holds the message. -/
  ok : o = .ok () → log[pos.toNat]? = some msg
  /-- Upon a conflict it holds another message. -/
  conflicting : ∀ q, o = .error (.conflictingWrite q) →
    q = pos ∧ ∃ other, log[pos.toNat]? = some other ∧ other ≠ msg
  /-- Everything before the position that is said to be expected is there. -/
  outOfOrder : ∀ expected got, o = .error (.outOfOrder (some expected) got) →
    expected.toNat ≤ log.length

namespace Warranted

lemma mono (h : Warranted log pos msg o) (hp : log <+: log') : Warranted log' pos msg o where
  ok ho := getElem?_of_grows hp (h.ok ho)
  conflicting q ho := by
    obtain ⟨hq, other, hother, hne⟩ := h.conflicting q ho
    exact ⟨hq, other, getElem?_of_grows hp hother, hne⟩
  outOfOrder expected got ho := Nat.le_trans (h.outOfOrder expected got ho) hp.length_le

/-- Most failures say nothing of the log. -/
lemma of_error {e : Failure} (hc : ∀ q, e ≠ .conflictingWrite q)
    (ho : ∀ expected got, e ≠ .outOfOrder (some expected) got) :
    Warranted log pos msg (.error e) where
  ok h := nomatch h
  conflicting q h := absurd (Except.error.inj h) (hc q)
  outOfOrder expected got h := absurd (Except.error.inj h) (ho expected got)

/-- A request ends with what its last attempt warrants. -/
lemma conclude (h : Warranted log pos msg o) (a : Attempts) :
    Warranted log pos msg (a.conclude (.write pos msg) o) := by
  cases o with
  | ok u => exact h
  | error e =>
    rw [Attempts.conclude]
    split
    · exact .of_error nofun nofun
    · exact h

end Warranted

/-- The position after the log, as the node reports it, is that. The log is shorter than the
position that was asked for, so that its length is not too large to be reported. -/
lemma toNat_ofNat_length (h : log.length < pos.toNat) :
    (MessageIndex.ofNat log.length).toNat = log.length :=
  MessageIndex.toNat_ofNat (Nat.lt_trans h pos.toNat_lt)

/-- The results of an attempt are warranted by the log after it. -/
lemma WriteEnds.warranted (h : WriteEnds pos msg log o log') : Warranted log' pos msg o := by
  cases h with
  | unanswered he => rcases he with rfl | rfl | rfl <;> exact .of_error nofun nofun
  | replied h =>
    cases h with
    | refused => exact .of_error nofun nofun
    | failed => exact .of_error nofun nofun
    | again hlog ho =>
      rcases ho with rfl | rfl
      · exact ⟨fun _ => hlog, nofun, nofun⟩
      · exact .of_error nofun nofun
    | appended hpos ho =>
      rcases ho with rfl | rfl
      · refine ⟨fun _ => ?_, nofun, nofun⟩
        rw [hpos, List.getElem?_concat_length]
      · exact .of_error nofun nofun
    | conflicts hlog hne =>
      refine ⟨nofun, ?_, nofun⟩
      rintro q ⟨⟩
      exact ⟨rfl, _, hlog, hne⟩
    | beyond hlt =>
      refine ⟨nofun, nofun, ?_⟩
      rintro expected got ⟨⟩
      exact Nat.le_of_eq (toNat_ofNat_length hlt)

/-! ## Views -/

namespace LogView

variable {v v' : LogView}

/-- The view is true of a log. -/
structure Fits (v : LogView) (log : List Message) : Prop where
  /-- The recent writes are in the log. -/
  recent : ∀ e ∈ v.recent.entries, log[e.1.toNat]? = some e.2
  /-- The tail is in the log. -/
  tail : ∀ t, v.tail = some t → t.toNat < log.length

lemma fits_empty (capacity : Nat) : (empty capacity).Fits log :=
  ⟨nofun, nofun⟩

namespace Fits

lemma mono (h : v.Fits log) (hp : log <+: log') : v.Fits log' :=
  ⟨fun e he => getElem?_of_grows hp (h.recent e he),
    fun t ht => Nat.lt_of_lt_of_le (h.tail t ht) hp.length_le⟩

/-- Forgetting the tail, or the recent writes as well. -/
lemma of_tail_none (h : v.Fits log) (hr : ∀ e ∈ v'.recent.entries, e ∈ v.recent.entries)
    (ht : v'.tail = none) : v'.Fits log := by
  refine ⟨fun e he => h.recent e (hr e he), fun t hs => ?_⟩
  rw [ht] at hs
  cases hs

lemma accept (h : v.Fits log) (hpos : log[pos.toNat]? = some msg) :
    (v.accept pos msg).Fits log := by
  obtain ⟨hlt, -⟩ := List.getElem?_eq_some_iff.1 hpos
  refine ⟨fun e he => ?_, fun t ht => ?_⟩
  · rcases Lru.mem_put he with rfl | he
    · exact hpos
    · exact h.recent e he
  · rw [LogView.accept] at ht
    cases hv : v.tail with
    | none =>
      rw [hv] at ht
      cases ht
      exact hlt
    | some t₀ =>
      rw [hv] at ht
      cases ht
      rw [MessageIndex.toNat_max]
      exact Nat.max_lt.2 ⟨h.tail t₀ hv, hlt⟩

lemma resync (h : v.Fits log) {expected : Option MessageIndex}
    (he : ∀ e, expected = some e → e.toNat ≤ log.length) : (v.resync expected).Fits log := by
  refine ⟨h.recent, fun t ht => ?_⟩
  obtain ⟨e, hexp, hprev⟩ := Option.bind_eq_some_iff.1 ht
  have hnext := MessageIndex.prev?_eq_some hprev
  have hle := he e hexp
  omega

/-- A write that ends with a warranted outcome leaves a view that fits. -/
lemma afterWrite (h : v.Fits log) (hw : Warranted log pos msg o) :
    (v.afterWrite pos msg o).Fits log := by
  unfold LogView.afterWrite
  split
  · exact h.accept (hw.ok rfl)
  · exact h.of_tail_none nofun rfl
  · rename_i expected got
    refine h.resync ?_
    rintro e rfl
    exact hw.outOfOrder e got rfl
  · exact h.of_tail_none (fun _ => id) rfl
  · exact h

lemma afterProbe (h : v.Fits log) (o : Outcome Unit) : (v.afterProbe o).Fits log := by
  unfold LogView.afterProbe
  split
  · exact ⟨h.recent, h.tail⟩
  · exact h.of_tail_none nofun rfl
  · exact h

/-- What a fitting view answers is warranted; answering leaves it fitting. -/
lemma check (h : v.Fits log) (hc : v.check pos msg = (some o, v')) :
    Warranted log pos msg o ∧ v'.Fits log := by
  unfold LogView.check at hc
  split at hc
  · -- without the lease nothing is said of the log
    cases hc
    exact ⟨.of_error nofun nofun, h⟩
  · split at hc
    · -- a message is remembered at this position
      rename_i accepted recent hget
      obtain ⟨hmem, hsub⟩ := Lru.mem_of_get? hget
      have hlog := h.recent _ hmem
      cases hc
      refine ⟨?_, fun e he => h.recent e (hsub e he), h.tail⟩
      split
      · rename_i he
        exact ⟨fun _ => he ▸ hlog, nofun, nofun⟩
      · rename_i hne
        refine ⟨nofun, ?_, nofun⟩
        rintro q ⟨⟩
        exact ⟨rfl, accepted, hlog, hne⟩
    · split at hc
      · cases hc
      · -- the position is compared with the tail, which is a position of the log
        rename_i t ht
        split at hc
        · cases hc
          refine ⟨⟨nofun, nofun, ?_⟩, h⟩
          rintro expected got ⟨⟩
          have hlt := h.tail t ht
          have hnext := t.toNat_next
          omega
        · cases hc

end Fits

/-- A view that does not answer stays as it is. -/
lemma check_none (h : v.check pos msg = (none, v')) : v' = v := by
  unfold check at h
  split at h
  · cases h
  · split at h
    · cases h
    · split at h
      · cases h
        rfl
      · split at h
        · cases h
        · cases h
          rfl

/-- Answering does not change the tail. -/
lemma tail_check {o : Option (Outcome Unit)} (h : v.check pos msg = (o, v')) :
    v'.tail = v.tail := by
  unfold check at h
  split at h
  · cases h
    rfl
  · split at h
    · cases h
      rfl
    · split at h
      · cases h
        rfl
      · cases h
        rfl

end LogView

end ConsensusLink
