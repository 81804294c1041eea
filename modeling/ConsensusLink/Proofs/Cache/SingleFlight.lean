import ConsensusLink.Cache.Service
import ConsensusLink.Proofs.Cache.Entries
import ConsensusLink.Proofs.Promise.Pending
/-!
# One request at a time

Whatever is asked of a cache, settled and purged, and in which order: the promises that its table
notes to be in flight are those of the requests that are not settled and were made since their keys
were purged last. So a key has one such request at most, which all callers share. `Traffic` keeps
the requests beside the cache, and `Single` is what every operation preserves.
-/

namespace ConsensusLink

open Promise

variable {κ α ε : Type} [DecidableEq κ] {k k' : κ} {p q : Id}

/-! ## Tables -/

/-- Looking up a key after the entries of a key were dropped. -/
lemma lookup_filter_ne {β : Type} (l : List (κ × β)) (k k' : κ) :
    (l.filter (·.1 ≠ k)).lookup k' = if k' = k then none else l.lookup k' := by
  induction l with
  | nil => simp
  | cons e l ih =>
    obtain ⟨k₀, b⟩ := e
    by_cases h₀ : k₀ = k
    · subst h₀
      rw [List.filter_cons_of_neg (by simp), ih]
      split
      · rfl
      · rename_i hne
        rw [List.lookup_cons, beq_eq_false_iff_ne.2 hne]
    · rw [List.filter_cons_of_pos (by simpa using h₀), List.lookup_cons, List.lookup_cons, ih]
      split
      · rename_i he
        rw [if_neg (by rw [eq_of_beq he]; exact h₀)]
      · rfl

namespace CacheTable

variable {t : CacheTable κ α} {accepts : α → Bool}

@[simp] lemma pending?_begin_self (t : CacheTable κ α) (k : κ) (p : Id) :
    (t.begin k p).pending? k = some p := by
  rw [pending?, begin, List.lookup_cons_self]

lemma pending?_begin_of_ne (h : k' ≠ k) (t : CacheTable κ α) (p : Id) :
    (t.begin k p).pending? k' = t.pending? k' := by
  rw [pending?, begin, List.lookup_cons, beq_eq_false_iff_ne.2 h]
  exact (lookup_filter_ne _ _ _).trans (if_neg h)

@[simp] lemma pending?_purge (t : CacheTable κ α) (k k' : κ) :
    (t.purge k).pending? k' = if k' = k then none else t.pending? k' :=
  lookup_filter_ne _ _ _

/-- A request that ends is in flight no longer; others are not concerned. -/
lemma pending?_finish (t : CacheTable κ α) (k : κ) (p : Id) (o : Except ε α)
    (accepts : α → Bool) (k' : κ) (q : Id) :
    (t.finish k p o accepts).pending? k' = some q ↔
      t.pending? k' = some q ∧ ¬(k' = k ∧ q = p) := by
  unfold finish
  split
  · rename_i hp
    have hdrop : ∀ ready : Lru κ α, pending? ⟨ready, t.pending.filter (·.1 ≠ k)⟩ k' = some q ↔
        t.pending? k' = some q ∧ ¬(k' = k ∧ q = p) := by
      intro ready
      rw [pending?, lookup_filter_ne]
      split
      · rename_i hk
        subst hk
        refine ⟨nofun, fun ⟨hq, hne⟩ => ?_⟩
        exact absurd ⟨rfl, Option.some.inj (hq.symm.trans hp)⟩ hne
      · rename_i hk
        exact ⟨fun hq => ⟨hq, fun he => hk he.1⟩, And.left⟩
    split
    · split <;> exact hdrop _
    · exact hdrop _
  · rename_i hp
    refine ⟨fun hq => ⟨hq, ?_⟩, And.left⟩
    rintro ⟨rfl, rfl⟩
    exact hp hq

@[simp] lemma pending_lookup (t : CacheTable κ α) (k : κ) :
    (t.lookup k).2.pending = t.pending := by
  unfold lookup
  split
  · rfl
  · split <;> rfl

@[simp] lemma capacity_lookup (t : CacheTable κ α) (k : κ) :
    (t.lookup k).2.ready.capacity = t.ready.capacity := by
  unfold lookup
  split
  · rename_i h
    rw [Lru.get?, Option.map_eq_some_iff] at h
    obtain ⟨a, -, he⟩ := h
    cases he
    rfl
  · split <;> rfl

@[simp] lemma capacity_finish (t : CacheTable κ α) (k : κ) (p : Id) (o : Except ε α)
    (accepts : α → Bool) : (t.finish k p o accepts).ready.capacity = t.ready.capacity := by
  unfold finish
  split
  · split
    · split <;> rfl
    · rfl
  · rfl

/-- No key is both there and in flight. -/
def Apart (t : CacheTable κ α) : Prop := ∀ k, t.ready.peek? k = none ∨ t.pending? k = none

/-- The request of a key is in flight no longer when its value is there. -/
lemma Apart.finish (h : t.Apart) (k : κ) (p : Id) (o : Except ε α) (accepts : α → Bool) :
    (t.finish k p o accepts).Apart := by
  intro k'
  cases hq : (t.finish k p o accepts).pending? k' with
  | none => exact .inr rfl
  | some q =>
    obtain ⟨hbefore, hne⟩ := (pending?_finish t k p o accepts k' q).1 hq
    have hnone : t.ready.peek? k' = none :=
      (h k').resolve_right fun hnone => nomatch hnone.symm.trans hbefore
    refine .inl (Option.eq_none_iff_forall_ne_some.2 fun a ha => ?_)
    obtain ha | ⟨rfl, -⟩ := adds_finish t k p o accepts k' a ha
    · cases hnone.symm.trans ha
    · -- it is another request of this key that has ended, so that nothing is added
      have hother : t.pending? k' ≠ some p := fun hp =>
        hne ⟨rfl, Option.some.inj (hbefore.symm.trans hp)⟩
      rw [CacheTable.finish, if_neg hother] at ha
      cases hnone.symm.trans ha

lemma Apart.lookup (h : t.Apart) (k : κ) : (t.lookup k).2.Apart := by
  intro k'
  rw [pending?, pending_lookup]
  refine (h k').imp_left fun hnone => Option.eq_none_iff_forall_ne_some.2 fun a ha => ?_
  have hadds : t.Adds (t.lookup k).2 fun _ _ => False := t.adds_lookup k
  obtain ha | hnews := hadds k' a ha
  · cases hnone.symm.trans ha
  · exact hnews

lemma Apart.begin (h : t.Apart) (hk : t.ready.peek? k = none) (p : Id) : (t.begin k p).Apart := by
  intro k'
  by_cases he : k' = k
  · subst he
    exact .inl hk
  · rw [pending?_begin_of_ne he]
    exact h k'

lemma Apart.purge (h : t.Apart) (k : κ) : (t.purge k).Apart := by
  intro k'
  rw [pending?_purge]
  split
  · exact .inr rfl
  · refine (h k').imp_left fun hnone => Option.eq_none_iff_forall_ne_some.2 fun a ha => ?_
    have hmem : (k', a) ∈ t.ready.entries := (List.mem_filter.1 (Lru.mem_of_peek? ha)).1
    cases hnone.symm.trans (Lru.peek?_of_mem hmem)

/-- What a table knows of a key, and what it does not. -/
lemma lookup_cases (t : CacheTable κ α) (k : κ) :
    (∃ a, t.ready.peek? k = some a ∧ (t.lookup k).1 = .ready a) ∨
    (∃ p, t.ready.peek? k = none ∧ t.pending? k = some p ∧ t.lookup k = (.pending p, t)) ∨
      t.ready.peek? k = none ∧ t.pending? k = none ∧ t.lookup k = (.absent, t) := by
  rw [lookup, Lru.get?]
  cases ha : t.ready.peek? k with
  | some a => exact .inl ⟨a, rfl, rfl⟩
  | none =>
    cases hp : t.pending? k with
    | some p => exact .inr (.inl ⟨p, rfl, rfl, rfl⟩)
    | none => exact .inr (.inr ⟨rfl, rfl, rfl⟩)

/-- What a table knows of a key when no request of it is under way. -/
lemma lookup_of_idle (h : ∀ p, t.pending? k ≠ some p) :
    t.lookup k =
      match t.ready.peek? k with
      | some a => (.ready a, { t with ready := t.ready.put k a })
      | none => (.absent, t) := by
  rw [lookup, Lru.get?, Option.eq_none_iff_forall_ne_some.2 h]
  cases t.ready.peek? k <;> rfl

end CacheTable

namespace CacheService

variable {s : CacheService κ α ε} {accepts : α → Bool}

/-! ## Operations -/

lemma get_ready {a : α} (h : (s.table.lookup k).1 = .ready a) (fetched : Option (Except ε α))
    (accepts : α → Bool) :
    s.get k fetched accepts =
      ((s.promises.newSettled (.ok a)).1, false,
        ⟨(s.table.lookup k).2, (s.promises.newSettled (.ok a)).2⟩) := by
  unfold get
  split
  · rename_i hl
    rw [hl] at h ⊢
    cases h
    rfl
  · rename_i hl
    rw [hl] at h
    cases h
  · rename_i hl
    rw [hl] at h
    cases h

lemma get_pending (h : s.table.lookup k = (.pending p, s.table)) (fetched : Option (Except ε α))
    (accepts : α → Bool) : s.get k fetched accepts = (p, false, s) := by
  simp only [get, h]

/-- A request that is settled at once is in flight only until the table is told. -/
lemma get_settled (h : s.table.lookup k = (.absent, s.table)) (o : Except ε α)
    (accepts : α → Bool) :
    s.get k (some o) accepts =
      ((s.promises.newSettled o).1, true,
        ⟨(s.table.begin k (s.promises.newSettled o).1).finish k (s.promises.newSettled o).1 o
            accepts,
          (s.promises.newSettled o).2⟩) := by
  simp only [get, h, Store.register_of_outcome (Store.outcome?_newSettled o)]
  rfl

lemma get_new (h : s.table.lookup k = (.absent, s.table)) (accepts : α → Bool) :
    s.get k none accepts =
      (s.promises.new.1, true,
        ⟨s.table.begin k s.promises.new.1,
          (s.promises.new.2.register s.promises.new.1 ⟨k, s.promises.new.1, accepts⟩).2⟩) := by
  have hwaits := Store.register_fst s.promises.new.2 s.promises.new.1
    (CacheWatch.mk k s.promises.new.1 accepts)
  rw [Store.pending_new.outcome?_eq] at hwaits
  simp only [get, h, hwaits]

/-- A request is made exactly for the keys that are neither there nor in flight. -/
lemma made_iff (s : CacheService κ α ε) (k : κ) (fetched : Option (Except ε α))
    (accepts : α → Bool) : (s.get k fetched accepts).2.1 = true ↔
      s.table.ready.peek? k = none ∧ s.table.pending? k = none := by
  obtain ⟨a, hthere, hl⟩ | ⟨p, -, hflight, hl⟩ | ⟨habsent, hfree, hl⟩ := s.table.lookup_cases k
  · rw [get_ready hl, hthere]
    exact ⟨nofun, fun h => nomatch h.1⟩
  · rw [get_pending hl, hflight]
    exact ⟨nofun, fun h => nomatch h.2⟩
  · refine iff_of_true ?_ ⟨habsent, hfree⟩
    cases fetched with
    | some o => rw [get_settled hl]
    | none => rw [get_new hl]

/-- What comes of telling the table about the end of what is watched. -/
lemma notifyAll (watches : List (CacheWatch κ α)) (o : Except ε α) (s : CacheService κ α ε)
    (hapart : s.table.Apart) :
    ∃ table, watches.foldl (fun s w => s.notify w o) s = { s with table } ∧ table.Apart ∧
      table.ready.capacity = s.table.ready.capacity ∧
      ∀ k q, table.pending? k = some q ↔ s.table.pending? k = some q ∧
        ∀ w ∈ watches, ¬(k = w.key ∧ q = w.promise) := by
  induction watches generalizing s with
  | nil => exact ⟨_, rfl, hapart, rfl, fun k q => ⟨fun hq => ⟨hq, nofun⟩, And.left⟩⟩
  | cons w watches ih =>
    obtain ⟨table, hs, hapart', hcapacity, hpending⟩ :=
      ih (s.notify w o) (hapart.finish w.key w.promise o w.accepts)
    refine ⟨table, hs, hapart', ?_, fun k q => ?_⟩
    · exact hcapacity.trans (CacheTable.capacity_finish _ _ _ _ _)
    · have hfirst : (s.notify w o).table.pending? k = some q ↔ _ :=
        CacheTable.pending?_finish s.table w.key w.promise o w.accepts k q
      rw [hpending, hfirst, and_assoc, List.forall_mem_cons]

end CacheService

/-! ## Traffic -/

/-- What can be done to a cache. -/
inductive CacheOp (κ α ε : Type) where
  /-- A key is asked for. A request that has to be made may be settled at once. -/
  | get (key : κ) (fetched : Option (Except ε α)) (accepts : α → Bool)
  /-- A promise is settled. -/
  | settle (promise : Id) (outcome : Except ε α)
  /-- A key is purged. -/
  | purge (key : κ)

/-- A cache, with the requests that were made since their keys were purged last, latest first. -/
structure Traffic (κ α ε : Type) [DecidableEq κ] where
  /-- The cache. -/
  service : CacheService κ α ε
  /-- The requests, each with its key. -/
  requests : List (κ × Id) := []

namespace Traffic

/-- Nothing was asked of the cache yet. -/
def fresh (capacity : Nat) : Traffic κ α ε where
  service := .empty capacity

/-- What an operation comes to. -/
def after (t : Traffic κ α ε) : CacheOp κ α ε → Traffic κ α ε
  | .get k fetched accepts =>
    let (p, made, service) := t.service.get k fetched accepts
    ⟨service, if made then (k, p) :: t.requests else t.requests⟩
  | .settle p o => { t with service := (t.service.settle p o).2 }
  | .purge k => ⟨t.service.purge k, t.requests.filter (·.1 ≠ k)⟩

/-- Operations one after the other. -/
def afterAll (t : Traffic κ α ε) (ops : List (CacheOp κ α ε)) : Traffic κ α ε := ops.foldl after t

/-- The requests of a key that are not settled. -/
def unsettled (t : Traffic κ α ε) (k : κ) : List (κ × Id) :=
  t.requests.filter fun e => e.1 = k ∧ !t.service.promises.isSettled e.2

/-- What holds of the requests for a cache of some capacity. -/
structure Single (capacity : Nat) (t : Traffic κ α ε) : Prop where
  apart : t.service.table.Apart
  capacity : t.service.table.ready.capacity = max capacity 1
  /-- What is noted to be in flight are the requests that are not settled. -/
  inFlight : ∀ k p, t.service.table.pending? k = some p ↔
    (k, p) ∈ t.requests ∧ t.service.promises.Pending p
  /-- The end of what is in flight is awaited. -/
  watched : ∀ k p, t.service.table.pending? k = some p →
    ∃ w ∈ t.service.promises.continuations p, w.key = k ∧ w.promise = p
  own : ∀ p, ∀ w ∈ t.service.promises.continuations p, w.promise = p
  known : ∀ e ∈ t.requests, t.service.promises.Known e.2
  nodup : t.requests.Nodup

variable {capacity : Nat} {t : Traffic κ α ε}

lemma single_fresh (capacity : Nat) : Single capacity (fresh capacity : Traffic κ α ε) where
  apart _ := .inl rfl
  capacity := rfl
  inFlight _ _ := ⟨nofun, fun h => nomatch h.1⟩
  watched _ _ := nofun
  own _ _ hw := nomatch hw
  known _ he := nomatch he
  nodup := List.nodup_nil

/-! ### Asking -/

section

variable {promises : Store α ε (CacheWatch κ α)}

/-- Requests that were made before are as they were when one more promise is handed out. -/
lemma Single.pending_iff (h : t.Single capacity) (hout : t.service.promises.HandsOut promises p)
    (hq : (k, q) ∈ t.requests) : promises.Pending q ↔ t.service.promises.Pending q := by
  rw [Store.Pending, hout.cells q (h.known _ hq), Store.Pending]

/-- A promise is handed out that is settled already, be it that of a request or not. -/
lemma Single.answer (h : t.Single capacity) {o : Except ε α} {table : CacheTable κ α}
    {requests : List (κ × Id)} (hout : t.service.promises.HandsOut promises p)
    (ho : promises.outcome? p = some o)
    (hrequests : requests = t.requests ∨ requests = (k, p) :: t.requests) (hapart : table.Apart)
    (hcapacity : table.ready.capacity = t.service.table.ready.capacity)
    (hpending : ∀ k q, table.pending? k = some q ↔ t.service.table.pending? k = some q) :
    Single capacity ⟨⟨table, promises⟩, requests⟩ where
  apart := hapart
  capacity := hcapacity.trans h.capacity
  inFlight k' q := by
    rw [hpending, h.inFlight]
    constructor
    · rintro ⟨hq, hwait⟩
      refine ⟨?_, (h.pending_iff hout hq).2 hwait⟩
      obtain rfl | rfl := hrequests
      · exact hq
      · exact List.mem_cons_of_mem _ hq
    · rintro ⟨hq, hwait⟩
      have hq : (k', q) ∈ t.requests := by
        obtain rfl | rfl := hrequests
        · exact hq
        · rcases List.mem_cons.1 hq with he | hq
          · cases he
            cases hwait.outcome?_eq.symm.trans ho
          · exact hq
      exact ⟨hq, (h.pending_iff hout hq).1 hwait⟩
  watched k' q hq := by
    obtain ⟨w, hw, hkey⟩ := h.watched k' q ((hpending k' q).1 hq)
    refine ⟨w, ?_, hkey⟩
    rwa [Store.continuations, hout.cells q (Store.known_of_mem_continuations hw)]
  own q w hw := by
    obtain hw | rfl := hout.mem_continuations hw
    · exact h.own q w hw
    · rw [Store.continuations_of_outcome ho] at hw
      cases hw
  known e he := by
    obtain rfl | rfl := hrequests
    · exact hout.known_mono (h.known e he)
    · rcases List.mem_cons.1 he with rfl | he
      · exact hout.known_self
      · exact hout.known_mono (h.known e he)
  nodup := by
    obtain rfl | rfl := hrequests
    · exact h.nodup
    · exact List.nodup_cons.2 ⟨fun hmem => hout.fresh (h.known _ hmem), h.nodup⟩

/-- A request is made for a key that is not there. -/
lemma Single.request (h : t.Single capacity) (hout : t.service.promises.HandsOut promises p)
    (hwait : promises.Pending p) {accepts : α → Bool}
    (hwatch : promises.continuations p = [⟨k, p, accepts⟩])
    (habsent : t.service.table.ready.peek? k = none)
    (hfree : t.service.table.pending? k = none) :
    Single capacity ⟨⟨t.service.table.begin k p, promises⟩, (k, p) :: t.requests⟩ where
  apart := h.apart.begin habsent p
  capacity := h.capacity
  inFlight k' q := by
    by_cases hk : k' = k
    · subst hk
      rw [CacheTable.pending?_begin_self, Option.some.injEq, List.mem_cons]
      constructor
      · rintro rfl
        exact ⟨.inl rfl, hwait⟩
      · rintro ⟨he | hq, hwait'⟩
        · cases he
          rfl
        · -- otherwise it would be in flight already
          have hq' := (h.inFlight k' q).2 ⟨hq, (h.pending_iff hout hq).1 hwait'⟩
          cases hfree.symm.trans hq'
    · rw [CacheTable.pending?_begin_of_ne hk, h.inFlight, List.mem_cons]
      constructor
      · rintro ⟨hq, hwait'⟩
        exact ⟨.inr hq, (h.pending_iff hout hq).2 hwait'⟩
      · rintro ⟨he | hq, hwait'⟩
        · cases he
          exact absurd rfl hk
        · exact ⟨hq, (h.pending_iff hout hq).1 hwait'⟩
  watched k' q hq := by
    by_cases hk : k' = k
    · subst hk
      rw [CacheTable.pending?_begin_self] at hq
      cases hq
      exact ⟨_, hwatch ▸ List.mem_cons_self, rfl, rfl⟩
    · rw [CacheTable.pending?_begin_of_ne hk] at hq
      obtain ⟨w, hw, hkey⟩ := h.watched k' q hq
      refine ⟨w, ?_, hkey⟩
      rwa [Store.continuations, hout.cells q (Store.known_of_mem_continuations hw)]
  own q w hw := by
    obtain hw | rfl := hout.mem_continuations hw
    · exact h.own q w hw
    · rw [hwatch] at hw
      obtain rfl := List.mem_singleton.1 hw
      rfl
  known e he := by
    rcases List.mem_cons.1 he with rfl | he
    · exact hout.known_self
    · exact hout.known_mono (h.known e he)
  nodup := List.nodup_cons.2 ⟨fun hmem => hout.fresh (h.known _ hmem), h.nodup⟩

end

lemma Single.get (h : t.Single capacity) (k : κ) (fetched : Option (Except ε α))
    (accepts : α → Bool) : (t.after (.get k fetched accepts)).Single capacity := by
  obtain ⟨a, -, hl⟩ | ⟨p, -, -, hl⟩ | ⟨habsent, hfree, hl⟩ := t.service.table.lookup_cases k
  · -- the answer is a promise of its own
    rw [after, CacheService.get_ready hl]
    refine h.answer (k := k) (Store.handsOut_add _) (Store.outcome?_newSettled (.ok a)) (.inl rfl)
      (h.apart.lookup k) (CacheTable.capacity_lookup _ _) fun k' q => ?_
    rw [CacheTable.pending?, CacheTable.pending_lookup, CacheTable.pending?]
  · rw [after, CacheService.get_pending hl]
    exact h
  · cases fetched with
    | some o =>
      -- the key is in flight and done with before anybody else can ask for it
      rw [after, CacheService.get_settled hl]
      refine h.answer (Store.handsOut_add _) (Store.outcome?_newSettled o) (.inr rfl)
        ((h.apart.begin habsent _).finish _ _ _ _) (CacheTable.capacity_finish _ _ _ _ _)
        fun k' q => ?_
      rw [CacheTable.pending?_finish]
      by_cases hk : k' = k
      · subst hk
        rw [CacheTable.pending?_begin_self, hfree]
        refine ⟨fun ⟨hq, hne⟩ => ?_, nofun⟩
        exact absurd ⟨rfl, (Option.some.inj hq).symm⟩ hne
      · rw [CacheTable.pending?_begin_of_ne hk]
        exact ⟨And.left, fun hq => ⟨hq, fun he => hk he.1⟩⟩
    | none =>
      rw [after, CacheService.get_new hl]
      refine h.request ((Store.handsOut_add _).register _) (Store.pending_new.register _ _)
        (Store.continuations_register Store.cell?_new _) habsent hfree

/-! ### Settling and purging -/

lemma Single.settle (h : t.Single capacity) (p : Id) (o : Except ε α) :
    (t.after (.settle p o)).Single capacity := by
  rw [after, CacheService.settle]
  cases hs : t.service.promises.settle? p o with
  | none => exact h
  | some sp =>
    obtain ⟨watches, promises⟩ := sp
    have hset := Store.settles_of_settle? hs
    have hwatches : t.service.promises.continuations p = watches := by
      rw [Store.continuations, Store.cell?_of_settle? hs]
    have hout : promises.outcome? p = some o := hset.outcome p (List.mem_singleton_self p)
    have hothers : ∀ {q}, q ≠ p → promises.cell? q = t.service.promises.cell? q := fun hq =>
      hset.others _ (by rwa [List.mem_singleton])
    obtain ⟨table, hfold, hapart, hcapacity, hpending⟩ :=
      CacheService.notifyAll watches o ⟨t.service.table, promises⟩ h.apart
    -- what is told to be at an end is just what was in flight with this promise
    have hended : ∀ k q, table.pending? k = some q ↔
        t.service.table.pending? k = some q ∧ q ≠ p := by
      intro k q
      rw [hpending]
      refine and_congr_right fun hq => ⟨fun hall he => ?_, fun hne w hw he => ?_⟩
      · subst he
        obtain ⟨w, hw, hkey, hpromise⟩ := h.watched k q hq
        exact hall w (hwatches ▸ hw) ⟨hkey.symm, hpromise.symm⟩
      · exact hne (he.2.trans (h.own p w (hwatches ▸ hw)))
    dsimp only
    rw [hfold]
    refine ⟨hapart, hcapacity.trans h.capacity, fun k q => ?_, fun k q hq => ?_, fun q w hw => ?_,
      fun e he => (hset.known e.2).2 (h.known e he), h.nodup⟩
    · rw [hended, h.inFlight, and_assoc]
      refine and_congr_right fun _ => ?_
      constructor
      · rintro ⟨hwait, hne⟩
        rwa [Store.Pending, hothers hne]
      · intro hwait
        have hne : q ≠ p := by
          rintro rfl
          cases hwait.outcome?_eq.symm.trans hout
        rw [Store.Pending, hothers hne] at hwait
        exact ⟨hwait, hne⟩
    · obtain ⟨hq, hne⟩ := (hended k q).1 hq
      obtain ⟨w, hw, hkey⟩ := h.watched k q hq
      exact ⟨w, by rwa [Store.continuations, hothers hne], hkey⟩
    · -- nobody waits for what is settled
      have hne : q ≠ p := by
        rintro rfl
        rw [Store.continuations_of_outcome hout] at hw
        cases hw
      rw [Store.continuations, hothers hne] at hw
      exact h.own q w hw

lemma Single.purge (h : t.Single capacity) (k : κ) : (t.after (.purge k)).Single capacity := by
  have hleft : ∀ {e}, e ∈ t.requests.filter (·.1 ≠ k) ↔ e ∈ t.requests ∧ e.1 ≠ k := by
    intro e
    rw [List.mem_filter, decide_eq_true_eq]
  refine ⟨h.apart.purge k, h.capacity, fun k' p => ?_, fun k' p hp => ?_, h.own,
    fun e he => h.known e (hleft.1 he).1, h.nodup.filter _⟩
  · change (t.service.table.purge k).pending? k' = some p ↔ _
    rw [CacheTable.pending?_purge]
    split
    · rename_i hk
      exact ⟨nofun, fun hp => absurd hk (hleft.1 hp.1).2⟩
    · rename_i hk
      rw [h.inFlight]
      exact ⟨fun hp => ⟨hleft.2 ⟨hp.1, hk⟩, hp.2⟩, fun hp => ⟨(hleft.1 hp.1).1, hp.2⟩⟩
  · change (t.service.table.purge k).pending? k' = some p at hp
    rw [CacheTable.pending?_purge] at hp
    split at hp
    · cases hp
    · exact h.watched k' p hp

lemma Single.after (h : t.Single capacity) (op : CacheOp κ α ε) :
    (t.after op).Single capacity := by
  cases op with
  | get k fetched accepts => exact h.get k fetched accepts
  | settle p o => exact h.settle p o
  | purge k => exact h.purge k

lemma Single.afterAll (h : t.Single capacity) (ops : List (CacheOp κ α ε)) :
    (t.afterAll ops).Single capacity := by
  induction ops generalizing t with
  | nil => exact h
  | cons op ops ih => exact ih (h.after op)

/-! ### What callers see -/

/-- A request is remembered until its key is purged. -/
lemma mem_requests_afterAll {ops : List (CacheOp κ α ε)} (h : (k, p) ∈ t.requests)
    (hops : ∀ op ∈ ops, op ≠ .purge k) : (k, p) ∈ (t.afterAll ops).requests := by
  induction ops generalizing t with
  | nil => exact h
  | cons op ops ih =>
    refine ih ?_ fun op' hop' => hops op' (List.mem_cons_of_mem _ hop')
    cases op with
    | get k' fetched accepts =>
      rw [Traffic.after]
      dsimp only
      split
      · exact List.mem_cons_of_mem _ h
      · exact h
    | settle p o => exact h
    | purge k' =>
      have hne : k ≠ k' := by
        rintro rfl
        exact hops _ List.mem_cons_self rfl
      exact List.mem_filter.2 ⟨h, by simpa using hne⟩

/-- What a cache looks like from outside, after any traffic. -/
structure Shape (capacity : Nat) (t : Traffic κ α ε) : Prop where
  /-- No key is both there and in flight. -/
  apart : ∀ k, t.service.table.ready.peek? k = none ∨ t.service.table.pending? k = none
  /-- No more values are there than fit. -/
  bounded : t.service.table.ready.entries.length ≤ capacity
  /-- What is in flight is not settled. -/
  unsettled : ∀ k p, t.service.table.pending? k = some p → t.service.promises.Pending p
  /-- A request is made exactly for the keys that are neither there nor in flight. -/
  fetches : ∀ k fetched accepts, (t.service.get k fetched accepts).2.1 = true ↔
    t.service.table.ready.peek? k = none ∧ t.service.table.pending? k = none
  /-- Since it was purged last a key has one unsettled request at most. -/
  single : ∀ k, (t.unsettled k).length ≤ 1
  /-- As long as a request is not settled, and its key is not purged, its promise is what everybody
  gets who asks for the key. -/
  joins : ∀ k p ops, (k, p) ∈ t.requests → (∀ op ∈ ops, op ≠ .purge k) →
    (t.afterAll ops).service.promises.isSettled p = false → ∀ fetched accepts,
      (t.afterAll ops).service.get k fetched accepts = (p, false, (t.afterAll ops).service)

lemma Single.pending?_of_unsettled (h : t.Single capacity) (hp : (k, p) ∈ t.requests)
    (hopen : t.service.promises.isSettled p = false) : t.service.table.pending? k = some p := by
  have hnone : t.service.promises.outcome? p = none := by
    rwa [Store.isSettled, Option.isSome_eq_false_iff, Option.isNone_iff_eq_none] at hopen
  exact (h.inFlight k p).2 ⟨hp, Store.pending_of_known (h.known _ hp) hnone⟩

/-- The requests of a key that are not settled are all the one in flight. -/
lemma Single.length_unsettled_le (h : t.Single capacity) (k : κ) : (t.unsettled k).length ≤ 1 := by
  have hone : ∀ e ∈ t.unsettled k, t.service.table.pending? k = some e.2 ∧ e.1 = k := by
    rintro ⟨k', p⟩ he
    obtain ⟨hmem, hcond⟩ := List.mem_filter.1 he
    simp only [decide_eq_true_eq, Bool.not_eq_true'] at hcond
    obtain ⟨rfl, hopen⟩ := hcond
    exact ⟨h.pending?_of_unsettled hmem hopen, rfl⟩
  have hnodup : (t.unsettled k).Nodup := h.nodup.filter _
  rcases hu : t.unsettled k with _ | ⟨e, _ | ⟨e', l⟩⟩
  · exact Nat.zero_le _
  · exact Nat.le_refl _
  · rw [hu] at hone hnodup
    obtain ⟨hp, hk⟩ := hone e List.mem_cons_self
    obtain ⟨hp', hk'⟩ := hone e' (List.mem_cons_of_mem _ List.mem_cons_self)
    have hsame : e = e' :=
      Prod.ext (hk.trans hk'.symm) (Option.some.inj (hp.symm.trans hp'))
    exact absurd (hsame ▸ List.mem_cons_self) (List.nodup_cons.1 hnodup).1

lemma Single.joins (h : t.Single capacity) (hp : (k, p) ∈ t.requests)
    (hopen : t.service.promises.isSettled p = false) (fetched : Option (Except ε α))
    (accepts : α → Bool) : t.service.get k fetched accepts = (p, false, t.service) := by
  have hflight := h.pending?_of_unsettled hp hopen
  have habsent : t.service.table.ready.peek? k = none :=
    (h.apart k).resolve_right fun hnone => nomatch hnone.symm.trans hflight
  obtain ⟨a, ha, -⟩ | ⟨q, -, hq, hl⟩ | ⟨-, hfree, -⟩ := t.service.table.lookup_cases k
  · cases habsent.symm.trans ha
  · obtain rfl := Option.some.inj (hflight.symm.trans hq)
    exact CacheService.get_pending hl fetched accepts
  · cases hfree.symm.trans hflight

/-- **One request in flight for each key.** Whatever is asked, settled and purged, and in which
order: no key is both there and in flight, no more values are there than fit, and what is in flight
is not settled; a request is made exactly for the keys that are neither. So a key has one unsettled
request at most since it was purged last, and all who ask for the key meanwhile get its promise. -/
theorem single_flight {capacity : Nat} (hcapacity : 0 < capacity) (ops : List (CacheOp κ α ε)) :
    ((fresh capacity).afterAll ops).Shape capacity := by
  have h := (single_fresh (κ := κ) capacity).afterAll ops
  refine
    { apart := h.apart
      bounded := ?_
      unsettled := fun k p hp => ((h.inFlight k p).1 hp).2
      fetches := fun k => CacheService.made_iff _ k
      single := h.length_unsettled_le
      joins := fun k p ops' hp hops hopen => ?_ }
  · have hle := Lru.length_le ((fresh capacity).afterAll ops).service.table.ready
    rwa [h.capacity, Nat.max_eq_left hcapacity] at hle
  · exact (h.afterAll ops').joins (mem_requests_afterAll hp hops) hopen

/-- Two keys are asked for at a cache with room for one value, and the first one again. It is purged
and asked for anew before its first request ends; the second one ends, and a third key is there at
once. -/
def crowded : Traffic Nat String String :=
  (fresh 1).afterAll
    [.get 1 none fun _ => true, .get 2 none fun _ => true, .get 1 none fun _ => true, .purge 1,
      .get 1 none fun _ => true, .settle ⟨0⟩ (.ok "stale"), .settle ⟨1⟩ (.ok "two"),
      .get 3 (some (.ok "three")) fun _ => true]

/-- The first key has a new request in flight, and what its first one ended with is not there. Of
the other two the later one is there. -/
theorem single_flight_crowded :
    crowded.Shape 1 ∧ crowded.service.table.pending = [(1, ⟨2⟩)] ∧
      crowded.service.table.ready.entries = [(3, "three")] ∧
      crowded.requests = [(3, ⟨3⟩), (1, ⟨2⟩), (2, ⟨1⟩)] ∧ crowded.unsettled 1 = [(1, ⟨2⟩)] ∧
      (crowded.service.get 1 none fun _ => true).1 = ⟨2⟩ :=
  ⟨single_flight (by decide) _, rfl, rfl, rfl, rfl, rfl⟩

end Traffic

end ConsensusLink
