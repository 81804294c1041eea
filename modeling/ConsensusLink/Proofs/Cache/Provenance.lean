import ConsensusLink.Proofs.Cache.Course
import Mathlib.Data.List.Induction
/-!
# Where cached values come from

Whatever is asked of a cache, settled and purged, and however the steps of different requests
interleave: what the table holds are the values of requests that stand, which are those made since
their keys were purged last, and the requests of which the table was not told yet. `Traced` is what
every step preserves. A request is known by its promise, so that one that is told late finds the
promise of another in its place, or none, and changes nothing.
-/

namespace ConsensusLink

open Promise

variable {ω κ α ε : Type} [DecidableEq κ]

namespace CacheTable

variable {t t' : CacheTable κ α} {k : κ} {a : α} {p : Id}

/-- What is served is there. -/
lemma peek?_of_lookup (h : t.lookup k = (.ready a, t')) : t.ready.peek? k = some a := by
  obtain ⟨b, hb, hl⟩ | ⟨q, -, -, hl⟩ | ⟨-, -, hl⟩ := t.lookup_cases k
  · rw [h] at hl
    cases hl
    exact hb
  · cases h.symm.trans hl
  · cases h.symm.trans hl

/-- A key in flight changes nothing. -/
lemma eq_of_lookup_pending (h : t.lookup k = (.pending p, t')) : t' = t := by
  obtain ⟨b, -, hl⟩ | ⟨q, -, -, hl⟩ | ⟨-, -, hl⟩ := t.lookup_cases k
  · rw [h] at hl
    cases hl
  · cases h.symm.trans hl
    rfl
  · cases h.symm.trans hl

/-- What is absent is not in flight. -/
lemma free_of_lookup_absent (h : t.lookup k = (.absent, t')) : t.pending? k = none ∧ t' = t := by
  obtain ⟨b, -, hl⟩ | ⟨q, -, -, hl⟩ | ⟨-, hfree, hl⟩ := t.lookup_cases k
  · rw [h] at hl
    cases hl
  · cases h.symm.trans hl
  · cases h.symm.trans hl
    exact ⟨hfree, rfl⟩

end CacheTable

namespace Course

open CacheEvent

variable (retain : ω → CacheWatch κ α → α → Bool) {c : Course ω κ α ε} {w : CacheWatch κ α}
  {k : κ} {p : Id} {o : Except ε α}

/-! ## What the table holds -/

/-- The table holds what the requests that stand have come to. -/
structure Traced (retain : ω → CacheWatch κ α → α → Bool) (c : Course ω κ α ε) : Prop where
  inFlight : ∀ k p, c.service.table.pending? k = some p ↔
    ∃ w, w.key = k ∧ w.promise = p ∧ Outstanding w c.history
  ready : ∀ k a, c.service.table.ready.peek? k = some a → Backed retain c.history k a
  served : ∀ newer k a older, c.history = newer ++ .served k a :: older → Backed retain older k a

lemma traced_fresh (capacity : Nat) (world : ω) :
    (fresh capacity world : Course ω κ α ε).Traced retain where
  inFlight k p := ⟨nofun, fun ⟨w, _, _, hout⟩ => hout.1.elim⟩
  ready _ _ := nofun
  served newer k a older h := by cases newer <;> cases h

namespace Traced

variable {retain}

/-- One more event is noted, and the table changes with it. -/
lemma event (h : c.Traced retain) (e : CacheEvent ω κ α ε) (table : CacheTable κ α)
    (hinFlight : ∀ k p, table.pending? k = some p ↔
      ∃ w, w.key = k ∧ w.promise = p ∧ Outstanding w (e :: c.history))
    (hready : ∀ k a, table.ready.peek? k = some a → Backed retain (e :: c.history) k a)
    (hserved : ∀ k a, e = .served k a → Backed retain c.history k a) {promises} {unwatched} :
    Traced retain { c with
      service := ⟨table, promises⟩
      unwatched := unwatched
      history := e :: c.history } where
  inFlight := hinFlight
  ready := hready
  served newer k a older he := by
    cases newer with
    | nil =>
      obtain ⟨rfl, rfl⟩ := List.cons.inj he
      exact hserved k a rfl
    | cons e' newer => exact h.served newer k a older (List.cons.inj he).2

/-- A value is served, which is there. -/
lemma serve (h : c.Traced retain) {a : α} {table : CacheTable κ α}
    (hl : c.service.table.lookup k = (.ready a, table)) {promises} :
    Traced retain { c with
      service := ⟨table, promises⟩
      history := .served k a :: c.history } := by
  have htable : (c.service.table.lookup k).2 = table := by rw [hl]
  refine h.event (.served k a) table (fun k' p => ?_) (fun k' b hb => ?_) fun k' b he => ?_
  · have hpending : table.pending? k' = c.service.table.pending? k' := by
      rw [CacheTable.pending?, ← htable, CacheTable.pending_lookup, CacheTable.pending?]
    simp only [hpending, h.inFlight]
    refine exists_congr fun w => and_congr_right fun _ => and_congr_right fun _ => ?_
    exact (outstanding_cons (.served k a) (by simp) (by simp) (by simp)).symm
  · -- serving a value adds nothing
    have hadds : CacheTable.Adds c.service.table table fun _ _ => False :=
      htable ▸ CacheTable.adds_lookup _ k
    exact (h.ready k' b ((hadds k' b hb).resolve_right id)).cons (by simp)
  · obtain ⟨rfl, rfl⟩ := CacheEvent.served.inj he
    exact h.ready k a (CacheTable.peek?_of_lookup hl)

/-- A request is made, for a key that is not in flight. -/
lemma request (h : c.Traced retain) (htracked : c.Tracked)
    (hfree : c.service.table.pending? k = none) (hfresh : ∀ w ∈ c.requests, w.promise ≠ p)
    (accepts : α → Bool) {promises} {unwatched} :
    Traced retain { c with
      service := ⟨c.service.table.begin k p, promises⟩
      unwatched := unwatched
      history := .made ⟨k, p, accepts⟩ :: c.history } := by
  refine h.event (.made ⟨k, p, accepts⟩) (c.service.table.begin k p) (fun k' q => ?_)
    (fun k' b hb => (h.ready k' b hb).cons (by simp)) (by simp)
  by_cases hk : k' = k
  · subst hk
    rw [CacheTable.pending?_begin_self, Option.some.injEq]
    constructor
    · rintro rfl
      refine ⟨⟨k', p, accepts⟩, rfl, rfl, .inl rfl, fun o world hmem => ?_⟩
      rcases List.mem_cons.1 hmem with he | hmem
      · cases he
      · -- the table is only told of what was made
        refine hfresh ⟨k', p, accepts⟩ (htracked.made _ ?_) rfl
        exact List.mem_append_right _ (List.mem_append_right _ (mem_told.2 ⟨o, world, hmem⟩))
    · rintro ⟨w, hkey, rfl, hs, hnot⟩
      rcases hs with he | ⟨-, hs⟩
      · cases he
        rfl
      · -- no other request of this key is under way
        have hflight := (h.inFlight k' w.promise).2
          ⟨w, hkey, rfl, hs, fun o world hmem => hnot o world (List.mem_cons_of_mem _ hmem)⟩
        cases hfree.symm.trans hflight
  · rw [CacheTable.pending?_begin_of_ne hk, h.inFlight]
    refine exists_congr fun w => and_congr_right fun hkey => and_congr_right fun _ => ?_
    refine (outstanding_cons (.made ⟨k, p, accepts⟩) ?_ (by simp) (by simp)).symm
    rintro he
    cases he
    exact hk hkey.symm

lemma ask (h : c.Traced retain) (htracked : c.Tracked) (k : κ) (fetched : Option (Except ε α))
    (accepts : α → Bool) : (c.ask k fetched accepts).Traced retain := by
  unfold Course.ask
  split
  · rename_i a table hl
    exact h.serve hl
  · rename_i p table hl
    obtain rfl := CacheTable.eq_of_lookup_pending hl
    exact h
  · rename_i table hl
    obtain ⟨hfree, rfl⟩ := CacheTable.free_of_lookup_absent hl
    have hout := handsOut_promised c.service.promises fetched
    exact h.request htracked hfree (fun w hw => hout.ne (htracked.known w hw)) accepts

lemma purge (h : c.Traced retain) (k : κ) : (c.after retain (.purge k)).Traced retain := by
  refine h.event (.purged k) (c.service.table.purge k) (fun k' p => ?_) (fun k' a ha => ?_) nofun
  · rw [CacheTable.pending?_purge]
    split
    · rename_i hk
      subst hk
      refine ⟨nofun, ?_⟩
      rintro ⟨w, rfl, -, hs, -⟩
      exact absurd rfl ((stands_cons (.purged w.key) nofun).1 hs).1
    · rename_i hk
      rw [h.inFlight]
      refine exists_congr fun w => and_congr_right fun hkey => and_congr_right fun _ => ?_
      refine (outstanding_cons (.purged k) nofun ?_ nofun).symm
      rintro he
      cases he
      exact hk hkey.symm
  · have hne : k' ≠ k := by
      rintro rfl
      cases (Lru.peek?_erase_self _ _).symm.trans ha
    have hmem : (k', a) ∈ c.service.table.ready.entries :=
      (List.mem_filter.1 (Lru.mem_of_peek? ha)).1
    refine (h.ready k' a (Lru.peek?_of_mem hmem)).cons ?_
    rintro he
    cases he
    exact hne rfl

/-- The table is told of a request that it was not told of before. -/
lemma tell (h : c.Traced retain) (htracked : c.Tracked) (hmade : w ∈ c.requests)
    (o : Except ε α) : (c.tell retain w o).Traced retain := by
  refine h.event (.told w o c.world)
    (c.service.table.finish w.key w.promise o (retain c.world w)) (fun k p => ?_)
    (fun k a ha => ?_) nofun
  · rw [CacheTable.pending?_finish, h.inFlight]
    constructor
    · rintro ⟨⟨w', rfl, rfl, hout⟩, hne⟩
      refine ⟨w', rfl, rfl,
        (outstanding_cons (.told w o c.world) nofun nofun fun o' world he => ?_).2 hout⟩
      cases he
      exact hne ⟨rfl, rfl⟩
    · rintro ⟨w', rfl, rfl, hs, hnot⟩
      have hstands := ((stands_cons (.told w o c.world) nofun).1 hs).2
      refine ⟨⟨w', rfl, rfl, hstands, fun o' world hmem =>
        hnot o' world (List.mem_cons_of_mem _ hmem)⟩, fun he => ?_⟩
      obtain rfl := htracked.eq_of_promise (mem_requests.2 hstands.made_mem) hmade he.2
      exact hnot o c.world List.mem_cons_self
  · by_cases hp : c.service.table.pending? w.key = some w.promise
    · obtain ha | ⟨rfl, rfl, hretain⟩ := CacheTable.adds_finish _ _ _ _ _ k a ha
      · exact (h.ready k a ha).cons nofun
      · -- what is in flight is this request, and so it stands
        obtain ⟨w', -, hpromise, hout⟩ := (h.inFlight _ _).1 hp
        obtain rfl := htracked.eq_of_promise (mem_requests.2 hout.1.made_mem) hmade hpromise
        exact ⟨w', c.world, rfl, hout.1.cons nofun, List.mem_cons_self, hretain⟩
    · rw [CacheTable.finish, if_neg hp] at ha
      exact (h.ready k a ha).cons nofun

/-- One step. -/
lemma after (h : c.Traced retain) (htracked : c.Tracked) (step : CacheStep ω κ α ε) :
    (c.after retain step).Traced retain := by
  cases step with
  | ask k fetched accepts => exact h.ask htracked k fetched accepts
  | watch i =>
    -- the table and the history stay as they are
    change (c.watch i).Traced retain
    unfold Course.watch
    split
    · exact ⟨h.inFlight, h.ready, h.served⟩
    · exact h
  | settle p o =>
    change (c.settle p o).Traced retain
    unfold Course.settle
    split
    · exact ⟨h.inFlight, h.ready, h.served⟩
    · exact h
  | tell i =>
    change (c.tellAt retain i).Traced retain
    unfold Course.tellAt
    split
    · rename_i w o hi
      have hdue : w ∈ c.due.map (·.1) := List.mem_map_of_mem (List.mem_of_getElem? hi)
      have hmade := htracked.made w (List.mem_append_right _ (List.mem_append_left _ hdue))
      have htell := h.tell htracked hmade o
      exact ⟨htell.inFlight, htell.ready, htell.served⟩
    · exact h
  | purge k => exact h.purge k
  | drift world => exact ⟨h.inFlight, h.ready, h.served⟩

end Traced

/-- Along every course. -/
lemma traced_afterAll (h : c.Traced retain) (htracked : c.Tracked)
    (steps : List (CacheStep ω κ α ε)) :
    (c.afterAll retain steps).Traced retain ∧ (c.afterAll retain steps).Tracked := by
  induction steps generalizing c with
  | nil => exact ⟨h, htracked⟩
  | cons step steps ih => exact ih (h.after htracked step) (htracked.after retain step)

/-- What can be said of a cache at any time. -/
structure Accounted (retain : ω → CacheWatch κ α → α → Bool) (c : Course ω κ α ε) : Prop where
  /-- Every request has a promise of its own. -/
  own : (c.requests.map (·.promise)).Nodup
  /-- The table is told of a request once at most. -/
  once : (c.told.map (·.promise)).Nodup
  /-- What the table is told is the outcome of the request. -/
  outcome : ∀ w o world, .told w o world ∈ c.history →
    c.service.promises.outcome? w.promise = some o
  /-- A value that was served was that of a request for the key made since the key was purged last,
  and this request could keep it when the table was told. -/
  served : ∀ newer k a older, c.history = newer ++ .served k a :: older → Backed retain older k a
  /-- So it is for what would be served now. -/
  ready : ∀ k a table, c.service.table.lookup k = (.ready a, table) → Backed retain c.history k a
  /-- In flight are the requests for a key that were made since it was purged last and of which the
  table was not told. -/
  inFlight : ∀ k p, c.service.table.pending? k = some p ↔
    ∃ w, w.key = k ∧ w.promise = p ∧ Outstanding w c.history
  /-- A request that failed, or whose value is turned down, adds nothing to what is there, and takes
  away nothing; of what is in flight only the request itself goes. -/
  refused : ∀ w o, (∀ a, o = .ok a → retain c.world w a = false) →
    (c.tell retain w o).service.table.ready = c.service.table.ready ∧
    ∀ k p, (c.tell retain w o).service.table.pending? k = some p ↔
      c.service.table.pending? k = some p ∧ ¬(k = w.key ∧ p = w.promise)
  /-- A request whose key was purged since changes nothing at all, whatever comes of it. -/
  purged : ∀ w ∈ c.requests, ¬Stands w c.history → ∀ o,
    (c.tell retain w o).service.table = c.service.table

/-- A request that is turned down leaves what is there. -/
lemma ready_tell_of_refused (hrefused : ∀ a, o = .ok a → retain c.world w a = false) :
    (c.tell retain w o).service.table.ready = c.service.table.ready := by
  change (c.service.table.finish w.key w.promise o (retain c.world w)).ready = _
  unfold CacheTable.finish
  split
  · split
    · rename_i a
      rw [if_neg (by rw [hrefused a rfl]; exact Bool.false_ne_true)]
    · rfl
  · rfl

/-- **Where cached values come from.** Whatever is asked, settled and purged, and however the steps
of different requests interleave: a value that is served for a key is the outcome of a request for
this key, which was made since the key was purged last, and which was allowed to keep the value when
the table was told of it. A request that fails, is turned down, or whose key was purged, adds
nothing to the table and leaves nothing there, and does not touch what other requests have there. -/
theorem values_accounted (capacity : Nat) (world : ω) (steps : List (CacheStep ω κ α ε)) :
    ((fresh capacity world).afterAll retain steps).Accounted retain := by
  obtain ⟨h, htracked⟩ := traced_afterAll retain
    (traced_fresh retain capacity world : (fresh capacity world : Course ω κ α ε).Traced retain)
    (tracked_fresh capacity world) steps
  refine
    { own := htracked.own
      once := ?_
      outcome := htracked.told
      served := h.served
      ready := fun k a table hl => h.ready k a (CacheTable.peek?_of_lookup hl)
      inFlight := h.inFlight
      refused := fun w o hrefused =>
        ⟨ready_tell_of_refused retain hrefused, CacheTable.pending?_finish _ _ _ _ _⟩
      purged := fun w hw hgone o => ?_ }
  · have honce := htracked.once
    rw [settling, List.map_append, List.map_append] at honce
    exact (honce.sublist (List.sublist_append_right _ _)).sublist (List.sublist_append_right _ _)
  · refine if_neg fun hp => hgone ?_
    obtain ⟨w', -, hpromise, hout⟩ := (h.inFlight _ _).1 hp
    obtain rfl := htracked.eq_of_promise (mem_requests.2 hout.1.made_mem) hw hpromise
    exact hout.1

/-- A key is asked for, purged and asked for again. Its two requests end in the wrong order: the
table is told of the new one first, and keeps its value. The world says which values may be kept. -/
example :
    let retain : Nat → CacheWatch Nat String → String → Bool := fun world w _ => w.key < world
    let c : Course Nat Nat String String := (fresh 2 0).afterAll retain
      [.ask 7 none fun _ => true, .purge 7, .ask 7 none fun _ => true, .watch 1, .watch 0,
        .settle ⟨1⟩ (.ok "new"), .drift 8, .tell 0, .settle ⟨0⟩ (.ok "old"), .tell 0]
    c.service.table.ready.entries = [(7, "new")] ∧ c.service.table.pending = [] ∧
      c.told.map (·.promise) = [⟨0⟩, ⟨1⟩] := ⟨rfl, rfl, rfl⟩

/-! ## Operations without interruption -/

/-- Whether a value may be kept depends on the request only. -/
def accepting : ω → CacheWatch κ α → α → Bool := fun _ w => w.accepts

/-- Nothing is under way but what waits for its promise. -/
structure Idle (c : Course ω κ α ε) : Prop where
  unwatched : c.unwatched = []
  due : c.due = []

/-- A course comes, in some steps, to a cache, and is idle again. -/
def Reaches (c : Course ω κ α ε) (service : CacheService κ α ε) : Prop :=
  ∃ steps, (c.afterAll accepting steps).service = service ∧ (c.afterAll accepting steps).Idle

/-- The table is told of all that is due, one after the other. -/
lemma reaches_notify (watches : List (CacheWatch κ α)) (o : Except ε α)
    (hunwatched : c.unwatched = []) (hdue : c.due = watches.map (·, o)) :
    c.Reaches (watches.foldl (fun s w => s.notify w o) c.service) := by
  induction watches generalizing c with
  | nil => exact ⟨[], rfl, hunwatched, hdue⟩
  | cons w watches ih =>
    have htell : c.tellAt accepting 0 =
        { c.tell accepting w o with due := watches.map (·, o) } := by
      rw [tellAt, hdue]
      rfl
    obtain ⟨steps, hservice, hidle⟩ := ih (c := c.tellAt accepting 0)
      (by rw [htell]; exact hunwatched) (by rw [htell])
    refine ⟨.tell 0 :: steps, ?_, hidle⟩
    change ((c.tellAt accepting 0).afterAll accepting steps).service = _
    rw [hservice, htell]
    rfl

lemma Idle.reaches_settle (h : c.Idle) (p : Id) (o : Except ε α) :
    c.Reaches (c.service.settle p o).2 := by
  unfold CacheService.settle
  split
  · rename_i watches promises hs
    have hsettle : c.settle p o =
        { c with service.promises := promises, due := watches.map (·, o) } := by
      simp only [Course.settle, hs, h.due, List.append_nil]
    obtain ⟨steps, hservice, hidle⟩ := reaches_notify (c := c.settle p o) watches o
      (by rw [hsettle]; exact h.unwatched) (by rw [hsettle])
    refine ⟨.settle p o :: steps, ?_, hidle⟩
    change ((c.settle p o).afterAll accepting steps).service = _
    rw [hservice, hsettle]
  · exact ⟨[], rfl, h⟩

lemma Idle.ask_absent (h : c.Idle) (hl : c.service.table.lookup k = (.absent, c.service.table))
    (fetched : Option (Except ε α)) (accepts : α → Bool) :
    c.ask k fetched accepts = { c with
      service := ⟨c.service.table.begin k (promised c.service.promises fetched).1,
        (promised c.service.promises fetched).2⟩
      unwatched := [⟨k, (promised c.service.promises fetched).1, accepts⟩]
      history := .made ⟨k, (promised c.service.promises fetched).1, accepts⟩ :: c.history } := by
  rw [ask, hl, h.unwatched]

/-- The table is told at once of a request that is settled at once. -/
lemma Idle.reaches_settled (h : c.Idle)
    (hl : c.service.table.lookup k = (.absent, c.service.table)) (o : Except ε α)
    (accepts : α → Bool) : c.Reaches (c.service.get k (some o) accepts).2.2 := by
  have hask := h.ask_absent hl (some o) accepts
  have hnow := Store.register_of_outcome
    (Store.outcome?_newSettled (s := c.service.promises) o)
    (CacheWatch.mk k (c.service.promises.newSettled o).1 accepts)
  have hwatch : ((c.ask k (some o) accepts).watch 0) = { c.ask k (some o) accepts with
      unwatched := []
      due := [(⟨k, (c.service.promises.newSettled o).1, accepts⟩, o)] } := by
    rw [hask]
    simp [watch, promised, hnow, h.due]
  refine ⟨[.ask k (some o) accepts, .watch 0, .tell 0], ?_, ?_⟩
  · change (((c.ask k (some o) accepts).watch 0).tellAt accepting 0).service = _
    rw [hwatch, hask, CacheService.get_settled hl]
    rfl
  · change (((c.ask k (some o) accepts).watch 0).tellAt accepting 0).Idle
    rw [hwatch]
    exact ⟨rfl, rfl⟩

/-- A request that is not settled at once is watched. -/
lemma Idle.reaches_new (h : c.Idle) (hl : c.service.table.lookup k = (.absent, c.service.table))
    (accepts : α → Bool) : c.Reaches (c.service.get k none accepts).2.2 := by
  have hask := h.ask_absent hl none accepts
  have hnow : (c.service.promises.new.2.register c.service.promises.new.1
      (CacheWatch.mk k c.service.promises.new.1 accepts)).1 = none :=
    (Store.register_fst _ _ _).trans Store.pending_new.outcome?_eq
  have hwatch : ((c.ask k none accepts).watch 0) = { c.ask k none accepts with
      service.promises := (c.service.promises.new.2.register c.service.promises.new.1
        ⟨k, c.service.promises.new.1, accepts⟩).2
      unwatched := [] } := by
    rw [hask]
    simp [watch, promised, hnow]
  refine ⟨[.ask k none accepts, .watch 0], ?_, ?_⟩
  · change ((c.ask k none accepts).watch 0).service = _
    rw [hwatch, hask, CacheService.get_new hl]
    rfl
  · change ((c.ask k none accepts).watch 0).Idle
    rw [hwatch, hask]
    exact ⟨rfl, h.due⟩

lemma Idle.reaches_get (h : c.Idle) (k : κ) (fetched : Option (Except ε α)) (accepts : α → Bool) :
    c.Reaches (c.service.get k fetched accepts).2.2 := by
  obtain ⟨a, -, hl⟩ | ⟨p, -, -, hl⟩ | ⟨-, -, hl⟩ := c.service.table.lookup_cases k
  · have hlookup : c.service.table.lookup k = (.ready a, (c.service.table.lookup k).2) :=
      Prod.ext hl rfl
    have hask : c.ask k fetched accepts = { c with
        service := ⟨(c.service.table.lookup k).2, (c.service.promises.newSettled (.ok a)).2⟩
        history := .served k a :: c.history } := by
      rw [ask, hlookup]
    refine ⟨[.ask k fetched accepts], ?_, ?_⟩
    · change (c.ask k fetched accepts).service = _
      rw [hask, CacheService.get_ready hl]
    · change (c.ask k fetched accepts).Idle
      rw [hask]
      exact ⟨h.unwatched, h.due⟩
  · have hask : c.ask k fetched accepts = c := by
      rw [ask, hl]
    refine ⟨[.ask k fetched accepts], ?_, ?_⟩
    · change (c.ask k fetched accepts).service = _
      rw [hask, CacheService.get_pending hl]
    · change (c.ask k fetched accepts).Idle
      rw [hask]
      exact h
  · cases fetched with
    | some o => exact h.reaches_settled hl o accepts
    | none => exact h.reaches_new hl accepts

lemma Idle.reaches_after (h : c.Idle) {t : Traffic κ α ε} (ht : t.service = c.service)
    (op : CacheOp κ α ε) : c.Reaches (t.after op).service := by
  cases op with
  | get k fetched accepts =>
    rw [Traffic.after, ht]
    exact h.reaches_get k fetched accepts
  | settle p o =>
    rw [Traffic.after, ht]
    exact h.reaches_settle p o
  | purge k =>
    rw [Traffic.after, ht]
    exact ⟨[.purge k], rfl, h.unwatched, h.due⟩

/-- What is done to a cache one operation after the other is a course of it. -/
theorem reaches_traffic (capacity : Nat) (world : ω) (ops : List (CacheOp κ α ε)) :
    (fresh capacity world).Reaches ((Traffic.fresh capacity).afterAll ops).service := by
  induction ops using List.reverseRecOn with
  | nil => exact ⟨[], rfl, rfl, rfl⟩
  | append_singleton ops op ih =>
    obtain ⟨steps, hservice, hidle⟩ := ih
    obtain ⟨steps', hservice', hidle'⟩ := hidle.reaches_after hservice.symm op
    refine ⟨steps ++ steps', ?_, ?_⟩
    · rw [afterAll, List.foldl_append]
      rw [Traffic.afterAll, List.foldl_append]
      exact hservice'
    · rw [afterAll, List.foldl_append]
      exact hidle'

end Course

end ConsensusLink
