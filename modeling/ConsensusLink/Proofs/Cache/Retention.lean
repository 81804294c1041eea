import ConsensusLink.Proofs.Cache.Provenance
import ConsensusLink.Proofs.Cache.Recency
/-!
# How long a cache keeps a value

A value that a table has retained is served until its key is purged, or as many other keys as there
is room for were used since the key was used last. A use is a value that is served, or one that is
retained when its request ends. Keys that are asked for in vain, requests in flight, failures and
values that are turned down are no uses: `uses` reads off the history which ones there were. The
entries of the table stand by recency of use, so that only keys used since stand in front of a key.
-/

namespace ConsensusLink

open Promise

variable {ω κ α ε : Type} [DecidableEq κ]

/-! ## Entries by recency -/

namespace Lru

variable {k k' : κ} {a b : α} {t : Lru κ α} {uses : List (κ × α)}

lemma usedSince_cons_of_ne (h : k' ≠ k) (b : α) (uses : List (κ × α)) :
    usedSince ((k', b) :: uses) k = insert k' (usedSince uses k) := by
  rw [usedSince, List.takeWhile_cons_of_pos (by simpa using h), List.map_cons, List.toFinset_cons,
    usedSince]

/-- In front of an entry there are only entries of keys that were used since its key was. -/
def Ranked (t : Lru κ α) (uses : List (κ × α)) : Prop :=
  t.entries.Pairwise fun e e' => e.1 ∈ usedSince uses e'.1

namespace Ranked

lemma put (h : t.Ranked uses) (k : κ) (a : α) : (t.put k a).Ranked ((k, a) :: uses) := by
  have hothers : ∀ e ∈ (without t.entries k).take (t.capacity - 1), k ≠ e.1 := by
    intro e he hk
    have he := (List.mem_filter.1 (List.mem_of_mem_take he)).2
    exact absurd hk.symm (by simpa using he)
  have hsub : ((without t.entries k).take (t.capacity - 1)).Sublist t.entries :=
    (List.take_sublist _ _).trans List.filter_sublist
  refine List.pairwise_cons.2 ⟨fun e he => ?_, (List.Pairwise.sublist hsub h).imp_of_mem ?_⟩
  · rw [usedSince_cons_of_ne (hothers e he)]
    exact Finset.mem_insert_self _ _
  · intro e e' _ he' hused
    rw [usedSince_cons_of_ne (hothers e' he')]
    exact Finset.mem_insert_of_mem hused

lemma erase (h : t.Ranked uses) (k : κ) : (t.erase k).Ranked uses :=
  List.Pairwise.sublist List.filter_sublist h

/-- When another key is used, there are no more entries in front of an entry than keys that were
used since. So the entry stays as long as these fit beside it. -/
lemma peek?_put (h : t.Ranked uses) (hk : t.peek? k = some a) (hne : k' ≠ k) (b : α)
    (hroom : (usedSince ((k', b) :: uses) k).card < t.capacity) :
    (t.put k' b).peek? k = some a := by
  obtain ⟨front, rest, hentries⟩ := List.append_of_mem (mem_of_peek? hk)
  have hfront : ∀ e ∈ front, e.1 ∈ usedSince uses k := by
    have hranked := h
    rw [Ranked, hentries, List.pairwise_append] at hranked
    exact fun e he => hranked.2.2 e he (k, a) List.mem_cons_self
  have hnodup : ((without front k').map (·.1)).Nodup := by
    refine nodup_without ?_ k'
    have hall := t.nodup
    rw [hentries, List.map_append, List.nodup_append] at hall
    exact hall.1
  -- the keys in front, of which the one that is used now is none, were used since
  have hle : (without front k').length + 1 ≤ (usedSince ((k', b) :: uses) k).card := by
    have hkeys : insert k' ((without front k').map (·.1)).toFinset ⊆
        usedSince ((k', b) :: uses) k := by
      rw [usedSince_cons_of_ne hne]
      refine Finset.insert_subset_insert _ fun k₀ hk₀ => ?_
      obtain ⟨e, he, rfl⟩ := List.mem_map.1 (List.mem_toFinset.1 hk₀)
      exact hfront e (List.mem_filter.1 he).1
    have hcard := Finset.card_le_card hkeys
    rwa [Finset.card_insert_of_notMem (by simpa using notMem_without front k'),
      List.toFinset_card_of_nodup hnodup, List.length_map] at hcard
  obtain ⟨n, hn⟩ : ∃ n, t.capacity - 1 - (without front k').length = n + 1 :=
    ⟨_, (Nat.succ_pred (by omega)).symm⟩
  refine peek?_of_mem (List.mem_cons_of_mem _ ?_)
  have hwithout : without t.entries k' = without front k' ++ (k, a) :: without rest k' := by
    rw [hentries, without, List.filter_append, List.filter_cons_of_pos (by simpa using hne.symm)]
    rfl
  rw [hwithout, List.take_append, hn, List.take_succ_cons]
  exact List.mem_append_right _ List.mem_cons_self

end Ranked

/-- An entry stays when that of another key is dropped. -/
lemma peek?_erase_of_ne (hne : k ≠ k') (h : t.peek? k = some a) :
    (t.erase k').peek? k = some a :=
  peek?_of_mem (List.mem_filter.2 ⟨mem_of_peek? h, by simpa using hne⟩)

end Lru

namespace CacheEvent

/-! ## Uses -/

variable (retain : ω → CacheWatch κ α → α → Bool) {h : List (CacheEvent ω κ α ε)}
  {e : CacheEvent ω κ α ε} {k : κ} {a : α}

/-- The event is that the value is retained for the key: it is the outcome of a request that stands
and of which the table was not told yet, and it may be kept. -/
def Retains (h : List (CacheEvent ω κ α ε)) (e : CacheEvent ω κ α ε) (k : κ) (a : α) : Prop :=
  ∃ w world, w.key = k ∧ e = .told w (.ok a) world ∧ Outstanding w h ∧ retain world w a = true

open scoped Classical in
/-- The key that an event uses, and the value: it is served, or it is retained. -/
noncomputable def use? (h : List (CacheEvent ω κ α ε)) : CacheEvent ω κ α ε → Option (κ × α)
  | served k a => some (k, a)
  | told w (.ok a) world =>
    if Outstanding w h ∧ retain world w a = true then some (w.key, a) else none
  | _ => none

/-- The uses of keys in a history, latest first. -/
noncomputable def uses : List (CacheEvent ω κ α ε) → List (κ × α)
  | [] => []
  | e :: h => (use? retain h e).toList ++ uses h

/-- As many other keys as there is room for were used since the key was used last. -/
def Crowded (capacity : Nat) (k : κ) (h : List (CacheEvent ω κ α ε)) : Prop :=
  capacity ≤ (Lru.usedSince (uses retain h) k).card

/-- What an event does to the values that are there. Values come and are brought to the front where
keys are used, and go where they are purged; a request is made for a key without a value only. -/
inductive Turns (ready : Lru κ α) (h : List (CacheEvent ω κ α ε)) :
    CacheEvent ω κ α ε → Lru κ α → Prop
  | served (k : κ) (a : α) (hthere : ready.peek? k = some a) :
      Turns ready h (.served k a) (ready.put k a)
  | made (w : CacheWatch κ α) (habsent : ready.peek? w.key = none) : Turns ready h (.made w) ready
  | retained (w : CacheWatch κ α) (a : α) (world : ω) (habsent : ready.peek? w.key = none)
      (hout : Outstanding w h) (hretain : retain world w a = true) :
      Turns ready h (.told w (.ok a) world) (ready.put w.key a)
  | refused (w : CacheWatch κ α) (o : Except ε α) (world : ω)
      (hrefused : use? retain h (.told w o world) = none) : Turns ready h (.told w o world) ready
  | purged (k : κ) : Turns ready h (.purged k) (ready.erase k)

variable {retain} {ready ready' : Lru κ α}

omit [DecidableEq κ] in
lemma use?_retained {w : CacheWatch κ α} {world : ω} (hout : Outstanding w h)
    (hretain : retain world w a = true) :
    use? retain h (.told w (.ok a) world) = some (w.key, a) :=
  if_pos ⟨hout, hretain⟩

omit [DecidableEq κ] in
lemma Retains.use? (he : Retains retain h e k a) : CacheEvent.use? retain h e = some (k, a) := by
  obtain ⟨w, world, rfl, rfl, hout, hretain⟩ := he
  exact use?_retained hout hretain

namespace Turns

/-- A use brings the entry of its key to the front; nothing else does. -/
lemma ready_eq (ht : Turns retain ready h e ready') :
    (∃ k a, use? retain h e = some (k, a) ∧ ready' = ready.put k a) ∨
      use? retain h e = none ∧ (ready' = ready ∨ ∃ k, e = .purged k ∧ ready' = ready.erase k) := by
  cases ht with
  | served k a => exact .inl ⟨k, a, rfl, rfl⟩
  | made w => exact .inr ⟨rfl, .inl rfl⟩
  | retained w a world _ hout hretain => exact .inl ⟨w.key, a, use?_retained hout hretain, rfl⟩
  | refused w o world hrefused => exact .inr ⟨hrefused, .inl rfl⟩
  | purged k => exact .inr ⟨rfl, .inr ⟨k, rfl, rfl⟩⟩

lemma capacity_eq (ht : Turns retain ready h e ready') : ready'.capacity = ready.capacity := by
  cases ht <;> rfl

/-- The entries stay ranked by the uses. -/
lemma ranked (ht : Turns retain ready h e ready') (hranked : ready.Ranked (uses retain h)) :
    ready'.Ranked (uses retain (e :: h)) := by
  obtain ⟨k, a, huse, rfl⟩ | ⟨hnone, rfl | ⟨k, rfl, rfl⟩⟩ := ht.ready_eq
  · rw [uses, huse]
    exact hranked.put k a
  · rw [uses, hnone]
    exact hranked
  · rw [uses, hnone]
    exact hranked.erase k

/-- A value that is there stays, unless its key is purged, or the other keys that were used since
take up the room. -/
lemma keeps (ht : Turns retain ready h e ready') (hranked : ready.Ranked (uses retain h))
    (hthere : ready.peek? k = some a) (hpurged : e ≠ .purged k)
    (hroom : ¬Crowded retain ready.capacity k (e :: h)) : ready'.peek? k = some a := by
  have hother : ∀ k' b, use? retain h e = some (k', b) → k' ≠ k →
      (ready.put k' b).peek? k = some a := by
    intro k' b huse hne
    rw [Crowded, uses, huse, not_le] at hroom
    exact hranked.peek?_put hthere hne b hroom
  cases ht with
  | served k' b hthere' =>
    by_cases hne : k' = k
    · subst hne
      rw [Lru.peek?_put_self, ← hthere', hthere]
    · exact hother k' b rfl hne
  | made w => exact hthere
  | retained w b world habsent hout hretain =>
    -- the key is there, so it has no request
    refine hother w.key b (use?_retained hout hretain) ?_
    rintro rfl
    cases habsent.symm.trans hthere
  | refused w o world => exact hthere
  | purged k' => exact Lru.peek?_erase_of_ne (fun hk => hpurged (hk ▸ rfl)) hthere

lemma peek?_of_made {w : CacheWatch κ α} (ht : Turns retain ready h (.made w) ready') :
    ready.peek? w.key = none := by
  cases ht with
  | made _ habsent => exact habsent

lemma peek?_of_served (ht : Turns retain ready h (.served k a) ready') :
    ready.peek? k = some a := by
  cases ht with
  | served _ _ hthere => exact hthere

/-- What is retained is there. -/
lemma peek?_of_retains (ht : Turns retain ready h e ready') (he : Retains retain h e k a) :
    ready'.peek? k = some a := by
  obtain ⟨k', b, huse, rfl⟩ | ⟨hnone, -⟩ := ht.ready_eq
  · obtain ⟨rfl, rfl⟩ := Prod.mk.inj (Option.some.inj (huse.symm.trans he.use?))
    exact Lru.peek?_put_self _ _ _
  · cases hnone.symm.trans he.use?

end Turns

end CacheEvent

namespace Course

open CacheEvent

variable (retain : ω → CacheWatch κ α → α → Bool) {c c' : Course ω κ α ε} {w : CacheWatch κ α}
  {k : κ} {a : α} {o : Except ε α} {e : CacheEvent ω κ α ε}
  {earlier later : List (CacheEvent ω κ α ε)}

/-! ## What one step does -/

/-- The values that are there stay as they are, or one more event is noted, which turns them. -/
def Notes (c c' : Course ω κ α ε) : Prop :=
  (c'.history = c.history ∧ c'.service.table.ready = c.service.table.ready) ∨
    ∃ e, c'.history = e :: c.history ∧
      Turns retain c.service.table.ready c.history e c'.service.table.ready

variable {retain}

lemma notes_ask (k : κ) (fetched : Option (Except ε α)) (accepts : α → Bool) :
    c.Notes retain (c.ask k fetched accepts) := by
  obtain ⟨a, hthere, hl⟩ | ⟨p, -, -, hl⟩ | ⟨habsent, -, hl⟩ := c.service.table.lookup_cases k
  · have hlookup : c.service.table.lookup k =
        (.ready a, { c.service.table with ready := c.service.table.ready.put k a }) := by
      rw [CacheTable.lookup, Lru.get?, hthere]
      rfl
    rw [ask, hlookup]
    exact .inr ⟨_, rfl, .served k a hthere⟩
  · rw [ask, hl]
    exact .inl ⟨rfl, rfl⟩
  · rw [ask, hl]
    exact .inr ⟨_, rfl, .made ⟨k, _, accepts⟩ habsent⟩

/-- The table is told of a request. It is in flight exactly if it stands and the table was not told
of it before. -/
lemma notes_tell (h : c.Traced retain) (htracked : c.Tracked) (hapart : c.service.table.Apart)
    (hmade : w ∈ c.requests) (o : Except ε α) : c.Notes retain (c.tell retain w o) := by
  refine .inr ⟨_, rfl, ?_⟩
  change Turns retain _ _ _
    (c.service.table.finish w.key w.promise o (retain c.world w)).ready
  have hflight : c.service.table.pending? w.key = some w.promise ↔ Outstanding w c.history := by
    refine ⟨fun hp => ?_, fun hout => (h.inFlight _ _).2 ⟨w, rfl, rfl, hout⟩⟩
    obtain ⟨w', -, hpromise, hout⟩ := (h.inFlight _ _).1 hp
    exact htracked.eq_of_promise (mem_requests.2 hout.1.made_mem) hmade hpromise ▸ hout
  unfold CacheTable.finish
  split
  · rename_i hp
    have habsent : c.service.table.ready.peek? w.key = none :=
      (hapart w.key).resolve_right fun hnone => nomatch hnone.symm.trans hp
    cases o with
    | ok a =>
      dsimp only
      split
      · rename_i hretain
        exact .retained w a c.world habsent (hflight.1 hp) hretain
      · rename_i hretain
        exact .refused w _ c.world (if_neg fun hu => hretain hu.2)
    | error e => exact .refused w _ c.world rfl
  · rename_i hp
    refine .refused w o c.world ?_
    cases o with
    | ok a => exact if_neg fun hu => hp (hflight.2 hu.1)
    | error e => rfl

lemma notes_after (h : c.Traced retain) (htracked : c.Tracked) (hapart : c.service.table.Apart)
    (step : CacheStep ω κ α ε) : c.Notes retain (c.after retain step) := by
  cases step with
  | ask k fetched accepts => exact notes_ask k fetched accepts
  | watch i =>
    change c.Notes retain (c.watch i)
    unfold Course.watch
    split <;> exact .inl ⟨rfl, rfl⟩
  | settle p o =>
    change c.Notes retain (c.settle p o)
    unfold Course.settle
    split <;> exact .inl ⟨rfl, rfl⟩
  | tell i =>
    change c.Notes retain (c.tellAt retain i)
    unfold Course.tellAt
    split
    · rename_i w o hi
      have hdue : w ∈ c.due.map (·.1) := List.mem_map_of_mem (List.mem_of_getElem? hi)
      have hmade := htracked.made w (List.mem_append_right _ (List.mem_append_left _ hdue))
      exact notes_tell h htracked hapart hmade o
    · exact .inl ⟨rfl, rfl⟩
  | purge k => exact .inr ⟨_, rfl, .purged k⟩
  | drift world => exact .inl ⟨rfl, rfl⟩

/-! ## What lasts -/

lemma apart_ask (hapart : c.service.table.Apart) (k : κ) (fetched : Option (Except ε α))
    (accepts : α → Bool) : (c.ask k fetched accepts).service.table.Apart := by
  obtain ⟨a, -, hl⟩ | ⟨p, -, -, hl⟩ | ⟨habsent, -, hl⟩ := c.service.table.lookup_cases k
  · have hlookup : c.service.table.lookup k = (.ready a, (c.service.table.lookup k).2) :=
      Prod.ext hl rfl
    rw [ask, hlookup]
    exact hapart.lookup k
  · rw [ask, hl]
    exact hapart
  · rw [ask, hl]
    exact hapart.begin habsent _

lemma apart_after (hapart : c.service.table.Apart) (step : CacheStep ω κ α ε) :
    (c.after retain step).service.table.Apart := by
  cases step with
  | ask k fetched accepts => exact apart_ask hapart k fetched accepts
  | watch i =>
    change (c.watch i).service.table.Apart
    unfold Course.watch
    split <;> exact hapart
  | settle p o =>
    change (c.settle p o).service.table.Apart
    unfold Course.settle
    split <;> exact hapart
  | tell i =>
    change (c.tellAt retain i).service.table.Apart
    unfold Course.tellAt
    split
    · exact hapart.finish _ _ _ _
    · exact hapart
  | purge k => exact hapart.purge k
  | drift world => exact hapart

/-- The value is there, and so it was for all that has happened lately: the key was served with this
value only, and no request was made for it. -/
structure Kept (c : Course ω κ α ε) (later : List (CacheEvent ω κ α ε)) (k : κ) (a : α) :
    Prop where
  there : c.service.table.ready.peek? k = some a
  unasked : ∀ w, .made w ∈ later → w.key ≠ k
  same : ∀ b, .served k b ∈ later → b = a

variable (retain) in
/-- The value was retained, and what has happened later neither purged its key nor, at any time,
used as many other keys as there is room for since the key was used last. -/
structure Protects (capacity : Nat) (later : List (CacheEvent ω κ α ε))
    (e : CacheEvent ω κ α ε) (earlier : List (CacheEvent ω κ α ε)) (k : κ) (a : α) : Prop where
  retained : Retains retain earlier e k a
  unpurged : .purged k ∉ later
  room : ∀ l, l <:+ later → ¬Crowded retain capacity k (l ++ e :: earlier)

lemma Protects.of_cons {capacity : Nat} {e' : CacheEvent ω κ α ε}
    (h : Protects retain capacity (e' :: later) e earlier k a) :
    Protects retain capacity later e earlier k a :=
  ⟨h.retained, fun hmem => h.unpurged (List.mem_cons_of_mem _ hmem),
    fun l hl => h.room l (hl.trans (List.suffix_cons _ _))⟩

/-- One event more. -/
lemma Kept.turns {e' : CacheEvent ω κ α ε} (h : c.Kept later k a)
    (hhistory : c.history = later ++ e :: earlier)
    (ht : Turns retain c.service.table.ready c.history e' c'.service.table.ready)
    (hranked : c.service.table.ready.Ranked (uses retain c.history))
    (hprotects : Protects retain c.service.table.ready.capacity (e' :: later) e earlier k a) :
    c'.Kept (e' :: later) k a where
  there := by
    refine ht.keeps hranked h.there (fun he => hprotects.unpurged (he ▸ List.mem_cons_self)) ?_
    rw [hhistory]
    exact hprotects.room (e' :: later) (List.suffix_refl _)
  unasked w hw := by
    rcases List.mem_cons.1 hw with rfl | hw
    · rintro rfl
      cases ht.peek?_of_made.symm.trans h.there
    · exact h.unasked w hw
  same b hb := by
    rcases List.mem_cons.1 hb with rfl | hb
    · exact Option.some.inj (ht.peek?_of_served.symm.trans h.there)
    · exact h.same b hb

variable (retain) in
/-- What every step preserves: the entries are ranked by the uses, and what is protected is kept. -/
structure Lasting (capacity : Nat) (c : Course ω κ α ε) : Prop where
  apart : c.service.table.Apart
  room : capacity ≤ c.service.table.ready.capacity
  ranked : c.service.table.ready.Ranked (uses retain c.history)
  kept : ∀ later e earlier k a, c.history = later ++ e :: earlier →
    Protects retain capacity later e earlier k a → c.Kept later k a

lemma lasting_fresh (capacity : Nat) (world : ω) :
    (fresh capacity world : Course ω κ α ε).Lasting retain capacity where
  apart _ := .inl rfl
  room := Nat.le_max_left _ _
  ranked := List.Pairwise.nil
  kept later e earlier k a hhistory _ := by cases later <;> cases hhistory

lemma Protects.mono {capacity capacity' : Nat} (hle : capacity ≤ capacity')
    (h : Protects retain capacity later e earlier k a) :
    Protects retain capacity' later e earlier k a :=
  ⟨h.retained, h.unpurged, fun l hl hcrowded => h.room l hl (hle.trans hcrowded)⟩

lemma Lasting.after {capacity : Nat} (h : c.Lasting retain capacity) (htraced : c.Traced retain)
    (htracked : c.Tracked) (step : CacheStep ω κ α ε) :
    (c.after retain step).Lasting retain capacity := by
  have hapart : (c.after retain step).service.table.Apart := apart_after h.apart step
  obtain ⟨hhistory, hready⟩ | ⟨e', hhistory, ht⟩ := notes_after htraced htracked h.apart step
  · refine ⟨hapart, hready ▸ h.room, hready ▸ hhistory ▸ h.ranked, ?_⟩
    intro later e earlier k a he hprotects
    have hkept := h.kept later e earlier k a (hhistory ▸ he) hprotects
    exact ⟨hready ▸ hkept.there, hkept.unasked, hkept.same⟩
  · refine ⟨hapart, ht.capacity_eq ▸ h.room, hhistory ▸ ht.ranked h.ranked, ?_⟩
    intro later e earlier k a he hprotects
    rw [hhistory] at he
    cases later with
    | nil =>
      -- it is retained just now
      obtain ⟨rfl, rfl⟩ := List.cons.inj he
      exact ⟨ht.peek?_of_retains hprotects.retained, nofun, nofun⟩
    | cons e'' later =>
      obtain ⟨rfl, hbefore⟩ := List.cons.inj he
      have hkept := h.kept later e earlier k a hbefore hprotects.of_cons
      exact hkept.turns hbefore ht h.ranked (hprotects.mono h.room)

lemma lasting_afterAll {capacity : Nat} (h : c.Lasting retain capacity)
    (htraced : c.Traced retain) (htracked : c.Tracked) (steps : List (CacheStep ω κ α ε)) :
    (c.afterAll retain steps).Lasting retain capacity := by
  induction steps generalizing c with
  | nil => exact h
  | cons step steps ih =>
    exact ih (h.after htraced htracked step) (htraced.after htracked step)
      (htracked.after retain step)

/-- A key is served with the value: whoever asks for it gets a promise that is settled with the
value, and no request is made. -/
def Serves (c : Course ω κ α ε) (k : κ) (a : α) : Prop :=
  ∀ fetched accepts, ∃ p service, c.service.get k fetched accepts = (p, false, service) ∧
    service.promises.outcome? p = some (.ok a)

lemma Kept.serves (h : c.Kept later k a) : c.Serves k a := by
  intro fetched accepts
  obtain ⟨b, hb, hl⟩ | ⟨p, habsent, -⟩ | ⟨habsent, -⟩ := c.service.table.lookup_cases k
  · obtain rfl := Option.some.inj (h.there.symm.trans hb)
    exact ⟨_, _, CacheService.get_ready hl fetched accepts, Store.outcome?_newSettled _⟩
  · cases habsent.symm.trans h.there
  · cases habsent.symm.trans h.there

/-- **How long a value is kept.** Whatever is asked of a cache, settled and purged, and however the
steps of different requests interleave: a value that was retained for a key is served for it, by
itself and without a request, until the key is purged, or as many other keys as there is room for
were served or retained since the key itself was. -/
theorem serves_until_crowded (capacity : Nat) (world : ω) (steps : List (CacheStep ω κ α ε))
    (hhistory : ((fresh capacity world).afterAll retain steps).history = later ++ e :: earlier)
    (hprotects : Protects retain capacity later e earlier k a) :
    ((fresh capacity world).afterAll retain steps).Serves k a ∧
      (∀ w, .made w ∈ later → w.key ≠ k) ∧ ∀ b, .served k b ∈ later → b = a := by
  have hlasting : ((fresh capacity world).afterAll retain steps).Lasting retain capacity :=
    lasting_afterAll (lasting_fresh capacity world) (traced_fresh retain capacity world)
      (tracked_fresh capacity world) steps
  have hkept := hlasting.kept later e earlier k a hhistory hprotects
  exact ⟨hkept.serves, hkept.unasked, hkept.same⟩

/-- A cache with room for two values retains a value for key 1, and is asked for other keys. The
value for key 2 is turned down, the request for key 3 fails, and that for key 4 stays in flight. Two
more callers ask for key 1 and for key 4, and at last a value for key 5 is retained. -/
def crossing : Course Unit Nat String String :=
  (fresh 2 ()).afterAll accepting
    [.ask 1 (some (.ok "one")) fun _ => true, .watch 0, .tell 0,
      .ask 2 (some (.ok "two")) fun _ => false, .watch 0, .tell 0,
      .ask 3 (some (.error "gone")) fun _ => true, .watch 0, .tell 0,
      .ask 4 none fun _ => true, .ask 1 none fun _ => true, .ask 4 none fun _ => true,
      .ask 5 (some (.ok "five")) fun _ => true, .watch 0, .tell 0]

/-- What happens after the value for key 1 was retained, latest first. -/
def crossed : List (CacheEvent Unit Nat String String) :=
  [.told ⟨5, ⟨5⟩, fun _ => true⟩ (.ok "five") (), .made ⟨5, ⟨5⟩, fun _ => true⟩,
    .served 1 "one", .made ⟨4, ⟨3⟩, fun _ => true⟩,
    .told ⟨3, ⟨2⟩, fun _ => true⟩ (.error "gone") (), .made ⟨3, ⟨2⟩, fun _ => true⟩,
    .told ⟨2, ⟨1⟩, fun _ => false⟩ (.ok "two") (), .made ⟨2, ⟨1⟩, fun _ => false⟩]

/-- Of the other four keys only the last one counts, so that the value of key 1 is still served. -/
theorem serves_until_crowded_crossing :
    crossing.service.table.ready.entries = [(5, "five"), (1, "one")] ∧ crossing.Serves 1 "one" := by
  have hhistory : crossing.history = crossed ++ .told ⟨1, ⟨0⟩, fun _ => true⟩ (.ok "one") () ::
      [.made ⟨1, ⟨0⟩, fun _ => true⟩] := rfl
  refine ⟨rfl, (serves_until_crowded 2 () _ hhistory ?_).1⟩
  have hstands : Outstanding (ω := Unit) (ε := String) ⟨1, ⟨0⟩, fun _ : String => true⟩
      [.made ⟨1, ⟨0⟩, fun _ => true⟩] := ⟨.inl rfl, by simp⟩
  refine ⟨⟨_, _, rfl, rfl, hstands, rfl⟩, by simp [crossed], fun l hl => ?_⟩
  simp only [crossed, List.suffix_cons_iff, List.suffix_nil] at hl
  rcases hl with rfl | rfl | rfl | rfl | rfl | rfl | rfl | rfl | rfl
  all_goals
    simp [Crowded, uses, use?, accepting, Lru.usedSince, Outstanding, Stands]

end Course

end ConsensusLink
