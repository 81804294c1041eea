import ConsensusLink.Proofs.Client.Watching
/-!
# What a cache holds of a key

Of a key a cache holds its value, or the request for it that is in flight, or nothing. What it holds
of one key changes in few ways: the key is asked for when nothing is held of it, it is forgotten, or
its request ends. Whatever else happens, to this key or others, only takes a value away for want of
room. `Ripens` says so of any stretch of time in which the first two do not happen, and
`Owned.ripens_after` proves it of every event.
-/

namespace ConsensusLink

open Promise Client

variable {σ φ : Type}

namespace CacheKey

/-- The call that reads the value of a key. -/
def call : CacheKey → Call
  | batch n => .fetchBatch n
  | block n => .batchBlock n
  | messageBatch m => .findBatch m

/-- What is asked of a client for the value of a key. -/
def ask : CacheKey → Ask
  | batch n => .fetchBatch n
  | block n => .batchBlock n
  | messageBatch m => .findBatch m

end CacheKey

/-- A key is ordered to be forgotten. -/
def Event.Forgets (e : Event σ) (key : CacheKey) : Prop :=
  ∃ n, key = .batch n ∧ e = .order (.forget n)

/-- A request that ends leaves its value behind only if it was in flight. -/
lemma CacheTable.peek?_finish {κ α ε : Type} [DecidableEq κ] {t : CacheTable κ α} {k k' : κ}
    {p : Id} {o : Except ε α} {accepts : α → Bool} {a : α}
    (h : (t.finish k p o accepts).ready.peek? k' = some a) :
    t.ready.peek? k' = some a ∨ k' = k ∧ t.pending? k = some p ∧ o = .ok a := by
  by_cases hp : t.pending? k = some p
  · obtain ha | ⟨hk, ho, -⟩ := t.adds_finish k p o accepts k' a h
    · exact .inl ha
    · exact .inr ⟨hk, hp, ho⟩
  · rw [CacheTable.finish, if_neg hp] at h
    exact .inl h

lemma CacheTable.peek?_purge {κ α : Type} [DecidableEq κ] {t : CacheTable κ α} {k k' : κ} {a : α}
    (h : (t.purge k).ready.peek? k' = some a) : t.ready.peek? k' = some a :=
  Lru.peek?_of_mem (List.mem_filter.1 (Lru.mem_of_peek? h)).1

/-- Whoever waits at a promise waited there before, or was registered now. -/
lemma Promise.Store.mem_continuations_of_register {α ε κ : Type} {s : Store α ε κ} {p q : Id}
    {k k' : κ} (h : k ∈ (s.register p k').2.continuations q) :
    k ∈ s.continuations q ∨ q = p ∧ k = k' := by
  by_cases hq : q = p
  · subst hq
    rcases hc : s.cell? q with _ | ks | o
    · rw [Store.register, hc] at h
      exact .inl h
    · rw [Store.continuations_register hc] at h
      rcases List.mem_append.1 h with h | h
      · rw [Store.continuations, hc]
        exact .inl h
      · exact .inr ⟨rfl, List.mem_singleton.1 h⟩
    · rw [Store.register, hc] at h
      exact .inl h
  · rw [Store.continuations, Store.cell?_register_of_ne hq] at h
    exact .inl h

namespace Client

variable {c c' c'' : Client σ φ} {key key' : CacheKey} {p q : Id} {a : Answer}
  {o : Outcome Answer} {f : Follow}

/-- The value that is held of a key. -/
def kept? (c : Client σ φ) : CacheKey → Option Answer
  | .batch n => c.batches.ready.peek? n
  | .block n => c.blocks.ready.peek? n
  | .messageBatch m => c.messageBatches.ready.peek? m

/-- The request of a key that is in flight. -/
def inFlight? (c : Client σ φ) : CacheKey → Option Id
  | .batch n => c.batches.pending? n
  | .block n => c.blocks.pending? n
  | .messageBatch m => c.messageBatches.pending? m

/-- Nothing is held of a key, so that a request has to be made. -/
def Misses (c : Client σ φ) (key : CacheKey) : Prop :=
  c.kept? key = none ∧ c.inFlight? key = none

lemma misses_iff :
    c.Misses key ↔ (∀ a, c.kept? key ≠ some a) ∧ ∀ q, c.inFlight? key ≠ some q := by
  rw [Misses, Option.eq_none_iff_forall_ne_some, Option.eq_none_iff_forall_ne_some]

lemma expects_cached : c.Expects (.cached key p) ↔ c.inFlight? key = some p := by
  cases key <;> rfl

/-! ## Who waits at a promise -/

/-- Whoever waits at a promise waits for this promise. -/
def Addressed (c : Client σ φ) : Prop :=
  ∀ q f, f ∈ c.promises.continuations q → f.promise = q

lemma Addressed.of_handsOut (h : c.Addressed) (hout : c.promises.HandsOut c'.promises p)
    (hnone : c'.promises.continuations p = []) : c'.Addressed := by
  intro q f hf
  obtain hf' | rfl := hout.mem_continuations hf
  · exact h q f hf'
  · rw [hnone] at hf
    cases hf

lemma lasting_addressed : Lasting (@Addressed σ φ) where
  alike h ha q f hf := h q f (ha.promises ▸ hf)
  new {c} h := by
    refine h.of_handsOut (p := c.promises.new.1) (Store.handsOut_add _) ?_
    rw [Store.continuations, Store.cell?_new]
  newSettled {c} o h := by
    refine h.of_handsOut (p := c.promises.new.1) (Store.handsOut_add _) ?_
    exact Store.continuations_of_outcome (Store.outcome?_newSettled o)
  settle {c} p o h := by
    by_cases hp : c.promises.Pending p
    · obtain ⟨_, _, _, _, _, hc, hset⟩ := settle_eq hp o
      rw [hc]
      intro q f hf
      exact h q f ((hset.mem_continuations q f).1 hf).2
    · rwa [settle_of_not_pending hp]
  watch {c c'} f h hp _ _ _ := by
    obtain ⟨_, _, _, _, hc, -⟩ := onSettled_eq c' f.promise f
    rw [hc]
    intro q g hg
    obtain hg | ⟨rfl, rfl⟩ := Store.mem_continuations_of_register hg
    · exact h q g (hp ▸ hg)
    · rfl

lemma addressed_ofConfig (config : ClientConfig) (remote : Remote σ φ) (node : σ) :
    Addressed (ofConfig config remote node) := nofun

/-! ## Requests end -/

lemma kept?_follow (h : (c.follow o f).kept? key = some a) :
    c.kept? key = some a ∨ ∃ q, f = .cached key q ∧ c.inFlight? key = some q ∧ o = .ok a := by
  rcases f with ⟨n | n | m, p⟩ | ⟨k, p⟩ <;> rcases key with n' | n' | m'
  case cached.batch.batch | cached.block.block | cached.messageBatch.messageBatch =>
    obtain h | ⟨rfl, hp, ho⟩ := CacheTable.peek?_finish h
    · exact .inl h
    · exact .inr ⟨p, rfl, hp, ho⟩
  all_goals exact .inl h

/-- A value comes in only when the request in flight ends with it. -/
lemma kept?_followAll {fs : List Follow}
    (h : (fs.foldl (fun c f => c.follow o f) c).kept? key = some a) :
    c.kept? key = some a ∨ ∃ q, .cached key q ∈ fs ∧ c.inFlight? key = some q ∧ o = .ok a := by
  induction fs generalizing c with
  | nil => exact .inl h
  | cons f fs ih =>
    obtain h | ⟨q, hq, hflight, ho⟩ := ih h
    · refine (kept?_follow h).imp_right ?_
      rintro ⟨q, rfl, hflight, ho⟩
      exact ⟨q, List.mem_cons_self, hflight, ho⟩
    · have hbefore := (expects_follow c o f _).1 (expects_cached.2 hflight)
      exact .inr ⟨q, List.mem_cons_of_mem _ hq, expects_cached.1 hbefore.1, ho⟩

/-- When a promise is settled a value comes in only of the key whose request it is. -/
lemma Addressed.kept?_settle (h : c.Addressed) (hkept : (c.settle p o).kept? key = some a) :
    c.kept? key = some a ∨ c.inFlight? key = some p ∧ c.promises.Pending p ∧ o = .ok a := by
  by_cases hp : c.promises.Pending p
  · obtain ⟨ks, promises, hk, hs⟩ := hp.exists_settle? o
    rw [settle, hs] at hkept
    obtain hkept | ⟨q, hq, hflight, ho⟩ := kept?_followAll hkept
    · exact .inl (by cases key <;> exact hkept)
    · -- who waits at the promise waits for this promise, so that it is the request of the key
      have hmem : .cached key q ∈ c.promises.continuations p := by
        rw [Store.continuations, hk]
        exact hq
      obtain rfl : q = p := h p _ hmem
      exact .inr ⟨by cases key <;> exact hflight, hp, ho⟩
  · rw [settle_of_not_pending hp] at hkept
    exact .inl hkept

/-- When a promise is settled no other request ends. -/
lemma Addressed.inFlight?_settle (h : c.Addressed) (p : Id) (o : Outcome Answer) (key : CacheKey)
    (q : Id) :
    ((c.settle p o).inFlight? key = some q → c.inFlight? key = some q) ∧
      (c.inFlight? key = some q → q ≠ p → (c.settle p o).inFlight? key = some q) := by
  by_cases hp : c.promises.Pending p
  · obtain ⟨ks, promises, hk, hs⟩ := hp.exists_settle? o
    have hiff := expects_followAll o ks
      { c with promises, settlements := (p, c.now) :: c.settlements } (.cached key q)
    rw [settle, hs, ← expects_cached, ← expects_cached]
    dsimp only
    rw [hiff]
    constructor
    · rintro ⟨hq, -⟩
      cases key <;> exact hq
    · intro hq hne
      refine ⟨by cases key <;> exact hq, fun hmem => hne ?_⟩
      have hmem : .cached key q ∈ c.promises.continuations p := by
        rw [Store.continuations, hk]
        exact hmem
      exact h p _ hmem
  · rw [settle_of_not_pending hp]
    exact ⟨id, fun hq _ => hq⟩

/-- Nothing is made of a key, and it is not forgotten: its request may end, and then leave its value
behind. -/
structure Ripens (key : CacheKey) (c c' : Client σ φ) : Prop where
  outcome : ∀ q o, c.promises.outcome? q = some o → c'.promises.outcome? q = some o
  kept : ∀ a, c'.kept? key = some a → c.kept? key = some a ∨
    ∃ q, c.inFlight? key = some q ∧ c'.promises.outcome? q = some (.ok a)
  inFlight : ∀ q, c'.inFlight? key = some q → c.inFlight? key = some q
  /-- The request is in flight until it is settled. -/
  stays : ∀ q, c.inFlight? key = some q → c'.promises.outcome? q = none →
    c'.inFlight? key = some q

lemma Ripens.refl (key : CacheKey) (c : Client σ φ) : c.Ripens key c :=
  ⟨fun _ _ => id, fun _ => .inl, fun _ => id, fun _ hq _ => hq⟩

lemma Ripens.trans (h : Ripens key c c') (h' : Ripens key c' c'') : Ripens key c c'' where
  outcome q o ho := h'.outcome q o (h.outcome q o ho)
  kept a ha := by
    obtain ha | ⟨q, hq, ho⟩ := h'.kept a ha
    · refine (h.kept a ha).imp_right ?_
      rintro ⟨q, hq, ho⟩
      exact ⟨q, hq, h'.outcome q _ ho⟩
    · exact .inr ⟨q, h.inFlight q hq, ho⟩
  inFlight q hq := h.inFlight q (h'.inFlight q hq)
  stays q hq hnone := by
    refine h'.stays q (h.stays q hq ?_) hnone
    cases ho : c'.promises.outcome? q with
    | none => rfl
    | some o => cases hnone.symm.trans (h'.outcome q o ho)

/-- What is held of a key is left as it is, but that a value may be dropped for want of room. -/
structure Leaves (key : CacheKey) (c c' : Client σ φ) : Prop where
  kept : ∀ a, c'.kept? key = some a → c.kept? key = some a
  inFlight : c'.inFlight? key = c.inFlight? key

lemma Leaves.trans (h : Leaves key c c') (h' : Leaves key c' c'') : Leaves key c c'' :=
  ⟨fun a ha => h.kept a (h'.kept a ha), h'.inFlight.trans h.inFlight⟩

lemma Leaves.ripens (h : Leaves key c c') (hp : c.promises.Persists c'.promises) :
    Ripens key c c' where
  outcome := hp.outcome
  kept a ha := .inl (h.kept a ha)
  inFlight _ hq := h.inFlight ▸ hq
  stays _ hq _ := h.inFlight.symm ▸ hq

lemma leaves_of_eq (key : CacheKey) (hb : c'.batches = c.batches) (hk : c'.blocks = c.blocks)
    (hm : c'.messageBatches = c.messageBatches) : Leaves key c c' := by
  constructor <;> cases key <;> simp [kept?, inFlight?, hb, hk, hm]

lemma Addressed.ripens_settle (h : c.Addressed) (p : Id) (o : Outcome Answer) (key : CacheKey) :
    Ripens key c (c.settle p o) where
  outcome q o' ho := by
    by_cases hp : c.promises.Pending p
    · have hq : q ≠ p := by
        rintro rfl
        cases hp.outcome?_eq.symm.trans ho
      obtain ⟨_, _, _, _, _, hc, hset⟩ := settle_eq hp o
      rw [hc]
      exact (hset.outcome?_of_notMem (by rwa [List.mem_singleton])).trans ho
    · rwa [settle_of_not_pending hp]
  kept a ha := by
    refine (h.kept?_settle ha).imp_right ?_
    rintro ⟨hflight, hp, rfl⟩
    exact ⟨p, hflight, outcome?_settle hp _⟩
  inFlight q hq := (h.inFlight?_settle p o key q).1 hq
  stays q hq hnone := by
    by_cases hp : c.promises.Pending p
    · refine (h.inFlight?_settle p o key q).2 hq ?_
      rintro rfl
      cases hnone.symm.trans (outcome?_settle hp o)
    · rwa [settle_of_not_pending hp]

/-- A key ripens as promises are settled. -/
lemma steady_ripens (key : CacheKey) (c : Client σ φ) :
    Steady fun c' => c'.Addressed ∧ Ripens key c c' where
  still := by
    rintro c' c'' ⟨haddressed, hripens⟩ hstill
    have hleaves := leaves_of_eq key hstill.batches hstill.blocks hstill.messageBatches
    refine ⟨lasting_addressed.alike haddressed hstill.alike, hripens.trans (hleaves.ripens ?_)⟩
    rw [hstill.promises]
    exact .refl _
  settle := by
    rintro c' p o ⟨haddressed, hripens⟩
    exact ⟨lasting_addressed.settle p o haddressed,
      hripens.trans (haddressed.ripens_settle p o key)⟩

/-! ## Asking and ordering -/

lemma leaves_submit (key : CacheKey) (c : Client σ φ) (job : Job) :
    Leaves key c (c.submit job).2 := by
  obtain ⟨e, -, hs⟩ | ⟨pool, schedule, -, hs⟩ := submit_eq c job
  · rw [hs]
    exact leaves_of_eq key rfl rfl rfl
  · rw [hs]
    exact leaves_of_eq key rfl rfl rfl

lemma leaves_onSettled (hf : ∀ q, f ≠ .cached key q) (c : Client σ φ) (p : Id) :
    Leaves key c (c.onSettled p f) := by
  unfold onSettled
  dsimp only
  split
  · rename_i o _
    have hregister : Leaves key c { c with promises := (c.promises.register p f).2 } :=
      leaves_of_eq key rfl rfl rfl
    refine hregister.trans ⟨fun a ha => ?_, ?_⟩
    · refine (kept?_follow ha).resolve_right ?_
      rintro ⟨q, hq, -⟩
      exact hf q hq
    · ext q
      have hiff := expects_follow { c with promises := (c.promises.register p f).2 } o f
        (.cached key q)
      rw [expects_cached, expects_cached] at hiff
      exact hiff.trans (and_iff_left (hf q).symm)
  · exact leaves_of_eq key rfl rfl rfl

/-- Notes the request of a key. -/
def note (c : Client σ φ) (p : Id) : CacheKey → Client σ φ
  | .batch n => { c with batches := c.batches.begin n p }
  | .block n => { c with blocks := c.blocks.begin n p }
  | .messageBatch m => { c with messageBatches := c.messageBatches.begin m p }

@[simp] lemma kept?_note (c : Client σ φ) (p : Id) (key key' : CacheKey) :
    (c.note p key').kept? key = c.kept? key := by
  cases key <;> cases key' <;> rfl

lemma leaves_note (h : key ≠ key') (c : Client σ φ) (p : Id) : Leaves key c (c.note p key') := by
  refine ⟨fun a ha => by rwa [kept?_note] at ha, ?_⟩
  rcases key with n | n | m <;> rcases key' with n' | n' | m'
  case batch.batch | block.block | messageBatch.messageBatch =>
    refine CacheTable.pending?_begin_of_ne ?_ _ p
    rintro rfl
    exact h rfl
  all_goals rfl

/-- The value of a key counts as used. -/
def touch (c : Client σ φ) : CacheKey → Client σ φ
  | .batch n => { c with batches := (c.batches.lookup n).2 }
  | .block n => { c with blocks := (c.blocks.lookup n).2 }
  | .messageBatch m => { c with messageBatches := (c.messageBatches.lookup m).2 }

lemma leaves_touch (key key' : CacheKey) (c : Client σ φ) : Leaves key c (c.touch key') := by
  have hkept : ∀ {κ : Type} [DecidableEq κ] (t : CacheTable κ Answer) (k k' : κ) (a : Answer),
      (t.lookup k').2.ready.peek? k = some a → t.ready.peek? k = some a := by
    intro κ _ t k k' a ha
    have hadds : t.Adds (t.lookup k').2 fun _ _ => False := t.adds_lookup k'
    exact (hadds k a ha).resolve_right id
  constructor
  · intro a ha
    rcases key with n | n | m <;> rcases key' with n' | n' | m'
    case batch.batch | block.block | messageBatch.messageBatch => exact hkept _ _ _ a ha
    all_goals exact ha
  · rcases key with n | n | m <;> rcases key' with n' | n' | m'
    case batch.batch | block.block | messageBatch.messageBatch =>
      simp only [inFlight?, touch, CacheTable.pending?, CacheTable.pending_lookup]
    all_goals rfl

/-- Who asks for a key whose value is held gets this value. -/
lemma take_of_kept (h : c.kept? key = some a) :
    c.take key.ask = (c.touch key).newSettled (.ok a) := by
  have hlookup : ∀ {κ : Type} [DecidableEq κ] (t : CacheTable κ Answer) (k : κ),
      t.ready.peek? k = some a → t.lookup k = (.ready a, (t.lookup k).2) := by
    intro κ _ t k ha
    obtain ⟨b, hb, hl⟩ | ⟨_, hnone, -⟩ | ⟨hnone, -⟩ := t.lookup_cases k
    · obtain rfl := Option.some.inj (hb.symm.trans ha)
      exact Prod.ext hl rfl
    · cases hnone.symm.trans ha
    · cases hnone.symm.trans ha
  cases key with
  | batch n =>
    rw [CacheKey.ask, take, fetchBatch, hlookup _ _ h]
    rfl
  | block n =>
    rw [CacheKey.ask, take, batchBlock, hlookup _ _ h]
    rfl
  | messageBatch m =>
    rw [CacheKey.ask, take, findBatch, hlookup _ _ h]
    rfl

/-- Who asks for a key whose request is in flight joins the request. -/
lemma take_of_inFlight (h : c.kept? key = none) (hp : c.inFlight? key = some p) :
    c.take key.ask = (p, c) := by
  have hlookup : ∀ {κ : Type} [DecidableEq κ] (t : CacheTable κ Answer) (k : κ),
      t.ready.peek? k = none → t.pending? k = some p → t.lookup k = (.pending p, t) := by
    intro κ _ t k hnone hflight
    obtain ⟨b, hb, -⟩ | ⟨q, -, hq, hl⟩ | ⟨-, hfree, -⟩ := t.lookup_cases k
    · cases hnone.symm.trans hb
    · obtain rfl := Option.some.inj (hq.symm.trans hflight)
      exact hl
    · cases hfree.symm.trans hflight
  cases key with
  | batch n => rw [CacheKey.ask, take, fetchBatch, hlookup _ _ h hp]
  | block n => rw [CacheKey.ask, take, batchBlock, hlookup _ _ h hp]
  | messageBatch m => rw [CacheKey.ask, take, findBatch, hlookup _ _ h hp]

/-- Who asks for a key of which nothing is held has a request made, which is noted and watched. -/
lemma take_of_misses (h : c.Misses key) :
    c.take key.ask =
      ((c.submit (.read key.call)).1,
        ((c.submit (.read key.call)).2.note (c.submit (.read key.call)).1 key).onSettled
          (c.submit (.read key.call)).1 (.cached key (c.submit (.read key.call)).1)) := by
  have hlookup : ∀ {κ : Type} [DecidableEq κ] (t : CacheTable κ Answer) (k : κ),
      t.ready.peek? k = none → t.pending? k = none → t.lookup k = (.absent, t) := by
    intro κ _ t k hnone hfree
    obtain ⟨b, hb, -⟩ | ⟨q, -, hq, -⟩ | ⟨-, -, hl⟩ := t.lookup_cases k
    · cases hnone.symm.trans hb
    · cases hfree.symm.trans hq
    · exact hl
  obtain ⟨hkept, hflight⟩ := h
  cases key with
  | batch n =>
    rw [CacheKey.ask, take, fetchBatch, hlookup _ _ hkept hflight]
    rfl
  | block n =>
    rw [CacheKey.ask, take, batchBlock, hlookup _ _ hkept hflight]
    rfl
  | messageBatch m =>
    rw [CacheKey.ask, take, findBatch, hlookup _ _ hkept hflight]
    rfl

lemma submit_fst (c : Client σ φ) (job : Job) : (c.submit job).1 = c.promises.new.1 := by
  unfold submit
  split <;> rfl

/-- A request that is made, and admitted to the pool, has a task that owes it, and is in flight. -/
lemma take_of_enter {pool : Pool TaskId} (h : c.Misses key) (henter : c.pool.enter = .ok pool) :
    (c.take key.ask).2.tasks =
        c.tasks ++ [.job (.read key.call) c.promises.new.1 .waiting] ∧
      (c.take key.ask).2.kept? key = none ∧
      (c.take key.ask).2.inFlight? key = some c.promises.new.1 := by
  have hsubmit : c.submit (.read key.call) =
      (c.promises.new.1,
        spawn { c with pool, promises := c.promises.new.2 }
          (.job (.read key.call) c.promises.new.1 .waiting)) := by
    rw [submit, henter]
  have hkept : c.kept? key = none := h.1
  rw [take_of_misses h, hsubmit]
  dsimp only
  rw [onSettled_of_pending (by cases key <;> exact Store.pending_new)]
  cases key with
  | _ => exact ⟨rfl, hkept, CacheTable.pending?_begin_self ..⟩

/-- Asking for a key leaves what is held of another one, and of itself unless nothing is held. -/
lemma leaves_take_key (h : key' = key → ¬c.Misses key) : Leaves key c (c.take key'.ask).2 := by
  cases hkept : c.kept? key' with
  | some a =>
    rw [take_of_kept hkept]
    exact (leaves_touch key key' c).trans (leaves_of_eq key rfl rfl rfl)
  | none =>
    cases hflight : c.inFlight? key' with
    | some p =>
      rw [take_of_inFlight hkept hflight]
      exact leaves_of_eq key rfl rfl rfl
    | none =>
      have hne : key ≠ key' := by
        rintro rfl
        exact h rfl ⟨hkept, hflight⟩
      rw [take_of_misses ⟨hkept, hflight⟩]
      refine ((leaves_submit key c _).trans (leaves_note hne _ _)).trans (leaves_onSettled ?_ _ _)
      rintro q he
      exact hne (Follow.cached.inj he).1.symm

/-- So does asking for anything else. -/
lemma leaves_take (c : Client σ φ) (a : Ask) (h : a = key.ask → ¬c.Misses key) :
    Leaves key c (c.take a).2 := by
  have hkey : ∀ key' : CacheKey, a = key'.ask → Leaves key c (c.take key'.ask).2 := by
    rintro key' rfl
    exact leaves_take_key fun he => h (he ▸ rfl)
  cases a with
  | fetchBatch n => exact hkey (.batch n) rfl
  | findBatch m => exact hkey (.messageBatch m) rfl
  | batchBlock n => exact hkey (.block n) rfl
  | progressMap => exact leaves_submit key c _
  | count k =>
    rw [take, count]
    split
    · exact leaves_of_eq key rfl rfl rfl
    · split
      · exact leaves_of_eq key rfl rfl rfl
      · have hissue : Leaves key c { c with tracker := c.tracker.issue.2 } :=
          leaves_of_eq key rfl rfl rfl
        have hsubmit := hissue.trans (leaves_submit key _ (.query k c.tracker.issue.1))
        refine Leaves.trans (hsubmit.trans ?_) (leaves_onSettled (by rintro q ⟨⟩) _ _)
        exact leaves_of_eq key rfl rfl rfl
  | sequence r =>
    rw [take, enqueue]
    dsimp only
    split
    · exact leaves_of_eq key rfl rfl rfl
    · rename_i coordinator _
      obtain ⟨_, hs⟩ :=
        alertCoordinator_eq { c with promises := c.promises.new.2, coordinator }
      rw [hs]
      exact leaves_of_eq key rfl rfl rfl
  | errand name delay result => exact leaves_submit key c _

/-- An order leaves what is held of a key that is not to be forgotten. -/
lemma leaves_obey (c : Client σ φ) (order : Order)
    (h : ∀ n, key = .batch n → order ≠ .forget n) : Leaves key c (c.obey order) := by
  cases order with
  | forget n =>
    rw [obey, invalidateBatch]
    constructor
    · intro a ha
      rcases key with n' | n' | m'
      · exact CacheTable.peek?_purge ha
      · exact ha
      · exact ha
    · rcases key with n' | n' | m'
      · refine (CacheTable.pending?_purge ..).trans (if_neg ?_)
        rintro rfl
        exact h n' rfl rfl
      · rfl
      · rfl
  | start =>
    rw [obey, startCoordinator]
    split
    · exact leaves_of_eq key rfl rfl rfl
    · exact leaves_of_eq key rfl rfl rfl
  | abandon =>
    obtain ⟨_, hs⟩ := alertCoordinator_eq
      { c with coordinator := { c.coordinator with isAbandoned := true } }
    rw [obey, abandonCoordinator, hs]
    exact leaves_of_eq key rfl rfl rfl
  | _ => exact leaves_of_eq key rfl rfl rfl

/-- Nothing is held of a batch that was forgotten. -/
lemma misses_forget (c : Client σ φ) (n : BatchNumber) :
    (c.obey (.forget n)).Misses (.batch n) :=
  ⟨Lru.peek?_erase_self .., (CacheTable.pending?_purge ..).trans (if_pos rfl)⟩

end Client

/-! ## Events -/

/-- Whatever happens, the key only ripens, unless it is forgotten or has a request made. -/
theorem Situation.Owned.ripens_after {s : Situation σ φ} {key : CacheKey} {e : Event σ}
    (h : s.Owned) (haddressed : s.client.Addressed) (hforget : ¬e.Forgets key)
    (hask : e = .ask key.ask → ¬s.client.Misses key) :
    Ripens key s.client (s.after e).client := by
  have hp := h.persists_after e
  -- nothing is asked or ordered in the other events, so that all they do is settle promises
  have hsteady := (steady_ripens key s.client).after h ⟨haddressed, .refl key s.client⟩ (e := e)
  cases e with
  | ask a => exact (leaves_take s.client a fun ha => hask (ha ▸ rfl)).ripens hp
  | order o =>
    refine (leaves_obey s.client o ?_).ripens hp
    rintro n rfl rfl
    exact hforget ⟨n, rfl, rfl⟩
  | _ => exact (hsteady nofun nofun).2

end ConsensusLink
