import ConsensusLink.Proofs.Cache.SingleFlight
import Mathlib.Data.List.Nodup
import Mathlib.Data.List.Perm.Basic
/-!
# Requests of a cache, step by step

A request is made, then it is watched, some time it is settled, and then the table is told. In
between anything may happen to the cache: its key may be purged and asked for again, so that two
requests of one key are under way, which end in any order. A `Course` takes these steps one at a
time, in any order, and writes down what becomes of requests. Whether a value may be kept is decided
when the table is told; it may depend on the world, which changes meanwhile. `Tracked` says where
requests are: each has a promise of its own, and the table is told of it once at most.
-/

namespace ConsensusLink

open Promise

variable {ω κ α ε : Type} [DecidableEq κ]

/-- What becomes of requests. -/
inductive CacheEvent (ω κ α ε : Type) where
  /-- A request is made. -/
  | made (watch : CacheWatch κ α)
  /-- A key is answered with a value that is there. -/
  | served (key : κ) (value : α)
  /-- The table is told of the outcome of a request, in some state of the world. -/
  | told (watch : CacheWatch κ α) (outcome : Except ε α) (world : ω)
  /-- A key is purged. -/
  | purged (key : κ)

/-- What can happen to a cache. -/
inductive CacheStep (ω κ α ε : Type) where
  /-- A key is asked for. A request that has to be made may be settled at once. -/
  | ask (key : κ) (fetched : Option (Except ε α)) (accepts : α → Bool)
  /-- One of the requests that are not watched yet is watched from now on. -/
  | watch (position : Nat)
  /-- A promise is settled. -/
  | settle (promise : Id) (outcome : Except ε α)
  /-- The table is told of one of the requests that are settled. -/
  | tell (position : Nat)
  /-- A key is purged. -/
  | purge (key : κ)
  /-- The world changes. -/
  | drift (world : ω)

/-- A cache amid its requests. -/
structure Course (ω κ α ε : Type) [DecidableEq κ] where
  /-- The cache. -/
  service : CacheService κ α ε
  /-- The world. -/
  world : ω
  /-- The requests that are made but not watched. -/
  unwatched : List (CacheWatch κ α) := []
  /-- The requests that are settled, but of which the table is not told. -/
  due : List (CacheWatch κ α × Except ε α) := []
  /-- What has become of requests, latest first. -/
  history : List (CacheEvent ω κ α ε) := []

namespace CacheEvent

/-- The request that is made. -/
def made? : CacheEvent ω κ α ε → Option (CacheWatch κ α)
  | made w => some w
  | _ => none

/-- The request that the table is told of. -/
def told? : CacheEvent ω κ α ε → Option (CacheWatch κ α)
  | told w _ _ => some w
  | _ => none

/-- The request was made, and its key was not purged since. -/
def Stands (w : CacheWatch κ α) : List (CacheEvent ω κ α ε) → Prop
  | [] => False
  | e :: h => e = made w ∨ e ≠ purged w.key ∧ Stands w h

/-- The value is the outcome of a request for the key that was made since the key was purged last,
and that was allowed to keep it when the table was told. -/
def Backed (retain : ω → CacheWatch κ α → α → Bool) (h : List (CacheEvent ω κ α ε)) (k : κ)
    (a : α) : Prop :=
  ∃ w world, w.key = k ∧ Stands w h ∧ told w (.ok a) world ∈ h ∧ retain world w a = true

/-- The request stands, and the table was not told of it. -/
def Outstanding (w : CacheWatch κ α) (h : List (CacheEvent ω κ α ε)) : Prop :=
  Stands w h ∧ ∀ o world, told w o world ∉ h

variable {retain : ω → CacheWatch κ α → α → Bool} {h : List (CacheEvent ω κ α ε)}
  {e : CacheEvent ω κ α ε} {w w' : CacheWatch κ α} {k : κ} {a : α}

omit [DecidableEq κ]

lemma Stands.made_mem (hs : Stands w h) : made w ∈ h := by
  induction h with
  | nil => exact hs.elim
  | cons e h ih =>
    rcases hs with rfl | ⟨-, hs⟩
    · exact List.mem_cons_self
    · exact List.mem_cons_of_mem _ (ih hs)

/-- A request stands until its key is purged. -/
lemma stands_cons (e : CacheEvent ω κ α ε) (hmade : e ≠ made w) :
    Stands w (e :: h) ↔ e ≠ purged w.key ∧ Stands w h :=
  or_iff_right hmade

lemma Stands.cons (hs : Stands w h) (hpurged : e ≠ purged w.key) : Stands w (e :: h) :=
  .inr ⟨hpurged, hs⟩

/-- A value is backed until its key is purged. -/
lemma Backed.cons (hb : Backed retain h k a) (hpurged : e ≠ purged k) :
    Backed retain (e :: h) k a := by
  obtain ⟨w, world, rfl, hs, htold, hretain⟩ := hb
  exact ⟨w, world, rfl, hs.cons hpurged, List.mem_cons_of_mem _ htold, hretain⟩

/-- What happens to others does not concern a request. -/
lemma outstanding_cons (e : CacheEvent ω κ α ε) (hmade : e ≠ made w) (hpurged : e ≠ purged w.key)
    (htold : ∀ o world, e ≠ told w o world) : Outstanding w (e :: h) ↔ Outstanding w h := by
  unfold Outstanding
  rw [stands_cons e hmade, and_iff_right hpurged]
  refine and_congr_right fun _ => ⟨fun hnot o world hmem => ?_, fun hnot o world hmem => ?_⟩
  · exact hnot o world (List.mem_cons_of_mem _ hmem)
  · rcases List.mem_cons.1 hmem with rfl | hmem
    · exact htold o world rfl
    · exact hnot o world hmem

end CacheEvent

namespace Course

open CacheEvent

/-- Nothing was asked of the cache yet. -/
def fresh (capacity : Nat) (world : ω) : Course ω κ α ε where
  service := .empty capacity
  world := world

/-- The promise of a request, which may be settled at once. -/
def promised (s : Store α ε (CacheWatch κ α)) :
    Option (Except ε α) → Id × Store α ε (CacheWatch κ α)
  | some o => s.newSettled o
  | none => s.new

/-- Asks for a key. A request that has to be made is noted by the table, but not watched yet. -/
def ask (c : Course ω κ α ε) (k : κ) (fetched : Option (Except ε α)) (accepts : α → Bool) :
    Course ω κ α ε :=
  match c.service.table.lookup k with
  | (.ready a, table) =>
    { c with
      service := ⟨table, (c.service.promises.newSettled (.ok a)).2⟩
      history := .served k a :: c.history }
  | (.pending _, table) => { c with service := { c.service with table } }
  | (.absent, table) =>
    let (p, promises) := promised c.service.promises fetched
    let w : CacheWatch κ α := ⟨k, p, accepts⟩
    { c with
      service := ⟨table.begin k p, promises⟩
      unwatched := w :: c.unwatched
      history := .made w :: c.history }

/-- Watches a request, of which the table is to be told at once if it is settled. -/
def watch (c : Course ω κ α ε) (i : Nat) : Course ω κ α ε :=
  match c.unwatched[i]? with
  | some w =>
    let (now, promises) := c.service.promises.register w.promise w
    { c with
      service := { c.service with promises }
      unwatched := c.unwatched.eraseIdx i
      due := (now.map (w, ·)).toList ++ c.due }
  | none => c

/-- Settles a promise. The table is to be told of what was watched. -/
def settle (c : Course ω κ α ε) (p : Id) (o : Except ε α) : Course ω κ α ε :=
  match c.service.promises.settle? p o with
  | some (watches, promises) =>
    { c with service := { c.service with promises }, due := watches.map (·, o) ++ c.due }
  | none => c

variable (retain : ω → CacheWatch κ α → α → Bool)

/-- Tells the table of the outcome of a request. -/
def tell (c : Course ω κ α ε) (w : CacheWatch κ α) (o : Except ε α) : Course ω κ α ε :=
  { c with
    service.table := c.service.table.finish w.key w.promise o (retain c.world w)
    history := .told w o c.world :: c.history }

/-- Tells the table of one of the requests that are due. -/
def tellAt (c : Course ω κ α ε) (i : Nat) : Course ω κ α ε :=
  match c.due[i]? with
  | some (w, o) => { c.tell retain w o with due := c.due.eraseIdx i }
  | none => c

/-- What a step comes to. -/
def after (c : Course ω κ α ε) : CacheStep ω κ α ε → Course ω κ α ε
  | .ask k fetched accepts => c.ask k fetched accepts
  | .watch i => c.watch i
  | .settle p o => c.settle p o
  | .tell i => c.tellAt retain i
  | .purge k => { c with service := c.service.purge k, history := .purged k :: c.history }
  | .drift world => { c with world }

/-- Steps one after the other. -/
def afterAll (c : Course ω κ α ε) (steps : List (CacheStep ω κ α ε)) : Course ω κ α ε :=
  steps.foldl (after retain) c

/-- The requests that were made, latest first. -/
def requests (c : Course ω κ α ε) : List (CacheWatch κ α) := c.history.filterMap made?

/-- The requests of which the table was told, latest first. -/
def told (c : Course ω κ α ε) : List (CacheWatch κ α) := c.history.filterMap told?

/-- The requests that wait for no promise: they are not watched yet, or they are settled. -/
def settling (c : Course ω κ α ε) : List (CacheWatch κ α) :=
  c.unwatched ++ (c.due.map (·.1) ++ c.told)

variable {c : Course ω κ α ε} {w : CacheWatch κ α} {e : CacheEvent ω κ α ε} {k : κ} {p q : Id}
  {a : α} {o : Except ε α}

@[simp] lemma mem_requests : w ∈ c.requests ↔ .made w ∈ c.history := by
  rw [requests, List.mem_filterMap]
  refine ⟨fun ⟨e, he, hw⟩ => ?_, fun h => ⟨_, h, rfl⟩⟩
  cases e <;> cases hw
  exact he

@[simp] lemma mem_told : w ∈ c.told ↔ ∃ o world, .told w o world ∈ c.history := by
  rw [told, List.mem_filterMap]
  refine ⟨fun ⟨e, he, hw⟩ => ?_, fun ⟨o, world, h⟩ => ⟨_, h, rfl⟩⟩
  cases e <;> cases hw
  exact ⟨_, _, he⟩

omit [DecidableEq κ] in
lemma handsOut_promised (s : Store α ε (CacheWatch κ α)) (fetched : Option (Except ε α)) :
    s.HandsOut (promised s fetched).2 (promised s fetched).1 := by
  cases fetched <;> exact Store.handsOut_add _

omit [DecidableEq κ] in
lemma continuations_promised (s : Store α ε (CacheWatch κ α)) (fetched : Option (Except ε α)) :
    (promised s fetched).2.continuations (promised s fetched).1 = [] := by
  cases fetched with
  | some o => exact Store.continuations_of_outcome (Store.outcome?_newSettled o)
  | none => rw [promised, Store.continuations, Store.cell?_new]

omit [DecidableEq κ] in
/-- Taking out one of a list. -/
lemma perm_eraseIdx {β : Type} {l : List β} {i : Nat} {b : β} (h : l[i]? = some b) :
    (b :: l.eraseIdx i).Perm l := by
  obtain ⟨hi, rfl⟩ := List.getElem?_eq_some_iff.1 h
  exact List.getElem_cons_eraseIdx_perm hi

/-! ## Where requests are -/

/-- What holds of requests at any time: each has a promise of its own, and is in one place. -/
structure Tracked (c : Course ω κ α ε) : Prop where
  own : (c.requests.map (·.promise)).Nodup
  known : ∀ w ∈ c.requests, c.service.promises.Known w.promise
  made : ∀ w ∈ c.settling, w ∈ c.requests
  once : (c.settling.map (·.promise)).Nodup
  waiting : ∀ p, ∀ w ∈ c.service.promises.continuations p,
    c.service.promises.continuations p = [w] ∧ w.promise = p ∧ w ∈ c.requests ∧ w ∉ c.settling
  due : ∀ w o, (w, o) ∈ c.due → c.service.promises.outcome? w.promise = some o
  told : ∀ w o world, .told w o world ∈ c.history →
    c.service.promises.outcome? w.promise = some o

lemma tracked_fresh (capacity : Nat) (world : ω) :
    (fresh capacity world : Course ω κ α ε).Tracked where
  own := List.nodup_nil
  known _ hw := nomatch hw
  made _ hw := nomatch hw
  once := List.nodup_nil
  waiting _ _ hw := nomatch hw
  due _ _ hw := nomatch hw
  told _ _ _ hw := nomatch hw

namespace Tracked

/-- The promise tells which request it is. -/
lemma eq_of_promise (h : c.Tracked) {w w' : CacheWatch κ α} (hw : w ∈ c.requests)
    (hw' : w' ∈ c.requests) (he : w.promise = w'.promise) : w = w' :=
  List.inj_on_of_nodup_map h.own hw hw' he

/-- The promise of a request that is in none of these places is in none of them. -/
lemma notMem_promises (h : c.Tracked) (hw : w ∈ c.requests) (hout : w ∉ c.settling) :
    w.promise ∉ c.settling.map (·.promise) := by
  rw [List.mem_map]
  rintro ⟨w', hw', he⟩
  exact hout (h.eq_of_promise (h.made w' hw') hw he ▸ hw')

/-! ### Asking -/

/-- Where requests are does not depend on what the table holds. -/
lemma table (h : c.Tracked) (table : CacheTable κ α) :
    Tracked { c with service.table := table } :=
  ⟨h.own, h.known, h.made, h.once, h.waiting, h.due, h.told⟩

/-- What happens to others is noted. -/
lemma note (h : c.Tracked) (hmade : e.made? = none) (htold : e.told? = none) :
    Tracked { c with history := e :: c.history } := by
  have hrequests : requests { c with history := e :: c.history } = c.requests :=
    List.filterMap_cons_none hmade
  have hold : Course.told { c with history := e :: c.history } = c.told :=
    List.filterMap_cons_none htold
  have hsettling : settling { c with history := e :: c.history } = c.settling := by
    simp only [settling, hold]
  refine ⟨?_, ?_, ?_, ?_, ?_, h.due, fun w o world hw => ?_⟩
  · rw [hrequests]
    exact h.own
  · rw [hrequests]
    exact h.known
  · rw [hrequests, hsettling]
    exact h.made
  · rw [hsettling]
    exact h.once
  · rw [hrequests, hsettling]
    exact h.waiting
  · rcases List.mem_cons.1 hw with rfl | hw
    · cases htold
    · exact h.told w o world hw

/-- One more promise is handed out, for which nobody waits yet. -/
lemma handsOut {promises : Store α ε (CacheWatch κ α)} (h : c.Tracked)
    (hout : c.service.promises.HandsOut promises p) (hnone : promises.continuations p = []) :
    Tracked { c with service.promises := promises } where
  own := h.own
  known w hw := hout.known_mono (h.known w hw)
  made := h.made
  once := h.once
  waiting q w hw := by
    change w ∈ promises.continuations q at hw
    change promises.continuations q = [w] ∧ _
    obtain hold | rfl := hout.mem_continuations hw
    · have hknown := Store.known_of_mem_continuations hold
      have hsame : promises.continuations q = c.service.promises.continuations q := by
        rw [Store.continuations, hout.cells q hknown, Store.continuations]
      rw [hsame]
      exact h.waiting q w hold
    · rw [hnone] at hw
      cases hw
  due w o hw := hout.persists.outcome _ _ (h.due w o hw)
  told w o world hw := hout.persists.outcome _ _ (h.told w o world hw)

/-- A request is made, whose promise belongs to no other request. -/
lemma request (h : c.Tracked) (hknown : c.service.promises.Known w.promise)
    (hfresh : ∀ w' ∈ c.requests, w'.promise ≠ w.promise)
    (hnone : c.service.promises.continuations w.promise = []) :
    Tracked { c with unwatched := w :: c.unwatched, history := .made w :: c.history } where
  own := by
    change ((w :: c.requests).map (·.promise)).Nodup
    rw [List.map_cons, List.nodup_cons, List.mem_map]
    exact ⟨fun ⟨w', hw', he⟩ => hfresh w' hw' he, h.own⟩
  known := List.forall_mem_cons.2 ⟨hknown, h.known⟩
  made w' hw' := by
    change w' ∈ w :: c.settling at hw'
    change w' ∈ w :: c.requests
    rcases List.mem_cons.1 hw' with rfl | hw'
    · exact List.mem_cons_self
    · exact List.mem_cons_of_mem _ (h.made w' hw')
  once := by
    change ((w :: c.settling).map (·.promise)).Nodup
    rw [List.map_cons, List.nodup_cons, List.mem_map]
    exact ⟨fun ⟨w', hw', he⟩ => hfresh w' (h.made w' hw') he, h.once⟩
  waiting p w' hw' := by
    obtain ⟨hone, hpromise, hmade, hout⟩ := h.waiting p w' hw'
    refine ⟨hone, hpromise, List.mem_cons_of_mem _ hmade, ?_⟩
    change w' ∉ w :: c.settling
    rw [List.mem_cons, not_or]
    exact ⟨fun he => hfresh w' hmade (he ▸ rfl), hout⟩
  due := h.due
  told w' o world hw' := by
    rcases List.mem_cons.1 hw' with he | hw'
    · cases he
    · exact h.told w' o world hw'

/-! ### Watching, settling and telling -/

/-- A request goes from one place to another. -/
lemma moves {c' : Course ω κ α ε} (h : c.Tracked)
    (hpromises : c'.service.promises = c.service.promises)
    (hrequests : c'.requests = c.requests) (hperm : c'.settling.Perm c.settling)
    (hdue : ∀ w o, (w, o) ∈ c'.due → c.service.promises.outcome? w.promise = some o)
    (htold : ∀ w o world, .told w o world ∈ c'.history →
      c.service.promises.outcome? w.promise = some o) : c'.Tracked := by
  refine ⟨?_, ?_, fun w hw => ?_, ?_, fun p w hw => ?_, ?_, ?_⟩
  · rw [hrequests]
    exact h.own
  · rw [hrequests, hpromises]
    exact h.known
  · rw [hrequests]
    exact h.made w (hperm.subset hw)
  · exact (hperm.map _).nodup_iff.2 h.once
  · rw [hpromises] at hw ⊢
    rw [hrequests, hperm.mem_iff]
    exact h.waiting p w hw
  · rw [hpromises]
    exact hdue
  · rw [hpromises]
    exact htold

/-- A request waits for its promise from now on. -/
lemma waits {promises : Store α ε (CacheWatch κ α)} {unwatched : List (CacheWatch κ α)}
    (h : c.Tracked) (hperm : (w :: (unwatched ++ (c.due.map (·.1) ++ c.told))).Perm c.settling)
    (hwaits : promises.continuations w.promise = [w])
    (hknown : ∀ q, promises.Known q ↔ c.service.promises.Known q)
    (hothers : ∀ q ≠ w.promise, promises.cell? q = c.service.promises.cell? q)
    (houtcome : ∀ q, promises.outcome? q = c.service.promises.outcome? q) :
    Tracked { c with service.promises := promises, unwatched := unwatched } where
  own := h.own
  known w' hw' := (hknown _).2 (h.known w' hw')
  made w' hw' := h.made w' (hperm.subset (List.mem_cons_of_mem _ hw'))
  once := (List.nodup_cons.1 ((hperm.map _).nodup_iff.2 h.once)).2
  waiting q w' hw' := by
    by_cases hq : q = w.promise
    · subst hq
      change w' ∈ promises.continuations w.promise at hw'
      rw [hwaits] at hw'
      obtain rfl := List.mem_singleton.1 hw'
      have hout := (List.nodup_cons.1 ((hperm.map _).nodup_iff.2 h.once)).1
      exact ⟨hwaits, rfl, h.made w' (hperm.subset List.mem_cons_self),
        fun hmem => hout (List.mem_map_of_mem hmem)⟩
    · have hsame : promises.continuations q = c.service.promises.continuations q := by
        rw [Store.continuations, hothers q hq, Store.continuations]
      change w' ∈ promises.continuations q at hw'
      rw [hsame] at hw'
      obtain ⟨hone, hpromise, hmade, hout⟩ := h.waiting q w' hw'
      exact ⟨hsame.trans hone, hpromise, hmade,
        fun hmem => hout (hperm.subset (List.mem_cons_of_mem _ hmem))⟩
  due w' o hw' := (houtcome _).trans (h.due w' o hw')
  told w' o world hw' := (houtcome _).trans (h.told w' o world hw')

/-- A request is watched from now on. -/
lemma watch (h : c.Tracked) (i : Nat) : (c.watch i).Tracked := by
  unfold Course.watch
  split
  case h_2 => exact h
  case h_1 w hi =>
    have hperm := perm_eraseIdx hi
    have hw : w ∈ c.unwatched := hperm.subset List.mem_cons_self
    have hsettling : w ∈ c.settling := List.mem_append_left _ hw
    have hknown := h.known w (h.made w hsettling)
    cases ho : c.service.promises.outcome? w.promise with
    | some o =>
      -- the table is to be told at once
      rw [Store.register_of_outcome ho]
      refine h.moves rfl rfl ?_ (fun w' o' hw' => ?_) h.told
      · change (c.unwatched.eraseIdx i ++ (w :: (c.due.map (·.1) ++ c.told))).Perm _
        exact List.perm_middle.trans (hperm.append_right _)
      · rcases List.mem_cons.1 hw' with he | hw'
        · cases he
          exact ho
        · exact h.due w' o' hw'
    | none =>
      obtain ⟨ks, hcell⟩ := Store.pending_of_known hknown ho
      -- nobody waits for this promise yet
      have hks : ks = [] := by
        refine List.eq_nil_iff_forall_not_mem.2 fun w' hw' => ?_
        have hcont : c.service.promises.continuations w.promise = ks := by
          rw [Store.continuations, hcell]
        obtain ⟨-, hpromise, hmade, hout⟩ := h.waiting w.promise w' (hcont ▸ hw')
        exact hout (h.eq_of_promise hmade (h.made w hsettling) hpromise ▸ hsettling)
      subst hks
      have hregister : c.service.promises.register w.promise w =
          (none, (c.service.promises.register w.promise w).2) :=
        Prod.ext ((Store.register_fst _ _ _).trans ho) rfl
      rw [hregister]
      refine h.waits (w := w) (hperm.append_right _) ?_ (fun q => Store.known_register w)
        (fun q hq => Store.cell?_register_of_ne hq w) fun q => Store.outcome?_register _ _ _
      rw [Store.continuations_register hcell, List.nil_append]

/-- A promise is settled. -/
lemma settle (h : c.Tracked) (p : Id) (o : Except ε α) : (c.settle p o).Tracked := by
  unfold Course.settle
  split
  case h_2 => exact h
  case h_1 watches promises hs =>
    have hset := Store.settles_of_settle? hs
    have hout : promises.outcome? p = some o := hset.outcome p (List.mem_singleton_self p)
    have hpersists : c.service.promises.Persists promises :=
      hset.persists (List.forall_mem_singleton.2 ⟨watches, Store.cell?_of_settle? hs⟩)
    have hwatches : c.service.promises.continuations p = watches := by
      rw [Store.continuations, Store.cell?_of_settle? hs]
    have hwatch : ∀ w ∈ watches, watches = [w] ∧ w.promise = p ∧ w ∈ c.requests ∧ w ∉ c.settling :=
      fun w hw => hwatches ▸ h.waiting p w (hwatches.symm ▸ hw)
    have hperm : (c.unwatched ++ ((watches.map (·, o) ++ c.due).map (·.1) ++ c.told)).Perm
        (watches ++ c.settling) := by
      rw [List.map_append, List.map_map, List.append_assoc]
      refine (List.perm_append_comm_assoc _ _ _).trans ?_
      simp [settling, Function.comp_def]
    refine ⟨h.own, fun w hw => hpersists.known _ (h.known w hw), fun w hw => ?_, ?_,
      fun q w hw => ?_, fun w o' hw => ?_, fun w o' world hw => ?_⟩
    · rcases List.mem_append.1 (hperm.subset hw) with hw | hw
      · exact (hwatch w hw).2.2.1
      · exact h.made w hw
    · refine (hperm.map _).nodup_iff.2 ?_
      -- one request at most waits for this promise
      cases hwatches : watches with
      | nil => exact h.once
      | cons w ws =>
        obtain ⟨hone, -, hmade, hout⟩ := hwatch w (by rw [hwatches]; exact List.mem_cons_self)
        rw [hwatches, List.cons.injEq] at hone
        obtain ⟨-, rfl⟩ := hone
        exact List.nodup_cons.2 ⟨h.notMem_promises hmade hout, h.once⟩
    · change w ∈ promises.continuations q at hw
      have hq : q ≠ p := by
        rintro rfl
        rw [Store.continuations_of_outcome hout] at hw
        cases hw
      have hsame : promises.continuations q = c.service.promises.continuations q := by
        rw [Store.continuations, hset.others q (by rwa [List.mem_singleton]), Store.continuations]
      rw [hsame] at hw
      obtain ⟨hone, hpromise, hmade, houtside⟩ := h.waiting q w hw
      refine ⟨hsame.trans hone, hpromise, hmade, fun hmem => ?_⟩
      rcases List.mem_append.1 (hperm.subset hmem) with hmem | hmem
      · exact hq (hpromise.symm.trans (hwatch w hmem).2.1)
      · exact houtside hmem
    · rcases List.mem_append.1 hw with hw | hw
      · obtain ⟨w', hw', he⟩ := List.mem_map.1 hw
        cases he
        exact (hwatch w hw').2.1 ▸ hout
      · exact hpersists.outcome _ _ (h.due w o' hw)
    · exact hpersists.outcome _ _ (h.told w o' world hw)

/-- The table is told of a request. -/
lemma tellAt (retain : ω → CacheWatch κ α → α → Bool) (h : c.Tracked) (i : Nat) :
    (c.tellAt retain i).Tracked := by
  unfold Course.tellAt
  split
  case h_2 => exact h
  case h_1 w o hi =>
    have hperm := perm_eraseIdx hi
    have hdue : (w, o) ∈ c.due := hperm.subset List.mem_cons_self
    refine h.moves rfl rfl ?_
      (fun w' o' hw' => h.due w' o' (hperm.subset (List.mem_cons_of_mem _ hw')))
      fun w' o' world hw' => ?_
    · change (c.unwatched ++ ((c.due.eraseIdx i).map (·.1) ++ w :: c.told)).Perm _
      exact (List.perm_middle.trans ((hperm.map _).append_right _)).append_left _
    · rcases List.mem_cons.1 hw' with he | hw'
      · cases he
        exact h.due w o hdue
      · exact h.told w' o' world hw'

/-- A key is asked for. -/
lemma ask (h : c.Tracked) (k : κ) (fetched : Option (Except ε α)) (accepts : α → Bool) :
    (c.ask k fetched accepts).Tracked := by
  unfold Course.ask
  split
  · rename_i a table hl
    have hout := Store.handsOut_add (s := c.service.promises) (.settled (.ok a))
    have hanswer := h.handsOut hout (Store.continuations_of_outcome (Store.outcome?_newSettled _))
    exact (hanswer.table table).note rfl rfl
  · exact h.table _
  · rename_i table hl
    -- the promise is new: no request has it, and nobody waits for it
    have hout := handsOut_promised c.service.promises fetched
    have hnone := continuations_promised c.service.promises fetched
    refine ((h.handsOut hout hnone).request (w := ⟨k, _, accepts⟩) hout.known_self ?_ hnone).table _
    exact fun w hw => hout.ne (h.known w hw)

/-- Along every course. -/
lemma after (h : c.Tracked) (step : CacheStep ω κ α ε) : (c.after retain step).Tracked := by
  cases step with
  | ask k fetched accepts => exact h.ask k fetched accepts
  | watch i => exact h.watch i
  | settle p o => exact h.settle p o
  | tell i => exact h.tellAt retain i
  | purge k => exact (h.table (c.service.table.purge k)).note rfl rfl
  | drift world => exact ⟨h.own, h.known, h.made, h.once, h.waiting, h.due, h.told⟩

end Tracked

end Course

end ConsensusLink
