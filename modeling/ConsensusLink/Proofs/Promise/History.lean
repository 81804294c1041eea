import ConsensusLink.Promise.Program
import Mathlib.Data.List.Nodup
/-!
# Lawful histories of promises

A history tells what has happened to promises: who settled them and with what, who was refused,
which continuations were registered, and when they ran. Settlements and registrations are calls,
which may be made inside of one another; they are numbered, and a continuation is known by the call
that has registered it. `Law` says of everything that happens what must have happened before and
what must follow. While a program runs only part of this has happened, and the rest is planned; a
history is `Lawful` with its plan if the plan is all that is missing. It stays so when what is
planned next happens, and when a new call is made, whose own plan is put in front.
-/

namespace ConsensusLink.Promise

/-- What happens to promises. -/
inductive Occurrence where
  /-- The call has settled the promise. -/
  | settled (call : Nat) (p : Id) (o : Outcome Int64)
  /-- The call has found the promise settled. -/
  | refused (call : Nat) (p : Id)
  /-- The call has registered the continuation. -/
  | registered (call : Nat) (p : Id) (k : Continuation)
  /-- The continuation that the call has registered begins to run. It is given an outcome, while the
  promise shows what comes last. -/
  | ran (call : Nat) (p : Id) (k : Continuation) (o : Outcome Int64)
    (shown : Option (Outcome Int64))
  /-- The continuation that the call has registered has run to its end. -/
  | ended (call : Nat)
  /-- The call returns. -/
  | returned (call : Nat)

namespace Occurrence

/-- What can happen with a call. -/
inductive Kind where
  /-- The call is made. -/
  | begins
  /-- Its continuation begins to run. -/
  | runs
  /-- Its continuation ends. -/
  | ends
  /-- The call returns. -/
  | returns
deriving DecidableEq

/-- The call, and what happens with it. -/
def key : Occurrence → Kind × Nat
  | settled c _ _ | refused c _ | registered c _ _ => (.begins, c)
  | ran c _ _ _ _ => (.runs, c)
  | ended c => (.ends, c)
  | returned c => (.returns, c)

/-- The continuation that is registered on a promise, with its call. -/
def registrant? (p : Id) : Occurrence → Option (Nat × Continuation)
  | registered c q k => if q = p then some (c, k) else none
  | _ => none

end Occurrence

open Occurrence

/-- The continuations that were registered on a promise, in the order of registration. -/
def registrants (p : Id) (h : List Occurrence) : List (Nat × Continuation) :=
  h.filterMap (registrant? p)

/-- A continuation runs with an outcome that the promise shows. -/
def runOf (p : Id) (o : Outcome Int64) (e : Nat × Continuation) : List Occurrence :=
  [.ran e.1 p e.2 o (some o), .ended e.1]

/-- The continuations that were registered on a promise run, one after the other. -/
def runsOf (p : Id) (o : Outcome Int64) (h : List Occurrence) : List Occurrence :=
  (registrants p h).flatMap (runOf p o)

/-- The promise was settled with the outcome. -/
def Settled (h : List Occurrence) (p : Id) (o : Outcome Int64) : Prop := ∃ c, .settled c p o ∈ h

/-- What may be planned: the run of a continuation that was registered on a promise that was
settled, its end, and the return of a call. -/
def Plannable (h : List Occurrence) : Occurrence → Prop
  | .ran c p k o shown => .registered c p k ∈ h ∧ Settled h p o ∧ shown = some o
  | .ended _ | .returned _ => True
  | _ => False

/-- What must have happened before, and what must follow. -/
def Law (before : List Occurrence) (e : Occurrence) (after : List Occurrence) : Prop :=
  match e with
  | .settled c p o =>
    (∀ o', ¬Settled before p o') ∧ List.Sublist (runsOf p o before ++ [.returned c]) after
  | .refused c p => (∃ o, Settled before p o) ∧ .returned c ∈ after
  | .registered c p k =>
    (∀ o, Settled before p o → List.Sublist (runOf p o (c, k) ++ [.returned c]) after) ∧
      .returned c ∈ after
  | e => Plannable before e

/-- A history of a number of calls, together with what is planned. -/
structure Lawful (calls : Nat) (h plan : List Occurrence) : Prop where
  numbered : ∀ e ∈ h ++ plan, e.key.2 < calls
  once : ((h ++ plan).map key).Nodup
  law : ∀ b e r, h = b ++ e :: r → Law b e (r ++ plan)
  plannable : ∀ e ∈ plan, Plannable h e
  ends : ∀ c, .ended c ∈ h ++ plan → ∃ p k o shown, .ran c p k o shown ∈ h ++ plan

variable {h h' plan r r' : List Occurrence} {e : Occurrence} {c n : Nat} {p : Id}
  {o o' : Outcome Int64} {k : Continuation}

/-! ## What is known of histories -/

lemma lawful_nil : Lawful 0 [] [] where
  numbered _ he := nomatch he
  once := List.nodup_nil
  law b e r he := by cases b <;> cases he
  plannable _ he := nomatch he
  ends _ he := nomatch he

lemma Settled.append (hs : Settled h p o) (h' : List Occurrence) : Settled (h ++ h') p o :=
  hs.imp fun _ => List.mem_append_left h'

lemma Plannable.append (hp : Plannable h e) (h' : List Occurrence) : Plannable (h ++ h') e := by
  cases e with
  | ran c p k o shown => exact ⟨List.mem_append_left _ hp.1, hp.2.1.append h', hp.2.2⟩
  | ended c | returned c => trivial
  | settled | refused | registered => exact hp.elim

/-- What may be planned may happen. -/
lemma Plannable.law (hp : Plannable h e) (r : List Occurrence) : Law h e r := by
  cases e with
  | ran | ended | returned => exact hp
  | settled | refused | registered => exact hp.elim

/-- More may happen in between. -/
lemma Law.mono (hl : Law h e r) (hsub : List.Sublist r r') : Law h e r' := by
  cases e with
  | settled c p o => exact ⟨hl.1, hl.2.trans hsub⟩
  | refused c p => exact ⟨hl.1, hsub.subset hl.2⟩
  | registered c p k => exact ⟨fun o ho => (hl.1 o ho).trans hsub, hsub.subset hl.2⟩
  | ran | ended | returned => exact hl

lemma mem_registrants : (c, k) ∈ registrants p h ↔ .registered c p k ∈ h := by
  rw [registrants, List.mem_filterMap]
  constructor
  · rintro ⟨e, he, heq⟩
    cases e with
    | registered c' q k' =>
      rw [registrant?] at heq
      split at heq
      · rename_i hq
        cases heq
        exact hq ▸ he
      · cases heq
    | _ => cases heq
  · exact fun hmem => ⟨_, hmem, if_pos rfl⟩

lemma registrants_append (p : Id) (h h' : List Occurrence) :
    registrants p (h ++ h') = registrants p h ++ registrants p h' := List.filterMap_append

/-- Only what registers a continuation adds one. -/
lemma registrants_concat (hnone : registrant? p e = none) :
    registrants p (h ++ [e]) = registrants p h := by
  have hempty : registrants p [e] = [] := List.filterMap_cons_none hnone
  rw [registrants_append, hempty, List.append_nil]

/-- A place in a history that has grown by one. -/
lemma eq_concat {b : List Occurrence} {x : Occurrence} (he : h ++ [x] = b ++ e :: r) :
    (b = h ∧ e = x ∧ r = []) ∨ ∃ r', r = r' ++ [x] ∧ h = b ++ e :: r' := by
  rcases List.eq_nil_or_concat r with rfl | ⟨r', y, rfl⟩
  · obtain ⟨rfl, hlast⟩ := List.append_inj' he rfl
    exact .inl ⟨rfl, (List.cons.inj hlast).1.symm, rfl⟩
  · rw [List.concat_eq_append, ← List.cons_append, ← List.append_assoc] at he
    obtain ⟨rfl, hlast⟩ := List.append_inj' he rfl
    obtain rfl := (List.cons.inj hlast).1
    exact .inr ⟨r', List.concat_eq_append, rfl⟩

/-! ## Runs of continuations -/

section

variable {ks : List (Nat × Continuation)}

/-- What happens when continuations run before a call returns. -/
lemma mem_runs (he : e ∈ ks.flatMap (runOf p o) ++ [.returned n]) :
    (∃ x ∈ ks, e = .ran x.1 p x.2 o (some o) ∨ e = .ended x.1) ∨ e = .returned n := by
  refine (List.mem_append.1 he).imp (fun he => ?_) List.mem_singleton.1
  obtain ⟨x, hx, he⟩ := List.mem_flatMap.1 he
  exact ⟨x, hx, by simpa [runOf] using he⟩

/-- Continuations of different calls run, and end, with calls of their own. -/
lemma nodup_key_runs (hcall : e.key = (.begins, n)) (hnodup : (ks.map (·.1)).Nodup) :
    ((e :: (ks.flatMap (runOf p o) ++ [.returned n])).map key).Nodup := by
  have hkeys : (ks.flatMap (runOf p o)).map key =
      ks.flatMap fun x => [(.runs, x.1), (.ends, x.1)] := by
    rw [List.map_flatMap]
    rfl
  rw [List.map_cons, List.map_append, hkeys, hcall, List.nodup_cons, List.nodup_append,
    List.nodup_flatMap]
  refine ⟨?_, ⟨?_, ?_⟩, List.nodup_singleton _, ?_⟩
  · simp [key]
  · simp
  · rw [List.Nodup, List.pairwise_map] at hnodup
    refine hnodup.imp fun {x y} hne => ?_
    simp [Function.onFun, Ne.symm hne]
  · rintro a ha b hb rfl
    obtain rfl : a = (.returns, n) := by simpa [key] using hb
    simp at ha

end

namespace Lawful

variable (hl : Lawful n h plan)
include hl

/-- Two things that happen with a call in the same way are the same. -/
lemma eq_of_key {e e' : Occurrence} (he : e ∈ h ++ plan) (he' : e' ∈ h ++ plan)
    (hkey : e.key = e'.key) : e = e' :=
  List.inj_on_of_nodup_map hl.once he he' hkey

/-- Whatever runs was registered, on a promise that was settled. -/
lemma plannable_ran {shown : Option (Outcome Int64)} (hr : .ran c p k o shown ∈ h ++ plan) :
    Plannable h (.ran c p k o shown) := by
  rcases List.mem_append.1 hr with hr | hr
  · obtain ⟨b, r, rfl⟩ := List.append_of_mem hr
    exact Plannable.append (e := .ran c p k o shown) (hl.law b _ r rfl) _
  · exact hl.plannable _ hr

/-- A promise is settled once. -/
lemma settled_unique (hs : Settled h p o) (hs' : Settled h p o') : o = o' := by
  obtain ⟨c, hc⟩ := hs
  obtain ⟨c', hc'⟩ := hs'
  obtain ⟨b, r, rfl⟩ := List.append_of_mem hc
  rcases List.mem_append.1 hc' with hb | hr
  · exact absurd ⟨c', hb⟩ ((hl.law b _ r rfl).1 o')
  · rcases List.mem_cons.1 hr with he | hr
    · cases he
      rfl
    · -- then the later settlement was not lawful
      obtain ⟨r₁, r₂, rfl⟩ := List.append_of_mem hr
      have hlater := hl.law (b ++ .settled c p o :: r₁) (.settled c' p o') r₂ (by simp)
      exact absurd ⟨c, by simp⟩ (hlater.1 o)

/-- What waits for a promise did not run and is not planned. -/
lemma not_ran (hnot : ∀ o, ¬Settled h p o) (hreg : .registered c p k ∈ h) {q : Id}
    {k' : Continuation} {shown : Option (Outcome Int64)} :
    Occurrence.ran c q k' o shown ∉ h ++ plan := by
  intro hr
  obtain ⟨hreg', hs, -⟩ := hl.plannable_ran hr
  have he := hl.eq_of_key (List.mem_append_left _ hreg) (List.mem_append_left _ hreg') rfl
  cases he
  exact hnot o hs

/-! ## What happens next -/

/-- What is planned next happens. -/
lemma advance (hplan : plan = e :: r) : Lawful n (h ++ [e]) r := by
  subst hplan
  have hsame : h ++ [e] ++ r = h ++ e :: r := by simp
  refine ⟨?_, ?_, fun b e' r' he => ?_, fun e' he' => ?_, ?_⟩
  · rw [hsame]
    exact hl.numbered
  · rw [hsame]
    exact hl.once
  · obtain ⟨rfl, rfl, rfl⟩ | ⟨r₀, rfl, rfl⟩ := eq_concat he
    · exact (hl.plannable e' List.mem_cons_self).law _
    · rw [List.append_assoc]
      exact hl.law b e' r₀ rfl
  · exact (hl.plannable e' (List.mem_cons_of_mem _ he')).append _
  · rw [hsame]
    exact hl.ends

/-- A new call is made, and what it plans is put in front. -/
lemma call {q : List Occurrence} (hcall : e.key = (.begins, n)) (hlaw : Law h e q)
    (hnumbered : ∀ x ∈ q, x.key.2 < n + 1) (hplannable : ∀ x ∈ q, Plannable (h ++ [e]) x)
    (honce : ((e :: q).map key).Nodup)
    (hnew : ∀ x ∈ q, x.key.2 < n → ∀ y ∈ h ++ plan, x.key ≠ y.key)
    (hends : ∀ c, .ended c ∈ q → ∃ p k o shown, .ran c p k o shown ∈ q) :
    Lawful (n + 1) (h ++ [e]) (q ++ plan) := by
  -- the call and its plan stand between what has happened and what was planned
  have hperm : (h ++ [e] ++ (q ++ plan)).Perm (e :: q ++ (h ++ plan)) := by
    rw [List.append_assoc]
    exact List.perm_append_comm_assoc h (e :: q) plan
  refine ⟨fun x hx => ?_, ?_, fun b e' r' he => ?_, fun x hx => ?_, fun c hc => ?_⟩
  · rcases List.mem_append.1 (hperm.subset hx) with hx | hx
    · rcases List.mem_cons.1 hx with rfl | hx
      · rw [hcall]
        exact Nat.lt_succ_self n
      · exact hnumbered x hx
    · exact Nat.lt_succ_of_lt (hl.numbered x hx)
  · rw [(hperm.map key).nodup_iff, List.map_append, List.nodup_append]
    refine ⟨honce, hl.once, ?_⟩
    rintro _ hx _ hy rfl
    obtain ⟨x, hx, hkey⟩ := List.mem_map.1 hx
    obtain ⟨y, hy, hsame⟩ := List.mem_map.1 hy
    -- what shares a key with something old belongs to an old call
    have hlt : x.key.2 < n := by
      rw [hkey, ← hsame]
      exact hl.numbered y hy
    rcases List.mem_cons.1 hx with rfl | hx
    · rw [hcall] at hlt
      exact Nat.lt_irrefl n hlt
    · exact hnew x hx hlt y hy (hkey.trans hsame.symm)
  · obtain ⟨rfl, rfl, rfl⟩ | ⟨r₀, rfl, rfl⟩ := eq_concat he
    · exact hlaw.mono (List.sublist_append_left _ _)
    · -- what must follow still follows, though more happens before it
      refine (hl.law b e' r₀ rfl).mono ?_
      rw [List.append_assoc]
      refine List.Sublist.append_left ?_ r₀
      exact (List.sublist_append_right q plan).trans (List.sublist_append_right [e] _)
  · rcases List.mem_append.1 hx with hx | hx
    · exact hplannable x hx
    · exact (hl.plannable x hx).append _
  · rcases List.mem_append.1 (hperm.subset hc) with hc | hc
    · rcases List.mem_cons.1 hc with rfl | hc
      · cases hcall
      · obtain ⟨p, k, o, shown, hr⟩ := hends c hc
        exact ⟨p, k, o, shown, List.mem_append_right _ (List.mem_append_left _ hr)⟩
    · obtain ⟨p, k, o, shown, hr⟩ := hl.ends c hc
      exact ⟨p, k, o, shown, hperm.symm.subset (List.mem_append_right _ hr)⟩

/-- The calls of continuations that were registered on a promise. -/
lemma nodup_registrants (p : Id) : ((registrants p h).map (·.1)).Nodup := by
  have honce := hl.once
  rw [List.map_append] at honce
  have hkeys : (h.map key).Nodup := (List.nodup_append.1 honce).1
  rw [List.Nodup, List.pairwise_map] at hkeys ⊢
  refine List.pairwise_filterMap.2 (hkeys.imp fun hne x hx y hy he => hne ?_)
  -- a registration has the key of its call
  have hkey : ∀ {e : Occurrence} {x}, registrant? p e = some x → e.key = (.begins, x.1) := by
    intro e x hx
    cases e with
    | registered c q k =>
      rw [registrant?] at hx
      split at hx
      · cases hx
        rfl
      · cases hx
    | _ => cases hx
  rw [hkey hx, hkey hy, he]

/-- A new call is made, which runs continuations before it returns. -/
lemma callRuns (ks : List (Nat × Continuation)) (hcall : e.key = (.begins, n))
    (hlaw : Law h e (ks.flatMap (runOf p o) ++ [.returned n]))
    (hregistered : ∀ x ∈ ks, .registered x.1 p x.2 ∈ h ++ [e])
    (hsettled : ∀ x ∈ ks, Settled (h ++ [e]) p o) (hnodup : (ks.map (·.1)).Nodup)
    (hnew : ∀ x ∈ ks, x.1 < n → ∀ q k o shown, .ran x.1 q k o shown ∉ h ++ plan) :
    Lawful (n + 1) (h ++ [e]) (ks.flatMap (runOf p o) ++ .returned n :: plan) := by
  have hle : ∀ x ∈ ks, x.1 < n + 1 := by
    intro x hx
    rcases List.mem_append.1 (hregistered x hx) with hmem | hmem
    · exact Nat.lt_succ_of_lt (hl.numbered _ (List.mem_append_left _ hmem))
    · obtain rfl := List.mem_singleton.1 hmem
      cases hcall
      exact Nat.lt_succ_self _
  have hcall' := hl.call (q := ks.flatMap (runOf p o) ++ [.returned n]) hcall hlaw ?_ ?_
    (nodup_key_runs hcall hnodup) ?_ ?_
  · rwa [List.append_assoc] at hcall'
  · intro x hx
    obtain ⟨y, hy, rfl | rfl⟩ | rfl := mem_runs hx
    · exact hle y hy
    · exact hle y hy
    · exact Nat.lt_succ_self n
  · intro x hx
    obtain ⟨y, hy, rfl | rfl⟩ | rfl := mem_runs hx
    · exact ⟨hregistered y hy, hsettled y hy, rfl⟩
    · trivial
    · trivial
  · intro x hx hlt y hy hkey
    obtain ⟨z, hz, rfl | rfl⟩ | rfl := mem_runs hx
    · cases y with
      | ran c q k o' shown =>
        cases hkey
        exact hnew z hz hlt q k o' shown hy
      | _ => cases hkey
    · cases y with
      | ended c =>
        cases hkey
        obtain ⟨q, k, o', shown, hr⟩ := hl.ends _ hy
        exact hnew z hz hlt q k o' shown hr
      | _ => cases hkey
    · exact Nat.lt_irrefl n hlt
  · intro c hc
    obtain ⟨y, hy, hc | hc⟩ | hc := mem_runs hc
    · cases hc
    · cases hc
      refine ⟨p, y.2, o, some o, List.mem_append_left _ (List.mem_flatMap.2 ⟨y, hy, ?_⟩)⟩
      exact List.mem_cons_self
    · cases hc

/-- A promise that is not settled is settled: what waits for it is to run. -/
lemma settle (hnot : ∀ o, ¬Settled h p o) (o : Outcome Int64) :
    Lawful (n + 1) (h ++ [.settled n p o]) (runsOf p o h ++ .returned n :: plan) := by
  refine hl.callRuns (registrants p h) rfl ⟨hnot, List.Sublist.refl _⟩ (fun x hx => ?_)
    (fun _ _ => ?_) (hl.nodup_registrants p) fun x hx _ q k o' shown => ?_
  · exact List.mem_append_left _ (mem_registrants.1 hx)
  · exact ⟨n, List.mem_append_right _ List.mem_cons_self⟩
  · exact hl.not_ran hnot (mem_registrants.1 hx)

/-- A promise that is settled is not settled again. -/
lemma refuse (hs : Settled h p o) : Lawful (n + 1) (h ++ [.refused n p]) (.returned n :: plan) :=
  hl.callRuns (p := p) (o := o) [] rfl ⟨⟨o, hs⟩, List.mem_cons_self⟩ nofun nofun
    List.nodup_nil nofun

/-- A continuation is registered on a promise that is not settled. -/
lemma wait (hnot : ∀ o, ¬Settled h p o) (k : Continuation) :
    Lawful (n + 1) (h ++ [.registered n p k]) (.returned n :: plan) := by
  refine hl.callRuns (p := p) (o := .ok 0) [] rfl ⟨fun o ho => ?_, List.mem_cons_self⟩
    nofun nofun List.nodup_nil nofun
  exact absurd ho (hnot o)

/-- A continuation is registered on a promise that is settled: it is to run at once. -/
lemma runNow (hs : Settled h p o) (k : Continuation) :
    Lawful (n + 1) (h ++ [.registered n p k]) (runOf p o (n, k) ++ .returned n :: plan) := by
  refine hl.callRuns (p := p) (o := o) [(n, k)] rfl ⟨fun o' ho' => ?_, by simp⟩ ?_ ?_ ?_ ?_
  · rw [hl.settled_unique ho' hs]
    exact List.Sublist.refl _
  · intro x hx
    obtain rfl := List.mem_singleton.1 hx
    exact List.mem_append_right _ List.mem_cons_self
  · exact fun _ _ => hs.append _
  · exact List.nodup_singleton _
  · intro x hx hlt
    obtain rfl := List.mem_singleton.1 hx
    exact absurd hlt (Nat.lt_irrefl n)

end Lawful

end ConsensusLink.Promise
