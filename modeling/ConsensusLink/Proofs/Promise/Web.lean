import ConsensusLink.Proofs.Promise.Pending
import Mathlib.Data.List.Perm.Basic
import Mathlib.Data.List.Nodup
/-!
# Hooks of mapped promises

To map a promise is to make another one and to register a hook that settles it, with a function of
the value or with the same failure. A `Web` is a store of promises amid such hooks and any others.
Promises are made, mapped and settled in any order, and the hooks that are due run in any order, by
whoever settled the promise or registered them; so what is shown holds whichever hooks run inline,
one inside the other or interleaved. The functions are arbitrary; all promises of a web hold values
of one type, which may be a sum.

Every hook of a mapping is in one place: it waits for the source, or it is due since the source is
settled, or it has run once. `Woven` says so, and what follows for the outcome of the target.
-/

namespace ConsensusLink.Promise

variable {α ε κ : Type}

/-- What runs when a promise is settled. -/
inductive Hook (α κ : Type) where
  /-- Settles another promise with a function of the value, or with the same failure. -/
  | maps (target : Id) (f : α → α)
  /-- Anything else. -/
  | other (k : κ)

/-- A promise that is mapped, the promise that this gives, and the function. -/
structure Mapping (α : Type) where
  /-- The promise that is mapped. -/
  source : Id
  /-- The promise that is returned. -/
  target : Id
  /-- The function. -/
  f : α → α

/-- Promises with the hooks that are due. -/
structure Web (α ε κ : Type) where
  /-- The promises. -/
  promises : Store α ε (Hook α κ) := .empty
  /-- The hooks that are to run, each with the outcome of its promise. -/
  due : List (Hook α κ × Except ε α) := []
  /-- The mappings that were made, latest first. -/
  mappings : List (Mapping α) := []
  /-- The targets of the hooks that have run, each with the outcome of the source, latest first. The
  function was applied to the values among these outcomes. -/
  ran : List (Id × Except ε α) := []
  /-- The promises that were settled otherwise than by a hook. -/
  meddled : List Id := []

/-- What can happen to promises. -/
inductive Move (α ε κ : Type) where
  /-- A promise is made, which may be settled. -/
  | make (outcome : Option (Except ε α))
  /-- A promise is mapped. -/
  | map (p : Id) (f : α → α)
  /-- Another hook is registered. -/
  | attach (p : Id) (k : κ)
  /-- A promise is settled by anybody. -/
  | settle (p : Id) (outcome : Except ε α)
  /-- One of the hooks that are due runs. -/
  | run (position : Nat)

/-- The promise that a hook settles. -/
def Hook.target? : Hook α κ → Option Id
  | maps t _ => some t
  | other _ => none

/-- What waits for a promise. -/
def Cell.waiting : Cell α ε κ → List κ
  | .pending ks => ks
  | .settled _ => []

/-- What waits for promises. -/
def Store.waiting (s : Store α ε κ) : List κ := s.cells.flatMap Cell.waiting

namespace Web

/-- Gives a promise its outcome, if it has none. What has waited for it is due. -/
def settle (n : Web α ε κ) (p : Id) (o : Except ε α) : Web α ε κ :=
  match n.promises.settle? p o with
  | some (hooks, promises) => { n with promises, due := hooks.map (·, o) ++ n.due }
  | none => n

/-- Registers a hook, which is due at once if the promise is settled. -/
def register (n : Web α ε κ) (p : Id) (h : Hook α κ) : Web α ε κ :=
  let (now, promises) := n.promises.register p h
  { n with promises, due := (now.map (h, ·)).toList ++ n.due }

/-- Runs a hook. -/
def run (n : Web α ε κ) (o : Except ε α) : Hook α κ → Web α ε κ
  | .maps t f => { n with ran := (t, o) :: n.ran }.settle t (o.map f)
  | .other _ => n

/-- What a move comes to. -/
def after (n : Web α ε κ) : Move α ε κ → Web α ε κ
  | .make none => { n with promises := n.promises.new.2 }
  | .make (some o) => { n with promises := (n.promises.newSettled o).2 }
  | .map p f =>
    if (n.promises.cell? p).isSome then
      let (t, promises) := n.promises.new
      { n with promises, mappings := ⟨p, t, f⟩ :: n.mappings }.register p (.maps t f)
    else n
  | .attach p k => if (n.promises.cell? p).isSome then n.register p (.other k) else n
  | .settle p o =>
    if n.promises.isSettled p then n
    else { n with meddled := p :: n.meddled }.settle p o
  | .run i =>
    match n.due[i]? with
    | some (h, o) => { n with due := n.due.eraseIdx i }.run o h
    | none => n

/-- Moves one after the other. -/
def afterAll (n : Web α ε κ) (moves : List (Move α ε κ)) : Web α ε κ := moves.foldl after n

/-- The hooks that have not run. -/
def hooks (n : Web α ε κ) : List (Hook α κ) := n.promises.waiting ++ n.due.map (·.1)

/-- The targets of the hooks that have not run, and of those that have. -/
def targets (n : Web α ε κ) : List Id := n.hooks.filterMap Hook.target? ++ n.ran.map (·.1)

end Web

/-! ## Where hooks are -/

namespace Store

variable {s s' : Store α ε κ} {p : Id} {k : κ}

lemma waiting_add (c : Cell α ε κ) : (s.add c).2.waiting = s.waiting ++ c.waiting := by
  simp [waiting, add]

/-- What waits does so for some promise. -/
lemma mem_waiting (h : k ∈ s.waiting) : ∃ p, k ∈ s.continuations p := by
  obtain ⟨c, hc, hk⟩ := List.mem_flatMap.1 h
  obtain ⟨i, hi, rfl⟩ := List.getElem_of_mem hc
  refine ⟨⟨i⟩, ?_⟩
  rw [continuations, cell?, List.getElem?_eq_getElem hi]
  cases hc : s.cells[i] with
  | pending ks =>
    rw [hc] at hk
    exact hk
  | settled o =>
    rw [hc] at hk
    cases hk

/-- Replacing one of a list that is joined. -/
lemma perm_flatMap_set {β γ : Type} (f : β → List γ) {l : List β} {i : Nat} {b : β}
    (h : l[i]? = some b) (b' : β) :
    (f b ++ (l.set i b').flatMap f).Perm (f b' ++ l.flatMap f) := by
  induction l generalizing i with
  | nil => cases h
  | cons c l ih =>
    cases i with
    | zero =>
      cases h
      simp only [List.set_cons_zero, List.flatMap_cons, ← List.append_assoc]
      exact List.perm_append_comm.append_right _
    | succ i =>
      simp only [List.set_cons_succ, List.flatMap_cons]
      exact (List.perm_append_comm_assoc _ _ _).trans
        (((ih h).append_left _).trans (List.perm_append_comm_assoc _ _ _))

/-- What is handed back waits no longer. -/
lemma perm_waiting_settle? {o : Except ε α} {ks : List κ} (h : s.settle? p o = some (ks, s')) :
    (ks ++ s'.waiting).Perm s.waiting := by
  have hcell := cell?_of_settle? h
  have hs : s' = ⟨s.cells.set p.index (.settled o)⟩ := by
    rw [settle?, hcell] at h
    cases h
    rfl
  rw [hs]
  exact perm_flatMap_set Cell.waiting hcell (.settled o)

/-- What is registered waits, or it is handed back. -/
lemma perm_waiting_register (h : s.Known p) (k : κ) :
    (((s.register p k).1.map fun _ => k).toList ++ (s.register p k).2.waiting).Perm
      (k :: s.waiting) := by
  rcases hc : s.cell? p with _ | ks | o
  · exact absurd h (Nat.not_lt.2 (List.getElem?_eq_none_iff.1 hc))
  · have hperm := perm_flatMap_set Cell.waiting hc (.pending (ks ++ [k]))
    rw [register, hc]
    simp only [Cell.waiting, List.append_assoc] at hperm
    exact (List.perm_append_left_iff ks).1 hperm
  · rw [register, hc]
    exact .refl _

/-- What waits after a hook was registered. -/
lemma continuations_of_register {q : Id} {k' : κ}
    (h : k' ∈ (s.register p k).2.continuations q) :
    k' ∈ s.continuations q ∨ q = p ∧ k' = k := by
  by_cases hq : q = p
  · subst hq
    rcases hc : s.cell? q with _ | ks | o
    · rw [register, hc] at h
      exact .inl h
    · rw [continuations_register hc] at h
      rw [continuations, hc]
      exact (List.mem_append.1 h).imp_right fun hk => ⟨rfl, List.mem_singleton.1 hk⟩
    · rw [register, hc] at h
      exact .inl h
  · rw [continuations, cell?_register_of_ne hq] at h
    exact .inl h

end Store

namespace Web

variable {n n' : Web α ε κ} {p t : Id} {f : α → α} {o : Except ε α} {m : Mapping α}
  {added : List (Id × Hook α κ)} {settled : List Id}

/-- How promises and hooks change when hooks are added and promises settled: no hook is lost, and a
hook is due only when its promise is settled. -/
structure Shifts (n n' : Web α ε κ) (added : List (Id × Hook α κ)) (settled : List Id) : Prop where
  persists : n.promises.Persists n'.promises
  hooks : n'.hooks.Perm (added.map (·.2) ++ n.hooks)
  waits : ∀ p h, h ∈ n'.promises.continuations p → h ∈ n.promises.continuations p ∨ (p, h) ∈ added
  due : ∀ h o, (h, o) ∈ n'.due → (h, o) ∈ n.due ∨
    ∃ p, (h ∈ n.promises.continuations p ∨ (p, h) ∈ added) ∧ n'.promises.outcome? p = some o
  unsettled : ∀ p, n.promises.Known p → p ∉ settled → n.promises.outcome? p = none →
    n'.promises.outcome? p = none

lemma settle_frame (n : Web α ε κ) (p : Id) (o : Except ε α) :
    ∃ promises due, n.settle p o = { n with promises, due } := by
  unfold settle
  split
  · exact ⟨_, _, rfl⟩
  · exact ⟨n.promises, n.due, rfl⟩

lemma shifts_settle (n : Web α ε κ) (p : Id) (o : Except ε α) :
    n.Shifts (n.settle p o) [] [p] := by
  unfold settle
  split
  · rename_i hooks promises hs
    have hset := Store.settles_of_settle? hs
    have hcell := Store.cell?_of_settle? hs
    refine ⟨hset.persists (List.forall_mem_singleton.2 ⟨_, hcell⟩), ?_, fun q h hq => ?_,
      fun h o' hh => ?_, fun q _ hq ho => (hset.outcome?_of_notMem hq).trans ho⟩
    · have hperm := Store.perm_waiting_settle? hs
      have hmap : (hooks.map (·, o)).map (·.1) = hooks := by simp [Function.comp_def]
      rw [Web.hooks, List.map_append, hmap, List.map_nil, List.nil_append, Web.hooks,
        ← List.append_assoc]
      exact (List.perm_append_comm.trans hperm).append_right _
    · by_cases hqp : q = p
      · subst hqp
        rw [Store.continuations_of_outcome (hset.outcome q (List.mem_singleton_self q))] at hq
        cases hq
      · rw [Store.continuations, hset.others q (by rwa [List.mem_singleton])] at hq
        exact .inl hq
    · rcases List.mem_append.1 hh with hh | hh
      · obtain ⟨h', hh', he⟩ := List.mem_map.1 hh
        cases he
        refine .inr ⟨p, .inl ?_, hset.outcome p (List.mem_singleton_self p)⟩
        rwa [Store.continuations, hcell]
      · exact .inl hh
  · exact ⟨.refl _, .refl _, fun _ _ => .inl, fun _ _ => .inl, fun _ _ _ => id⟩

lemma due_register (n : Web α ε κ) (p : Id) (h : Hook α κ) :
    (n.register p h).due = ((n.promises.outcome? p).map (h, ·)).toList ++ n.due := by
  rw [← Store.register_fst n.promises p h]
  rfl

lemma shifts_register (hp : n.promises.Known p) (h : Hook α κ) :
    n.Shifts (n.register p h) [(p, h)] [] := by
  have hout := fun q => Store.outcome?_register (s := n.promises) p q h
  refine ⟨⟨fun q => (Store.known_register h).2, fun q o ho => (hout q).trans ho⟩, ?_,
    fun q h' hq => ?_, fun h' o hh => ?_, fun q _ _ ho => (hout q).trans ho⟩
  · have hperm := Store.perm_waiting_register hp h
    rw [Store.register_fst] at hperm
    have hmap : (((n.promises.outcome? p).map (h, ·)).toList ++ n.due).map (·.1) =
        ((n.promises.outcome? p).map fun _ => h).toList ++ n.due.map (·.1) := by
      cases n.promises.outcome? p <;> rfl
    rw [hooks, due_register, hmap, ← List.append_assoc]
    exact (List.perm_append_comm.trans hperm).append_right _
  · obtain hq | ⟨rfl, rfl⟩ := Store.continuations_of_register hq
    · exact .inl hq
    · exact .inr (List.mem_singleton_self _)
  · rw [due_register] at hh
    rcases List.mem_append.1 hh with hh | hh
    · obtain ⟨o', ho', he⟩ := Option.map_eq_some_iff.1 (Option.mem_toList.1 hh)
      cases he
      exact .inr ⟨p, .inr (List.mem_singleton_self _), (hout p).trans ho'⟩
    · exact .inl hh

/-- A promise is made for which nothing waits. -/
lemma shifts_add {c : Cell α ε (Hook α κ)} (hc : c.waiting = []) :
    n.Shifts { n with promises := (n.promises.add c).2 } [] [] := by
  have hout := Store.handsOut_add (s := n.promises) c
  refine ⟨hout.persists, ?_, fun q h hq => ?_, fun _ _ => .inl, fun q hq _ ho => ?_⟩
  · rw [hooks, Store.waiting_add, hc, List.append_nil]
    exact .refl _
  · obtain hq | rfl := hout.mem_continuations hq
    · exact .inl hq
    · change h ∈ (n.promises.add c).2.continuations _ at hq
      rw [Store.continuations, Store.cell?_add_self] at hq
      cases c with
      | pending ks =>
        obtain rfl : ks = [] := hc
        cases hq
      | settled o => cases hq
  · exact (hout.outcome?_eq hq).trans ho

/-! ## Every hook in one place -/

/-- What hooks stand for. -/
structure Sound (n : Web α ε κ) : Prop where
  known : ∀ m ∈ n.mappings, n.promises.Known m.target
  waits : ∀ p t f, .maps t f ∈ n.promises.continuations p → ⟨p, t, f⟩ ∈ n.mappings
  due : ∀ t f o, (.maps t f, o) ∈ n.due →
    ∃ p, ⟨p, t, f⟩ ∈ n.mappings ∧ n.promises.outcome? p = some o
  /-- A hook that has run has settled its target, unless somebody else has. -/
  ran : ∀ t o, (t, o) ∈ n.ran → ∃ p f, ⟨p, t, f⟩ ∈ n.mappings ∧
    n.promises.outcome? p = some o ∧
    (t ∉ n.meddled → n.promises.outcome? t = some (o.map f))
  /-- Before that the target is not settled, unless by somebody else. -/
  untouched : ∀ m ∈ n.mappings, m.target ∉ n.meddled → m.target ∉ n.ran.map (·.1) →
    n.promises.outcome? m.target = none

/-- What every move preserves: the hook of each mapping is in one place. -/
structure Woven (n : Web α ε κ) : Prop extends Sound n where
  own : (n.mappings.map (·.target)).Nodup
  placed : n.targets.Perm (n.mappings.map (·.target))

lemma woven_empty : ({} : Web α ε κ).Woven where
  known _ hm := nomatch hm
  waits _ _ _ hp := nomatch hp
  due _ _ _ hd := nomatch hd
  ran _ _ hr := nomatch hr
  untouched _ hm := nomatch hm
  own := List.nodup_nil
  placed := .refl _

/-- Hooks are added for new mappings, and promises are settled by hooks or by somebody else. -/
lemma Sound.shifts (h : n.Sound) (hs : n.Shifts n' added settled)
    (hold : ∀ m ∈ n.mappings, m ∈ n'.mappings)
    (hnew : ∀ m ∈ n'.mappings, m ∈ n.mappings ∨ n'.promises.Pending m.target)
    (hadded : ∀ p t f, (p, .maps t f) ∈ added → ⟨p, t, f⟩ ∈ n'.mappings)
    (hmeddled : ∀ p ∈ n.meddled, p ∈ n'.meddled)
    (hsettled : ∀ p ∈ settled, p ∈ n'.meddled ∨ p ∈ n'.ran.map (·.1))
    (hsub : ∀ e ∈ n.ran, e ∈ n'.ran)
    (hran : ∀ t o, (t, o) ∈ n'.ran → (t, o) ∈ n.ran ∨
      ∃ p f, ⟨p, t, f⟩ ∈ n.mappings ∧ n.promises.outcome? p = some o ∧
        (t ∉ n'.meddled → n'.promises.outcome? t = some (o.map f))) : n'.Sound where
  known m hm := by
    obtain hm | hp := hnew m hm
    · exact hs.persists.known _ (h.known m hm)
    · exact hp.known
  waits p t f hw := by
    obtain hw | hadd := hs.waits p _ hw
    · exact hold _ (h.waits p t f hw)
    · exact hadded p t f hadd
  due t f o hd := by
    obtain hd | ⟨p, hw | hadd, ho⟩ := hs.due _ o hd
    · obtain ⟨p, hm, ho⟩ := h.due t f o hd
      exact ⟨p, hold _ hm, hs.persists.outcome p o ho⟩
    · exact ⟨p, hold _ (h.waits p t f hw), ho⟩
    · exact ⟨p, hadded p t f hadd, ho⟩
  ran t o hr := by
    obtain hr | ⟨p, f, hm, ho, ht⟩ := hran t o hr
    · obtain ⟨p, f, hm, ho, ht⟩ := h.ran t o hr
      refine ⟨p, f, hold _ hm, hs.persists.outcome p o ho, fun hnot => ?_⟩
      exact hs.persists.outcome t _ (ht fun hmem => hnot (hmeddled t hmem))
    · exact ⟨p, f, hold _ hm, hs.persists.outcome p o ho, ht⟩
  untouched m hm hnot hnotran := by
    obtain hm | hp := hnew m hm
    · refine hs.unsettled _ (h.known m hm) (fun hmem => ?_) (h.untouched m hm ?_ ?_)
      · exact (hsettled _ hmem).elim hnot hnotran
      · exact fun hmem => hnot (hmeddled _ hmem)
      · intro hmem
        obtain ⟨e, he, hfst⟩ := List.mem_map.1 hmem
        exact hnotran (List.mem_map.2 ⟨e, hsub e he, hfst⟩)
    · exact hp.outcome?_eq

lemma targets_shifts (hs : n.Shifts n' added settled) (hran : n'.ran = n.ran) :
    n'.targets.Perm ((added.map (·.2)).filterMap Hook.target? ++ n.targets) := by
  have hperm := hs.hooks.filterMap Hook.target?
  rw [List.filterMap_append] at hperm
  rw [targets, targets, hran, ← List.append_assoc]
  exact hperm.append_right _

namespace Woven

/-- Hooks that map nothing are added, and promises settled by somebody. -/
lemma shifts (h : n.Woven) (hs : n.Shifts n' added settled)
    (hmappings : n'.mappings = n.mappings) (hran : n'.ran = n.ran)
    (hadded : ∀ e ∈ added, e.2.target? = none) (hmeddled : ∀ p ∈ n.meddled, p ∈ n'.meddled)
    (hsettled : ∀ p ∈ settled, p ∈ n'.meddled) : n'.Woven where
  toSound := by
    refine h.toSound.shifts hs (fun m hm => hmappings ▸ hm) (fun m hm => .inl (hmappings ▸ hm))
      (fun p t f hadd => ?_) hmeddled (fun p hp => .inl (hsettled p hp)) (fun e he => hran ▸ he)
      (fun t o hr => .inl (hran ▸ hr))
    cases hadded _ hadd
  own := hmappings ▸ h.own
  placed := by
    have hnone : (added.map (·.2)).filterMap Hook.target? = [] := by
      rw [List.filterMap_eq_nil_iff]
      intro k hk
      obtain ⟨e, he, rfl⟩ := List.mem_map.1 hk
      exact hadded e he
    have hperm := targets_shifts hs hran
    rw [hnone, List.nil_append] at hperm
    rw [hmappings]
    exact hperm.trans h.placed

lemma map (h : n.Woven) (p : Id) (f : α → α) : (n.after (.map p f)).Woven := by
  rw [after]
  split
  · rename_i hsome
    obtain ⟨c, hc⟩ := Option.isSome_iff_exists.1 hsome
    have hadd : n.Shifts { n with promises := n.promises.new.2 } [] [] :=
      shifts_add (c := .pending []) rfl
    have h₀ : Woven { n with promises := n.promises.new.2 } :=
      h.shifts hadd rfl rfl nofun (fun _ => id) nofun
    have hknown : n.promises.new.2.Known p := hadd.persists.known p (Store.known_of_cell hc)
    have hreg := shifts_register (n := { n with promises := n.promises.new.2 }) hknown
      (.maps n.promises.new.1 f)
    have hpending : (n.promises.new.2.register p (.maps n.promises.new.1 f)).2.Pending
        n.promises.new.1 := Store.pending_new.register _ _
    refine
      { toSound := h₀.toSound.shifts ⟨hreg.persists, hreg.hooks, hreg.waits, hreg.due,
          hreg.unsettled⟩ (fun m hm => List.mem_cons_of_mem _ hm) (fun m hm => ?_)
          (fun p t f hmem => ?_) (fun _ => id) nofun (fun _ => id) fun _ _ => .inl
        own := ?_
        placed := ?_ }
    · rcases List.mem_cons.1 hm with rfl | hm
      · exact .inr hpending
      · exact .inl hm
    · cases List.mem_singleton.1 hmem
      exact List.mem_cons_self
    · -- the target is a new promise
      refine List.nodup_cons.2 ⟨fun hmem => ?_, h.own⟩
      obtain ⟨m, hm, he⟩ := List.mem_map.1 hmem
      exact Store.not_known_add (.pending []) (he ▸ h.known m hm)
    · have hperm := targets_shifts hreg rfl
      exact hperm.trans (h₀.placed.cons _)
  · exact h

/-- A hook runs: it is due no longer, and its target is settled. -/
lemma runs (h : n.Woven) {i : Nat} {k : Hook α κ} (hi : n.due[i]? = some (k, o)) :
    (({ n with due := n.due.eraseIdx i } : Web α ε κ).run o k).Woven := by
  obtain ⟨hlt, hget⟩ := List.getElem?_eq_some_iff.1 hi
  have hperm : ((k, o) :: n.due.eraseIdx i).Perm n.due :=
    hget ▸ List.getElem_cons_eraseIdx_perm hlt
  have hhooks : (k :: hooks { n with due := n.due.eraseIdx i }).Perm n.hooks := by
    rw [hooks, hooks]
    exact List.perm_middle.symm.trans ((hperm.map (·.1)).append_left _)
  have hsound : Sound { n with due := n.due.eraseIdx i } :=
    ⟨h.known, h.waits, fun t f o hd => h.due t f o (List.mem_of_mem_eraseIdx hd), h.ran,
      h.untouched⟩
  have htargets := (hhooks.filterMap Hook.target?).append_right (n.ran.map (·.1))
  cases k with
  | other k => exact ⟨hsound, h.own, htargets.trans h.placed⟩
  | maps t f =>
    obtain ⟨p, hm, ho⟩ := h.due t f o (List.mem_of_getElem? hi)
    obtain ⟨promises, due, he⟩ :=
      settle_frame { n with due := n.due.eraseIdx i, ran := (t, o) :: n.ran } t (o.map f)
    have hs := shifts_settle { n with due := n.due.eraseIdx i, ran := (t, o) :: n.ran } t (o.map f)
    have hnotran : t ∉ n.ran.map (·.1) := by
      have hnodup := h.placed.nodup_iff.2 h.own
      have hmem : t ∈ n.hooks.filterMap Hook.target? :=
        List.mem_filterMap.2 ⟨.maps t f, hhooks.subset List.mem_cons_self, rfl⟩
      exact (List.disjoint_of_nodup_append hnodup) hmem
    have houtcome : t ∉ n.meddled → promises.outcome? t = some (o.map f) := by
      intro hnot
      have hpending := Store.pending_of_known (h.known _ hm) (h.untouched _ hm hnot hnotran)
      obtain ⟨ks, promises', -, hsettle⟩ := hpending.exists_settle? (o.map f)
      rw [settle, hsettle] at he
      cases he
      exact Store.outcome?_of_settle? hsettle
    have hperm := targets_shifts hs (by rw [he])
    rw [run, he] at *
    refine
      { toSound := hsound.shifts ⟨hs.persists, hs.hooks, hs.waits, hs.due, hs.unsettled⟩
          (fun _ => id) (fun _ => .inl) nofun (fun _ => id)
          (List.forall_mem_singleton.2 (.inr List.mem_cons_self))
          (fun e he => List.mem_cons_of_mem _ he) fun t' o' hr => ?_
        own := h.own
        placed := (hperm.trans List.perm_middle).trans (htargets.trans h.placed) }
    rcases List.mem_cons.1 hr with hr | hr
    · cases hr
      exact .inr ⟨p, f, hm, ho, houtcome⟩
    · exact .inl hr

lemma after (h : n.Woven) (move : Move α ε κ) : (n.after move).Woven := by
  cases move with
  | make o =>
    cases o with
    | none => exact h.shifts (shifts_add (c := .pending []) rfl) rfl rfl nofun (fun _ => id) nofun
    | some o => exact h.shifts (shifts_add (c := .settled o) rfl) rfl rfl nofun (fun _ => id) nofun
  | map p f => exact h.map p f
  | attach p k =>
    rw [Web.after]
    split
    · rename_i hsome
      obtain ⟨c, hc⟩ := Option.isSome_iff_exists.1 hsome
      refine h.shifts (shifts_register (Store.known_of_cell hc) (.other k)) rfl rfl ?_
        (fun _ => id) nofun
      exact List.forall_mem_singleton.2 rfl
    · exact h
  | settle p o =>
    rw [Web.after]
    split
    · exact h
    · obtain ⟨promises, due, he⟩ := settle_frame { n with meddled := p :: n.meddled } p o
      have hs := shifts_settle { n with meddled := p :: n.meddled } p o
      rw [he] at hs ⊢
      exact h.shifts ⟨hs.persists, hs.hooks, hs.waits, hs.due, hs.unsettled⟩ rfl rfl nofun
        (fun q hq => List.mem_cons_of_mem _ hq) (List.forall_mem_singleton.2 List.mem_cons_self)
  | run i =>
    rw [Web.after]
    split
    · rename_i k o hi
      exact h.runs hi
    · exact h

lemma afterAll (h : n.Woven) (moves : List (Move α ε κ)) : (n.afterAll moves).Woven := by
  induction moves generalizing n with
  | nil => exact h
  | cons move moves ih => exact ih (h.after move)

end Woven

end Web

end ConsensusLink.Promise
