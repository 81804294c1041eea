import ConsensusLink.Proofs.Cache.Entries
import Mathlib.Data.Finset.Card
import Mathlib.Data.List.Nodup
/-!
# Which entries a cache keeps

A cache that is only read and written keeps the keys used last. Against the list of all uses, the
latest first, a key is in the cache exactly when fewer other keys than fit were used after its last
use, and the value is the one of that last use. The list `recency` says the order in which the
entries of an unbounded cache would stand; the cache is its beginning.
-/

namespace ConsensusLink

namespace Lru

variable {κ α : Type} [DecidableEq κ] {k : κ} {a : α} {t t' : Lru κ α} {uses : List (κ × α)}

/-- The uses, the latest first, without those that a later use of the same key has replaced. -/
def recency : List (κ × α) → List (κ × α)
  | [] => []
  | u :: uses => u :: without (recency uses) u.1

/-- The other keys that were used after the last use of a key. -/
def usedSince (uses : List (κ × α)) (k : κ) : Finset κ :=
  ((uses.takeWhile (·.1 ≠ k)).map (·.1)).toFinset

/-- The cache holds the entries used last. -/
def HoldsLast (t : Lru κ α) (uses : List (κ × α)) : Prop :=
  t.entries = (recency uses).take t.capacity

/-! ## The order of the entries -/

lemma mem_keys_recency : k ∈ (recency uses).map (·.1) ↔ k ∈ uses.map (·.1) := by
  induction uses with
  | nil => rfl
  | cons u uses ih =>
    by_cases hk : k = u.1
    · simp [recency, hk]
    · simp only [recency, List.map_cons, List.mem_cons, hk, false_or, ← ih, without, List.mem_map,
        List.mem_filter, ne_eq, decide_not, Bool.not_eq_true', decide_eq_false_iff_not]
      constructor
      · rintro ⟨e, ⟨he, -⟩, h⟩
        exact ⟨e, he, h⟩
      · rintro ⟨e, he, h⟩
        exact ⟨e, ⟨he, fun hc => hk (h.symm.trans hc)⟩, h⟩

lemma nodup_recency (uses : List (κ × α)) : ((recency uses).map (·.1)).Nodup := by
  induction uses with
  | nil => exact List.nodup_nil
  | cons u uses ih =>
    rw [recency, List.map_cons, List.nodup_cons]
    exact ⟨notMem_without _ _, nodup_without ih _⟩

/-- Uses of other keys come in front of what the earlier ones leave. -/
lemma recency_append (later earlier : List (κ × α)) :
    recency (later ++ earlier) =
      recency later ++ (recency earlier).filter (·.1 ∉ later.map (·.1)) := by
  induction later with
  | nil => simp [recency]
  | cons u later ih =>
    rw [List.cons_append, recency, ih, recency, List.cons_append, without, without,
      List.filter_append, List.filter_filter]
    congr 2
    refine List.filter_congr fun e _ => Bool.eq_iff_iff.2 ?_
    simp

/-- There are as many entries as keys that were used. -/
lemma length_recency (uses : List (κ × α)) :
    (recency uses).length = ((uses.map (·.1)).toFinset).card := by
  have hkeys : (uses.map (·.1)).toFinset = ((recency uses).map (·.1)).toFinset := by
    ext k
    rw [List.mem_toFinset, List.mem_toFinset, mem_keys_recency]
  rw [hkeys, List.toFinset_card_of_nodup (nodup_recency uses), List.length_map]

omit [DecidableEq κ] in
/-- The last use of a key splits the list of uses. -/
lemma exists_last_use (hk : k ∈ uses.map (·.1)) :
    ∃ later a earlier, uses = later ++ (k, a) :: earlier ∧ k ∉ later.map (·.1) := by
  obtain ⟨ks, ks', hks, hnot⟩ := List.eq_append_cons_of_mem hk
  obtain ⟨later, rest, rfl, rfl, hrest⟩ := List.map_eq_append_iff.1 hks
  obtain ⟨⟨_, a⟩, earlier, rfl, rfl, rfl⟩ := List.map_eq_cons_iff.1 hrest
  exact ⟨later, a, earlier, rfl, hnot⟩

lemma lookup_of_notMem {l : List (κ × α)} (hk : k ∉ l.map (·.1)) : l.lookup k = none := by
  refine List.lookup_eq_none_iff.2 fun e he => ?_
  simpa using fun hc : k = e.1 => hk (hc ▸ List.mem_map_of_mem he)

lemma lookup_append_cons {later : List (κ × α)} (hlater : k ∉ later.map (·.1)) (a : α)
    (earlier : List (κ × α)) : (later ++ (k, a) :: earlier).lookup k = some a := by
  refine List.lookup_eq_some_iff.2 ⟨later, earlier, rfl, fun e he => ?_⟩
  simpa using fun hc : k = e.1 => hlater (hc ▸ List.mem_map_of_mem he)

lemma usedSince_append_cons {later : List (κ × α)} (hlater : k ∉ later.map (·.1)) (a : α)
    (earlier : List (κ × α)) :
    usedSince (later ++ (k, a) :: earlier) k = (later.map (·.1)).toFinset := by
  have hne : ∀ u ∈ later, u.1 ≠ k := fun u hu hc => hlater (hc ▸ List.mem_map_of_mem hu)
  rw [usedSince, List.takeWhile_append_of_pos (by simpa using hne)]
  simp

/-- The beginning of the order holds the last use of a key unless too many other keys were used
after it. -/
lemma lookup_take_recency (uses : List (κ × α)) (k : κ) (n : Nat) :
    ((recency uses).take n).lookup k =
      if (usedSince uses k).card < n then uses.lookup k else none := by
  by_cases hk : k ∈ uses.map (·.1)
  · obtain ⟨later, a, earlier, rfl, hlater⟩ := exists_last_use hk
    have hfront : k ∉ (recency later).map (·.1) := fun h => hlater (mem_keys_recency.1 h)
    rw [usedSince_append_cons hlater, lookup_append_cons hlater, recency_append, recency,
      List.filter_cons_of_pos (by simpa using hlater), ← length_recency, List.take_append]
    split
    · rename_i hlt
      obtain ⟨m, hm⟩ : ∃ m, n - (recency later).length = m + 1 :=
        ⟨_, (Nat.succ_pred (by omega)).symm⟩
      rw [List.take_of_length_le (by omega), hm, List.take_succ_cons, lookup_append_cons hfront]
    · rename_i hge
      have hzero : n - (recency later).length = 0 := by omega
      rw [hzero, List.take_zero, List.append_nil]
      exact lookup_of_notMem fun h => hfront (((List.take_sublist n _).map _).subset h)
  · have htake : k ∉ ((recency uses).take n).map (·.1) := fun h =>
      hk (mem_keys_recency.1 (((List.take_sublist n _).map _).subset h))
    rw [lookup_of_notMem htake, lookup_of_notMem hk, ite_self]

/-- Dropping the entry of a key makes room for one more. -/
lemma take_without {l : List (κ × α)} (h : (l.map (·.1)).Nodup) (k : κ) (n : Nat) :
    (without (l.take (n + 1)) k).take n = (without l k).take n := by
  induction l generalizing n with
  | nil => rfl
  | cons e l ih =>
    rw [List.map_cons, List.nodup_cons] at h
    rw [List.take_succ_cons]
    by_cases he : e.1 = k
    · have hkeep : ∀ l' : List (κ × α), l'.Sublist l → without (e :: l') k = l' := by
        intro l' hl'
        rw [without, List.filter_cons_of_neg (by simpa using he), List.filter_eq_self]
        intro e' he'
        simpa using fun hc : e'.1 = k => h.1 (he ▸ hc ▸ List.mem_map_of_mem (hl'.subset he'))
      rw [hkeep _ (List.take_sublist n l), hkeep l (List.Sublist.refl l), List.take_take,
        Nat.min_self]
    · have hcons : ∀ l' : List (κ × α), without (e :: l') k = e :: without l' k :=
        fun l' => List.filter_cons_of_pos (by simpa using he)
      rw [hcons, hcons]
      cases n with
      | zero => rfl
      | succ n => rw [List.take_succ_cons, List.take_succ_cons, ih h.2]

/-! ## Reading and writing -/

lemma holdsLast_empty (capacity : Nat) : (empty capacity : Lru κ α).HoldsLast [] :=
  (List.take_nil).symm

lemma holdsLast_clear (t : Lru κ α) : t.clear.HoldsLast [] :=
  (List.take_nil).symm

namespace HoldsLast

lemma peek?_eq (h : t.HoldsLast uses) (k : κ) :
    t.peek? k = if (usedSince uses k).card < t.capacity then uses.lookup k else none := by
  rw [peek?, h, lookup_take_recency]

/-- What does not fit any more stood at the end. -/
lemma put (h : t.HoldsLast uses) (k : κ) (a : α) : (t.put k a).HoldsLast ((k, a) :: uses) := by
  obtain ⟨n, hn⟩ : ∃ n, t.capacity = n + 1 := ⟨_, (Nat.succ_pred t.capacity_pos.ne').symm⟩
  change (k, a) :: (without t.entries k).take (t.capacity - 1) =
    ((k, a) :: without (recency uses) k).take t.capacity
  rw [h, hn, Nat.add_sub_cancel, List.take_succ_cons, take_without (nodup_recency uses)]

end HoldsLast

end Lru

end ConsensusLink
