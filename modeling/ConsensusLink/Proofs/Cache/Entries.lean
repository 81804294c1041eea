import ConsensusLink.Cache.Table
import Mathlib.Tactic.Common
/-!
# What caches hold

The entries of an `Lru` are what was written, and reading one leaves the entries as they are. A
table gets an entry only when the request of its key ends with a value that is accepted; what is
noted of requests otherwise, and what is served, adds nothing.
-/

namespace ConsensusLink

variable {κ α : Type} [DecidableEq κ] {k k' : κ} {a b : α}

namespace Lru

variable {t t' : Lru κ α} {e : κ × α}

lemma mem_of_peek? (h : t.peek? k = some a) : (k, a) ∈ t.entries := by
  obtain ⟨l₁, l₂, he, -⟩ := List.lookup_eq_some_iff.1 h
  rw [he]
  exact List.mem_append_right _ List.mem_cons_self

/-- Keys have one entry each. -/
lemma peek?_of_mem (h : (k, a) ∈ t.entries) : t.peek? k = some a := by
  obtain ⟨l₁, l₂, he⟩ := List.append_of_mem h
  refine List.lookup_eq_some_iff.2 ⟨l₁, l₂, he, fun e hmem => ?_⟩
  have hnodup := t.nodup
  rw [he, List.map_append, List.nodup_append] at hnodup
  have hne : e.1 ≠ k := hnodup.2.2 e.1 (List.mem_map_of_mem hmem) k (by simp)
  simpa using Ne.symm hne

lemma mem_put (h : e ∈ (t.put k a).entries) : e = (k, a) ∨ e ∈ t.entries := by
  rcases List.mem_cons.1 h with rfl | h
  · exact .inl rfl
  · exact .inr (List.mem_filter.1 (List.mem_of_mem_take h)).1

/-- Reading an entry shows what was written, and leaves the same entries. -/
lemma mem_of_get? (h : t.get? k = some (a, t')) :
    (k, a) ∈ t.entries ∧ ∀ e ∈ t'.entries, e ∈ t.entries := by
  rw [get?, Option.map_eq_some_iff] at h
  obtain ⟨b, hb, he⟩ := h
  obtain ⟨rfl, rfl⟩ := Prod.mk.inj he
  have hmem := mem_of_peek? hb
  refine ⟨hmem, fun e he => ?_⟩
  rcases mem_put he with rfl | he
  · exact hmem
  · exact he

end Lru

namespace CacheTable

variable {t t' t'' : CacheTable κ α} {news news' : κ → α → Prop}

/-- Whatever the second table would serve, the first one would, or it is news. -/
def Adds (t t' : CacheTable κ α) (news : κ → α → Prop) : Prop :=
  ∀ k a, t'.ready.peek? k = some a → t.ready.peek? k = some a ∨ news k a

lemma Adds.refl (t : CacheTable κ α) (news : κ → α → Prop) : Adds t t news :=
  fun _ _ => .inl

lemma Adds.trans (h : Adds t t' news) (h' : Adds t' t'' news') :
    Adds t t'' fun k a => news k a ∨ news' k a := by
  intro k a ha
  obtain ha | hnews := h' k a ha
  · exact (h k a ha).imp_right .inl
  · exact .inr (.inr hnews)

lemma Adds.mono (h : Adds t t' news) (hle : ∀ k a, news k a → news' k a) : Adds t t' news' :=
  fun k a ha => (h k a ha).imp_right (hle k a)

lemma adds_of_entries (h : ∀ e ∈ t'.ready.entries, e ∈ t.ready.entries) : Adds t t' news :=
  fun _ _ ha => .inl (Lru.peek?_of_mem (h _ (Lru.mem_of_peek? ha)))

lemma adds_lookup (t : CacheTable κ α) (k : κ) : Adds t (t.lookup k).2 news := by
  unfold lookup
  split
  · rename_i ready h
    exact adds_of_entries (Lru.mem_of_get? h).2
  · split <;> exact .refl t news

lemma adds_begin (t : CacheTable κ α) (k : κ) (p : Promise.Id) : Adds t (t.begin k p) news :=
  adds_of_entries fun _ => id

/-- A request that ends adds its value, if that is accepted. -/
lemma adds_finish {ε : Type} (t : CacheTable κ α) (k : κ) (p : Promise.Id) (o : Except ε α)
    (accepts : α → Bool) :
    Adds t (t.finish k p o accepts) fun k' a => k' = k ∧ o = .ok a ∧ accepts a = true := by
  unfold finish
  split
  · split
    · rename_i a
      split
      · rename_i haccepts
        intro k' b hb
        rcases Lru.mem_put (Lru.mem_of_peek? hb) with he | hmem
        · obtain ⟨rfl, rfl⟩ := Prod.mk.inj he
          exact .inr ⟨rfl, rfl, haccepts⟩
        · exact .inl (Lru.peek?_of_mem hmem)
      · exact adds_of_entries fun _ => id
    · exact adds_of_entries fun _ => id
  · exact .refl t _

end CacheTable

end ConsensusLink
