/-!
# Positions, batch numbers and block heights

The execution node and the consensus node speak about three kinds of 64-bit numbers: positions in
the message log, numbers of batches and heights of base layer blocks. Each is a type of its own,
so that one is never taken for another. A position also serves as a count: a count of `n` covers
the positions below `n`.
-/

namespace ConsensusLink

/-- A position in the message log, or a count of messages. -/
structure MessageIndex where
  /-- The position as a 64-bit word. -/
  word : UInt64
deriving DecidableEq, Inhabited, Repr

/-- The sequence number of a batch. -/
structure BatchNumber where
  /-- The number as a 64-bit word. -/
  word : UInt64
deriving DecidableEq, Inhabited, Repr

/-- The height of a base layer block. -/
structure BlockHeight where
  /-- The height as a 64-bit word. -/
  word : UInt64
deriving DecidableEq, Inhabited, Repr

namespace MessageIndex

/-- The position as a natural number. -/
def toNat (i : MessageIndex) : Nat := i.word.toNat

/-- The position `n`, for `n` below `2 ^ 64`. -/
def ofNat (n : Nat) : MessageIndex := ⟨UInt64.ofNat n⟩

instance : LE MessageIndex := ⟨fun i j => i.toNat ≤ j.toNat⟩
instance : LT MessageIndex := ⟨fun i j => i.toNat < j.toNat⟩
instance (i j : MessageIndex) : Decidable (i ≤ j) := inferInstanceAs (Decidable (i.toNat ≤ j.toNat))
instance (i j : MessageIndex) : Decidable (i < j) := inferInstanceAs (Decidable (i.toNat < j.toNat))

theorem le_def {i j : MessageIndex} : i ≤ j ↔ i.toNat ≤ j.toNat := Iff.rfl
theorem lt_def {i j : MessageIndex} : i < j ↔ i.toNat < j.toNat := Iff.rfl

theorem toNat_inj {i j : MessageIndex} : i.toNat = j.toNat ↔ i = j := by
  cases i; cases j; simp [toNat, UInt64.toNat_inj]

theorem toNat_lt (i : MessageIndex) : i.toNat < UInt64.size := i.word.toNat_lt_size

theorem toNat_ofNat {n : Nat} (h : n < UInt64.size) : (ofNat n).toNat = n := by
  rw [toNat, ofNat, UInt64.toNat_ofNat', Nat.mod_eq_of_lt h]

theorem ofNat_toNat (i : MessageIndex) : ofNat i.toNat = i := by
  cases i; simp [ofNat, toNat]

/-- The larger of two positions. -/
def max (i j : MessageIndex) : MessageIndex := if i ≤ j then j else i

/-- The position right after this one; the last position is its own successor. -/
def next (i : MessageIndex) : MessageIndex :=
  if i.word = UInt64.ofNat (UInt64.size - 1) then i else ⟨i.word + 1⟩

/-- The position right before this one; the first position has none. -/
def prev? (i : MessageIndex) : Option MessageIndex :=
  if i.word = 0 then none else some ⟨i.word - 1⟩

theorem toNat_max (i j : MessageIndex) : (i.max j).toNat = Max.max i.toNat j.toNat := by
  unfold max
  split <;> rename_i h <;> simp only [le_def] at h <;> omega

theorem toNat_next (i : MessageIndex) : i.next.toNat = min (i.toNat + 1) (UInt64.size - 1) := by
  have hlt := i.toNat_lt
  unfold next
  split
  · rename_i h
    have : i.toNat = UInt64.size - 1 := by simp [toNat, h]
    omega
  · rename_i h
    have hne : i.toNat ≠ UInt64.size - 1 := by
      intro hc
      apply h
      apply UInt64.toNat_inj.1
      simpa [toNat] using hc
    simp only [toNat, UInt64.toNat_add, UInt64.toNat_one, UInt64.size] at *
    omega

theorem prev?_eq_some {i j : MessageIndex} (h : i.prev? = some j) : i.toNat = j.toNat + 1 := by
  unfold prev? at h
  split at h
  · simp at h
  · rename_i hne
    have hpos : i.word.toNat ≠ 0 := fun hc => hne (UInt64.toNat_inj.1 (by simpa using hc))
    have hlt := i.word.toNat_lt
    simp only [Option.some.injEq] at h
    subst h
    simp only [toNat, UInt64.toNat_sub, UInt64.toNat_one]
    omega

theorem prev?_eq_none_iff {i : MessageIndex} : i.prev? = none ↔ i.toNat = 0 := by
  unfold prev?
  split
  · rename_i h; simp [toNat, h]
  · rename_i h
    simp only [reduceCtorEq, toNat, false_iff]
    exact fun hc => h (UInt64.toNat_inj.1 (by simpa using hc))

instance : ToString MessageIndex := ⟨fun i => toString i.word⟩

end MessageIndex

namespace BatchNumber

/-- The batch number as a natural number. -/
def toNat (b : BatchNumber) : Nat := b.word.toNat

/-- The batch number `n`, for `n` below `2 ^ 64`. -/
def ofNat (n : Nat) : BatchNumber := ⟨UInt64.ofNat n⟩

instance : ToString BatchNumber := ⟨fun b => toString b.word⟩

end BatchNumber

namespace BlockHeight

/-- The height as a natural number. -/
def toNat (h : BlockHeight) : Nat := h.word.toNat

/-- The height `n`, for `n` below `2 ^ 64`. -/
def ofNat (n : Nat) : BlockHeight := ⟨UInt64.ofNat n⟩

instance : ToString BlockHeight := ⟨fun h => toString h.word⟩

end BlockHeight

end ConsensusLink
