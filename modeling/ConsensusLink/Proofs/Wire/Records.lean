import ConsensusLink.Wire.Record
import ConsensusLink.Proofs.Text.Reading
/-!
# Records that are written and read

A record is written as an object of the fields that are there, and read by the names of all its
fields. What is read are the values that were written, with those that were left out absent. What a
field holds is read the same way, be it a number, bytes or a field that may be absent.
-/

namespace ConsensusLink.Json

/-! ## Fields -/

lemma present_cons_some (name : String) (j : Json) (fields : List (String × Option Json)) :
    present ((name, some j) :: fields) = (name, j) :: present fields := rfl

lemma present_cons_none (name : String) (fields : List (String × Option Json)) :
    present ((name, none) :: fields) = present fields := rfl

/-- Only what has a name is found under it. -/
lemma filter_present_eq_nil {fields : List (String × Option Json)} {name : String}
    (h : name ∉ fields.map (·.1)) : (present fields).filter (·.1 = name) = [] := by
  rw [List.filter_eq_nil_iff]
  rintro ⟨other, j⟩ hmem
  obtain ⟨⟨other', j'⟩, hfield, he⟩ := List.mem_filterMap.1 hmem
  obtain ⟨j', -, he⟩ := Option.map_eq_some_iff.1 he
  cases he
  have hne : other' ≠ name := by
    rintro rfl
    exact h (List.mem_map_of_mem hfield)
  simpa using hne

/-- A field is found under its name, when no other field has this name. -/
lemma field?_present {fields : List (String × Option Json)} (hnodup : (fields.map (·.1)).Nodup)
    {name : String} {value : Option Json} (hmem : (name, value) ∈ fields) :
    field? (present fields) name = some value := by
  induction fields with
  | nil => cases hmem
  | cons field fields ih =>
    obtain ⟨other, j⟩ := field
    obtain ⟨hnew, hnodup⟩ := List.nodup_cons.1 hnodup
    rcases List.mem_cons.1 hmem with he | hmem
    · cases he
      have hrest := filter_present_eq_nil hnew
      cases value with
      | none => rw [present_cons_none, field?, hrest]
      | some value =>
        rw [present_cons_some, field?, List.filter_cons_of_pos (by simp), hrest]
    · have hne : other ≠ name := by
        rintro rfl
        exact hnew (List.mem_map.2 ⟨_, hmem, rfl⟩)
      have hread := ih hnodup hmem
      cases j with
      | none => rwa [present_cons_none]
      | some j => rwa [present_cons_some, field?, List.filter_cons_of_neg (by simpa using hne)]

/-- **A record is read as it was written**: each of its fields has the value that was written, or is
absent if it was left out. -/
lemma record?_present {fields : List (String × Option Json)}
    (hnodup : (fields.map (·.1)).Nodup) :
    (object (present fields)).record? (fields.map (·.1)) = some (fields.map (·.2)) := by
  have hread : ∀ some' : List (String × Option Json), (∀ field ∈ some', field ∈ fields) →
      (some'.map (·.1)).mapM (field? (present fields)) = some (some'.map (·.2)) := by
    intro some' hsub
    induction some' with
    | nil => rfl
    | cons field rest ih =>
      have hfield := field?_present hnodup (hsub field List.mem_cons_self)
      have hrest := ih fun field hmem => hsub field (List.mem_cons_of_mem _ hmem)
      simp [hfield, hrest]
  exact hread fields fun _ => id

/-- What is written of a field that may be absent is read again. -/
lemma optional?_map {α : Type} {read : Json → Option α} {write : α → Json}
    (hread : ∀ a, read (write a) = some a) (hnull : ∀ a, write a ≠ null) (value : Option α) :
    optional? read (value.map write) = some value := by
  cases value with
  | none => rfl
  | some a =>
    rw [Option.map_some, optional?]
    · rw [hread]
      rfl
    · exact hnull a

/-! ## What fields hold -/

lemma byte?_nat (b : UInt8) : byte? (nat b.toNat) = some b := by
  have hlt : b.toNat < UInt8.size := b.toNat_lt_size
  simp [byte?, nat, hlt]

lemma wide?_nat (fee : Fin wideSize) : wide? (nat fee.val) = some fee := by
  simp [wide?, nat, fee.isLt]

lemma bytes?_bytes (bs : Bytes) : bytes? (bytes bs) = some bs := by
  simp [bytes?, bytes, Hex.decode?_encode]

/-! ## What is plain -/

lemma membersPlain_present {fields : List (String × Option Json)}
    (h : ∀ field ∈ fields, ∀ j ∈ field.2, j.isPlain = true) :
    membersPlain (present fields) = true := by
  induction fields with
  | nil => rfl
  | cons field fields ih =>
    obtain ⟨name, value⟩ := field
    have hrest := ih fun field hmem => h field (List.mem_cons_of_mem _ hmem)
    cases value with
    | none => exact hrest
    | some j => exact Bool.and_eq_true_iff.2 ⟨h _ List.mem_cons_self j rfl, hrest⟩

end ConsensusLink.Json
