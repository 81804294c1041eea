import ConsensusLink.Text.JsonReader
import Mathlib.Tactic.Common
/-!
# Reading what is written

The compact text of a value is read as this value again, also where it stands in front of other
text, as long as this cannot be taken for more of a number. Left out are the values that have no
text of their own: numbers that are kept as they are written, and what is written but cannot be
read. So a `Plain` value survives being written and read, and two plain values with the same text
are the same.
-/

namespace ConsensusLink.Json

/-! ## Numbers -/

lemma value_toDigits (n : Nat) : Decimal.value (Nat.toDigits 10 n) = n := by
  have hfold : ∀ (ds : List Char) (m : Nat),
      ds.foldl (fun n d => n * 10 + (d.toNat - 48)) m = Nat.ofDigitChars 10 ds m := by
    intro ds m
    rw [Nat.ofDigitChars_eq_foldl]
    congr 1
    funext n d
    rw [Nat.mul_comm]
    rfl
  rw [Decimal.value, hfold, Nat.ofDigitChars_ten_toDigits]

/-- The digits of a positive number do not begin with a zero. -/
lemma toDigits_head {n : Nat} (h : 0 < n) : ∃ d ds, Nat.toDigits 10 n = d :: ds ∧ d ≠ '0' := by
  induction n using Nat.strongRecOn with
  | _ n ih =>
    by_cases hn : n < 10
    · refine ⟨n.digitChar, [], Nat.toDigits_of_lt_base hn, ?_⟩
      have : ∀ m : Fin 10, 0 < m.val → m.val.digitChar ≠ '0' := by decide
      exact this ⟨n, hn⟩ h
    · obtain ⟨d, ds, hd, hne⟩ := ih (n / 10) (by omega) (by omega)
      refine ⟨d, ds ++ [(n % 10).digitChar], ?_, hne⟩
      rw [Nat.toDigits_of_base_le (by omega) (by omega), hd, List.cons_append]

lemma isDigit_of_mem_toDigits {n : Nat} {c : Char} (h : c ∈ Nat.toDigits 10 n) :
    c.isDigit = true :=
  Nat.isDigit_of_mem_toDigits (by omega) (by omega) h

/-- What follows is no part of a number that stands in front of it. -/
def EndsNumber (rest : List Char) : Prop :=
  ∀ c ∈ rest.head?, c.isDigit = false ∧ c ≠ '.' ∧ c ≠ 'e' ∧ c ≠ 'E'

lemma endsNumber_nil : EndsNumber [] := nofun

lemma endsNumber_cons {c : Char} (h : c.isDigit = false ∧ c ≠ '.' ∧ c ≠ 'e' ∧ c ≠ 'E')
    (rest : List Char) : EndsNumber (c :: rest) := by
  rintro d hd
  cases hd
  exact h

lemma readDigits_append {ds rest : List Char} (hds : ∀ c ∈ ds, c.isDigit = true)
    (hrest : EndsNumber rest) : readDigits (ds ++ rest) = (ds, rest) := by
  have hstop : rest.takeWhile Char.isDigit = [] ∧ rest.dropWhile Char.isDigit = rest := by
    cases rest with
    | nil => exact ⟨rfl, rfl⟩
    | cons c rest =>
      have hc : c.isDigit = false := (hrest c rfl).1
      simp [hc]
  rw [readDigits, List.takeWhile_append_of_pos hds, List.dropWhile_append_of_pos hds, hstop.1,
    hstop.2, List.append_nil]

lemma readWhole?_toDigits (n : Nat) {rest : List Char} (hrest : EndsNumber rest) :
    readWhole? (Nat.toDigits 10 n ++ rest) = some (Nat.toDigits 10 n, rest) := by
  have hdigits := readDigits_append (fun c => isDigit_of_mem_toDigits (n := n)) hrest
  rw [readWhole?, hdigits]
  rcases Nat.eq_zero_or_pos n with rfl | hn
  · rfl
  · obtain ⟨d, ds, hd, hne⟩ := toDigits_head hn
    rw [hd]
    split
    · rename_i he
      cases he
    · rename_i he
      cases he
      exact absurd rfl hne
    · rfl

lemma readFraction?_of_ends {rest : List Char} (h : EndsNumber rest) :
    readFraction? rest = some ([], rest) := by
  unfold readFraction?
  split
  · exact absurd rfl (h '.' rfl).2.1
  · rfl

lemma readExponent?_of_ends {rest : List Char} (h : EndsNumber rest) :
    readExponent? rest = some ([], rest) := by
  cases rest with
  | nil => rfl
  | cons c rest =>
    obtain ⟨-, -, he, hE⟩ := h c rfl
    unfold readExponent?
    simp [he, hE]

lemma ne_of_isDigit {c d : Char} (hc : c.isDigit = true) (hd : d.isDigit = false) : c ≠ d := by
  rintro rfl
  exact absurd (hc.symm.trans hd) (by decide)

lemma toList_ofNat (n : Nat) : (toString (Int.ofNat n)).toList = Nat.toDigits 10 n :=
  Nat.toList_repr

lemma toList_negSucc (n : Nat) :
    (toString (Int.negSucc n)).toList = '-' :: Nat.toDigits 10 (n + 1) := by
  change ("-" ++ (n + 1).repr).toList = _
  rw [String.toList_append, Nat.toList_repr]
  rfl

/-- A whole number is read up to where it ends. -/
lemma readNumber?_int (i : Int) {rest : List Char} (hrest : EndsNumber rest) :
    readNumber? ((toString i).toList ++ rest) = some (int i, rest) := by
  cases i with
  | ofNat n =>
    -- the first digit is no sign
    obtain ⟨d, ds, hd⟩ := List.exists_cons_of_ne_nil (Nat.toDigits_ne_nil (n := n) (b := 10))
    have hne : d ≠ '-' :=
      ne_of_isDigit (isDigit_of_mem_toDigits (hd ▸ List.mem_cons_self)) (by decide)
    have hwhole := readWhole?_toDigits n hrest
    have hvalue := value_toDigits n
    rw [hd] at hwhole hvalue
    rw [toList_ofNat, hd]
    unfold readNumber?
    rw [List.cons_append] at hwhole ⊢
    simp [hne, hwhole, readFraction?_of_ends hrest, readExponent?_of_ends hrest, hvalue]
  | negSucc n =>
    -- a zero with a sign would be kept as it is written
    obtain ⟨d, ds, hd, hne⟩ := toDigits_head (n := n + 1) (by omega)
    have hzero : Nat.toDigits 10 (n + 1) ≠ ['0'] := by
      rw [hd]
      rintro he
      exact hne (List.cons.inj he).1
    have hwhole := readWhole?_toDigits (n + 1) hrest
    rw [toList_negSucc, List.cons_append]
    unfold readNumber?
    simp [hwhole, readFraction?_of_ends hrest, readExponent?_of_ends hrest, value_toDigits, hzero,
      Int.negSucc_eq]

/-! ## Texts -/

lemma codeUnit?_control {n : Nat} (h : n < 32) (rest : List Char) :
    codeUnit? ('0' :: '0' :: Hex.digit (n / 16) :: Hex.digit (n % 16) :: rest) =
      some (n, rest) := by
  have hzero : Hex.value? '0' = some 0 := rfl
  rw [codeUnit?, hzero, Hex.value?_digit (show n / 16 < 16 by omega),
    Hex.value?_digit (show n % 16 < 16 by omega)]
  simp only [Option.bind_eq_bind, Option.bind_some, Option.pure_def, Option.some.injEq,
    Prod.mk.injEq, and_true]
  omega

/-- Reading one more character in front of a text. -/
def inFront (c : Char) (r : Option (List Char) × List Char) : Option (List Char) × List Char :=
  (r.1.map (c :: ·), r.2)

/-- A letter after a backslash is read as the character that it stands for. -/
lemma readText?_letter {e c : Char} (hu : e ≠ 'u') (he : unescape? e = some c) (fuel : Nat)
    (rest : List Char) :
    readText? (fuel + 1) ('\\' :: e :: rest) = (readText? fuel rest).map (inFront c) := by
  rcases h : readText? fuel rest with _ | ⟨_ | cs, rest⟩ <;> simp [readText?, he, h] <;> rfl

/-- The code of a control character is read as this character. -/
lemma readText?_control {c : Char} (hc : c.toNat < 32) (fuel : Nat) (rest : List Char) :
    readText? (fuel + 1)
        ('\\' :: 'u' :: '0' :: '0' :: Hex.digit (c.toNat / 16) ::
          Hex.digit (c.toNat % 16) :: rest) =
      (readText? fuel rest).map (inFront c) := by
  have hunit : c.toNat < 0xD800 ∨ 0xDFFF < c.toNat := .inl (by omega)
  rcases h : readText? fuel rest with _ | ⟨_ | cs, rest⟩ <;>
    simp [readText?, codeUnit?_control hc, hunit, h] <;> rfl

/-- A character that needs no escape is read as it stands. -/
lemma readText?_plain {c : Char} (hquote : c ≠ '"') (hslash : c ≠ '\\') (hc : ¬ c.toNat < 32)
    (fuel : Nat) (rest : List Char) :
    readText? (fuel + 1) (c :: rest) = (readText? fuel rest).map (inFront c) := by
  rcases h : readText? fuel rest with _ | ⟨_ | cs, rest⟩ <;>
    simp [readText?, hslash, hc, h] <;> rfl

/-- A character is read as it was before it was escaped. -/
lemma readText?_escape (c : Char) (fuel : Nat) (rest : List Char) :
    readText? (fuel + 1) (escape c ++ rest) = (readText? fuel rest).map (inFront c) := by
  unfold escape
  split_ifs with h₁ h₂ h₃ h₄ h₅ h₆ h₇ h₈
  · exact readText?_letter (by decide) (by rw [h₁]; rfl) fuel rest
  · exact readText?_letter (by decide) (by rw [h₂]; rfl) fuel rest
  · exact readText?_letter (by decide) (by rw [h₃]; rfl) fuel rest
  · exact readText?_letter (by decide) (by rw [h₄]; rfl) fuel rest
  · exact readText?_letter (by decide) (by rw [h₅]; rfl) fuel rest
  · exact readText?_letter (by decide) (by rw [h₆]; rfl) fuel rest
  · exact readText?_letter (by decide) (by rw [h₇]; rfl) fuel rest
  · exact readText?_control h₈ fuel rest
  · exact readText?_plain h₁ h₂ h₈ fuel rest

/-- A text is read up to its closing quote. -/
lemma readText?_quoted (cs rest : List Char) {fuel : Nat} (hfuel : cs.length < fuel) :
    readText? fuel (cs.flatMap escape ++ '"' :: rest) = some (some cs, rest) := by
  induction cs generalizing fuel with
  | nil =>
    obtain ⟨fuel, rfl⟩ := Nat.exists_eq_add_one.2 hfuel
    rfl
  | cons c cs ih =>
    rw [List.length_cons] at hfuel
    obtain ⟨fuel, rfl⟩ := Nat.exists_eq_add_one.2 (Nat.zero_lt_of_lt hfuel)
    rw [List.flatMap_cons, List.append_assoc, readText?_escape, ih (by omega)]
    rfl

/-! ## Values -/

mutual

/-- Whether a value has a text of its own: it holds no number that is kept as it is written, and
nothing that cannot be read. -/
def isPlain : Json → Bool
  | decimal _ | unreadable => false
  | array items => itemsPlain items
  | object members => membersPlain members
  | null | bool _ | int _ | string _ => true

/-- Whether all items have texts of their own. -/
def itemsPlain : List Json → Bool
  | [] => true
  | item :: rest => item.isPlain && itemsPlain rest

/-- Whether the values of all members have texts of their own. -/
def membersPlain : List (String × Json) → Bool
  | [] => true
  | (_, item) :: rest => item.isPlain && membersPlain rest

end

lemma skipBlanks_cons {c : Char} (h : isBlank c = false) (cs : List Char) :
    skipBlanks (c :: cs) = c :: cs := by
  rw [skipBlanks, List.dropWhile_cons_of_neg (by simp [h])]

lemma toList_int (i : Int) :
    ∃ c cs, (toString i).toList = c :: cs ∧ (c = '-' ∨ c.isDigit = true) := by
  cases i with
  | ofNat n =>
    obtain ⟨d, ds, hd⟩ := List.exists_cons_of_ne_nil (Nat.toDigits_ne_nil (n := n) (b := 10))
    exact ⟨d, ds, (toList_ofNat n).trans hd,
      .inr (isDigit_of_mem_toDigits (hd ▸ List.mem_cons_self))⟩
  | negSucc n => exact ⟨_, _, toList_negSucc n, .inl rfl⟩

/-- What neither a digit nor a sign can be. -/
lemma ne_of_begins {c d : Char} (h : c = '-' ∨ c.isDigit = true) (hd : d.isDigit = false)
    (hsign : d ≠ '-') : c ≠ d := by
  rcases h with rfl | h
  · exact hsign.symm
  · exact ne_of_isDigit h hd

lemma isBlank_of_begins {c : Char} (h : c = '-' ∨ c.isDigit = true) : isBlank c = false := by
  have hne : ∀ d, d.isDigit = false → d ≠ '-' → c ≠ d := fun d => ne_of_begins h
  simp [isBlank, hne ' ' (by decide) (by decide), hne '\n' (by decide) (by decide),
    hne '\t' (by decide) (by decide), hne '\r' (by decide) (by decide)]

/-- The text of a value begins with no blank and with no bracket that closes. -/
lemma chars_begin {j : Json} (h : j.isPlain = true) :
    ∃ c cs, j.chars = c :: cs ∧ isBlank c = false ∧ c ≠ ']' := by
  cases j with
  | null => exact ⟨_, _, rfl, by decide, by decide⟩
  | bool b => cases b <;> exact ⟨_, _, rfl, by decide, by decide⟩
  | int i =>
    obtain ⟨c, cs, hc, hbegins⟩ := toList_int i
    exact ⟨c, cs, hc, isBlank_of_begins hbegins, ne_of_begins hbegins (by decide) (by decide)⟩
  | string s => exact ⟨_, _, rfl, by decide, by decide⟩
  | array items => exact ⟨_, _, rfl, by decide, by decide⟩
  | object members => exact ⟨_, _, rfl, by decide, by decide⟩
  | decimal literal => cases h
  | unreadable => cases h

/-- What begins like a number is read as one. -/
lemma readValue?_number {c : Char} (h : c = '-' ∨ c.isDigit = true) (fuel : Nat)
    (cs : List Char) : readValue? (fuel + 1) (c :: cs) = readNumber? (c :: cs) := by
  have hne : ∀ d, d.isDigit = false → d ≠ '-' → c ≠ d := fun d => ne_of_begins h
  rw [readValue?, skipBlanks_cons (isBlank_of_begins h)]
  simp [hne 'n' (by decide) (by decide), hne 't' (by decide) (by decide),
    hne 'f' (by decide) (by decide), hne '"' (by decide) (by decide),
    hne '[' (by decide) (by decide), hne '\x7b' (by decide) (by decide)]

lemma length_le_flatMap_escape (cs : List Char) : cs.length ≤ (cs.flatMap escape).length := by
  induction cs with
  | nil => exact Nat.le_refl _
  | cons c cs ih =>
    have hone : 1 ≤ (escape c).length := by
      unfold escape
      split_ifs <;> simp
    rw [List.flatMap_cons, List.length_append, List.length_cons]
    omega

lemma quote_append (s : String) (rest : List Char) :
    quote s ++ rest = '"' :: (s.toList.flatMap escape ++ '"' :: rest) := by
  simp [quote]

/-- A text in quotes is read, with as many steps as there are characters. -/
lemma readText?_quote (s : String) (rest : List Char) :
    readText? ((s.toList.flatMap escape ++ '"' :: rest).length + 1)
        (s.toList.flatMap escape ++ '"' :: rest) = some (some s.toList, rest) := by
  refine readText?_quoted _ _ ?_
  have hle := length_le_flatMap_escape s.toList
  rw [List.length_append]
  omega

/-- The text of items begins as that of the first one. -/
lemma itemChars_cons (item : Json) (items : List Json) :
    ∃ cs, chars.itemChars (item :: items) = item.chars ++ cs := by
  cases items with
  | nil => exact ⟨[], (List.append_nil _).symm⟩
  | cons next items => exact ⟨_, rfl⟩

lemma memberChars_cons (name : String) (item : Json) (members : List (String × Json)) :
    ∃ cs, chars.memberChars ((name, item) :: members) = '"' :: cs := by
  cases members with
  | nil => exact ⟨_, rfl⟩
  | cons next members => exact ⟨_, rfl⟩

section

variable {fuel : Nat} {cs rest : List Char}

lemma readValue?_quote (s : String) (fuel : Nat) (rest : List Char) :
    readValue? (fuel + 1) (quote s ++ rest) = some (string s, rest) := by
  rw [quote_append, readValue?, skipBlanks_cons (show isBlank '"' = false by decide)]
  simp only [readText?_quote, Option.bind_eq_bind, Option.bind_some, String.ofList_toList,
    Option.pure_def]

lemma readValue?_items {items : List Json} (hcs : ∃ c t, cs = c :: t ∧ isBlank c = false ∧ c ≠ ']')
    (h : readItems? fuel cs = some (items, rest)) :
    readValue? (fuel + 1) ('[' :: cs) = some (array items, rest) := by
  obtain ⟨c, t, rfl, hblank, hne⟩ := hcs
  rw [readValue?, skipBlanks_cons (show isBlank '[' = false by decide)]
  simp [skipBlanks_cons hblank, hne, h]

lemma readValue?_members {members : List (String × Json)} (hcs : ∃ t, cs = '"' :: t)
    (h : readMembers? fuel cs = some (some members, rest)) :
    readValue? (fuel + 1) ('\x7b' :: cs) = some (object members, rest) := by
  obtain ⟨t, rfl⟩ := hcs
  rw [readValue?, skipBlanks_cons (show isBlank '\x7b' = false by decide)]
  simp [skipBlanks_cons (show isBlank '"' = false by decide), h]

/-- A member is read with its name, and those after the comma that follows it. -/
lemma readMembers?_comma {name : String} {item : Json} {members : List (String × Json)}
    {more : List Char} (hitem : readValue? fuel cs = some (item, ',' :: more))
    (hmore : readMembers? fuel more = some (some members, rest)) :
    readMembers? (fuel + 1) (quote name ++ ':' :: cs) =
      some (some ((name, item) :: members), rest) := by
  rw [quote_append, readMembers?, skipBlanks_cons (show isBlank '"' = false by decide)]
  simp only [readText?_quote, Option.bind_eq_bind, Option.bind_some, Option.map_some,
    skipBlanks_cons (show isBlank ':' = false by decide), hitem,
    skipBlanks_cons (show isBlank ',' = false by decide), hmore, String.ofList_toList,
    Option.pure_def]

/-- The last member is followed by the brace. -/
lemma readMembers?_last {name : String} {item : Json}
    (hitem : readValue? fuel cs = some (item, '\x7d' :: rest)) :
    readMembers? (fuel + 1) (quote name ++ ':' :: cs) = some (some [(name, item)], rest) := by
  rw [quote_append, readMembers?, skipBlanks_cons (show isBlank '"' = false by decide)]
  simp only [readText?_quote, Option.bind_eq_bind, Option.bind_some, Option.map_some,
    skipBlanks_cons (show isBlank ':' = false by decide), hitem,
    skipBlanks_cons (show isBlank '\x7d' = false by decide), String.ofList_toList,
    Option.pure_def]

end

mutual

/-- The text of a value is read as this value, whatever follows it that cannot be taken for more of
a number. -/
lemma readValue?_chars (j : Json) (hj : j.isPlain = true) (fuel : Nat)
    (hfuel : j.chars.length ≤ fuel) (rest : List Char) (hrest : EndsNumber rest) :
    readValue? fuel (j.chars ++ rest) = some (j, rest) := by
  obtain ⟨c, cs, hc, -, -⟩ := chars_begin hj
  obtain ⟨fuel, rfl⟩ : ∃ n, fuel = n + 1 := by
    rw [hc, List.length_cons] at hfuel
    exact ⟨fuel - 1, by omega⟩
  cases j with
  | null => simp [chars, readValue?, skipBlanks_cons (show isBlank 'n' = false by decide)]
  | bool b =>
    cases b with
    | true => simp [chars, readValue?, skipBlanks_cons (show isBlank 't' = false by decide)]
    | false => simp [chars, readValue?, skipBlanks_cons (show isBlank 'f' = false by decide)]
  | int i =>
    obtain ⟨c, cs, hc, hbegins⟩ := toList_int i
    have hread := readNumber?_int i hrest
    rw [chars]
    rw [hc, List.cons_append] at hread ⊢
    rw [readValue?_number hbegins, hread]
  | string s => exact readValue?_quote s fuel rest
  | array items =>
    cases items with
    | nil => simp [chars, chars.itemChars, readValue?,
        skipBlanks_cons (show isBlank '[' = false by decide),
        skipBlanks_cons (show isBlank ']' = false by decide)]
    | cons item items =>
      have hread := readItems?_items (item :: items) (by simp) hj fuel
        (by simp [chars] at hfuel; omega) rest
      have hform : (array (item :: items)).chars ++ rest =
          '[' :: (chars.itemChars (item :: items) ++ ']' :: rest) := by
        simp [chars]
      rw [hform]
      refine readValue?_items ?_ hread
      obtain ⟨cs', hcs'⟩ := itemChars_cons item items
      obtain ⟨c, cs, hc, hbegin⟩ := chars_begin (Bool.and_eq_true_iff.1 hj).1
      exact ⟨c, _, by rw [hcs', hc]; rfl, hbegin⟩
  | object members =>
    cases members with
    | nil => simp [chars, chars.memberChars, readValue?,
        skipBlanks_cons (show isBlank '\x7b' = false by decide),
        skipBlanks_cons (show isBlank '\x7d' = false by decide)]
    | cons member members =>
      have hread := readMembers?_members (member :: members) (by simp) hj fuel
        (by simp [chars] at hfuel; omega) rest
      have hform : (object (member :: members)).chars ++ rest =
          '\x7b' :: (chars.memberChars (member :: members) ++ '\x7d' :: rest) := by
        simp [chars]
      rw [hform]
      refine readValue?_members ?_ hread
      obtain ⟨cs', hcs'⟩ := memberChars_cons member.1 member.2 members
      exact ⟨_, by rw [hcs']; rfl⟩
  | decimal literal => cases hj
  | unreadable => cases hj

lemma readItems?_items (items : List Json) (hne : items ≠ []) (hj : itemsPlain items = true)
    (fuel : Nat) (hfuel : (chars.itemChars items).length < fuel) (rest : List Char) :
    readItems? fuel (chars.itemChars items ++ ']' :: rest) = some (items, rest) := by
  obtain ⟨fuel, rfl⟩ := Nat.exists_eq_add_one.2 (Nat.zero_lt_of_lt hfuel)
  match items with
  | [] => exact absurd rfl hne
  | [item] =>
    rw [chars.itemChars] at hfuel ⊢
    -- a number ends before the bracket, as it does before a comma
    have hread := readValue?_chars item (Bool.and_eq_true_iff.1 hj).1 fuel (by omega)
      (']' :: rest) (endsNumber_cons (by decide) _)
    rw [readItems?, hread]
    simp [skipBlanks_cons (show isBlank ']' = false by decide)]
  | item :: next :: items =>
    obtain ⟨hitem, hitems⟩ := Bool.and_eq_true_iff.1 hj
    have hform : chars.itemChars (item :: next :: items) ++ ']' :: rest =
        item.chars ++ ',' :: (chars.itemChars (next :: items) ++ ']' :: rest) := by
      simp [chars.itemChars]
    have hlength := congrArg List.length hform
    simp only [List.length_append, List.length_cons] at hlength
    have hread := readValue?_chars item hitem fuel (by omega)
      (',' :: (chars.itemChars (next :: items) ++ ']' :: rest)) (endsNumber_cons (by decide) _)
    have hmore := readItems?_items (next :: items) (by simp) hitems fuel (by omega) rest
    rw [hform, readItems?, hread]
    simp [skipBlanks_cons (show isBlank ',' = false by decide), hmore]

lemma readMembers?_members (members : List (String × Json)) (hne : members ≠ [])
    (hj : membersPlain members = true) (fuel : Nat)
    (hfuel : (chars.memberChars members).length < fuel) (rest : List Char) :
    readMembers? fuel (chars.memberChars members ++ '\x7d' :: rest) =
      some (some members, rest) := by
  obtain ⟨fuel, rfl⟩ := Nat.exists_eq_add_one.2 (Nat.zero_lt_of_lt hfuel)
  match members with
  | [] => exact absurd rfl hne
  | [(name, item)] =>
    rw [chars.memberChars, List.length_append, List.length_cons] at hfuel
    have hread := readValue?_chars item (Bool.and_eq_true_iff.1 hj).1 fuel (by omega)
      ('\x7d' :: rest) (endsNumber_cons (by decide) _)
    have hform : chars.memberChars [(name, item)] ++ '\x7d' :: rest =
        quote name ++ ':' :: (item.chars ++ '\x7d' :: rest) := by
      simp [chars.memberChars]
    rw [hform, readMembers?_last hread]
  | (name, item) :: next :: members =>
    obtain ⟨hitem, hmembers⟩ := Bool.and_eq_true_iff.1 hj
    have hform : chars.memberChars ((name, item) :: next :: members) ++ '\x7d' :: rest =
        quote name ++ ':' :: (item.chars ++ ',' ::
          (chars.memberChars (next :: members) ++ '\x7d' :: rest)) := by
      simp [chars.memberChars]
    have hlength := congrArg List.length hform
    simp only [List.length_append, List.length_cons] at hlength
    have hread := readValue?_chars item hitem fuel (by omega)
      (',' :: (chars.memberChars (next :: members) ++ '\x7d' :: rest))
      (endsNumber_cons (by decide) _)
    have hmore := readMembers?_members (next :: members) (by simp) hmembers fuel (by omega) rest
    rw [hform, readMembers?_comma hread hmore]

end

/-- **A value is read from its text.** The compact text of a plain value holds exactly this
value. -/
theorem read?_compress {j : Json} (hj : j.isPlain = true) : read? j.compress = some j := by
  have hread := readValue?_chars j hj (j.chars.length + 1) (by omega) [] endsNumber_nil
  rw [List.append_nil] at hread
  simp [read?, compress, readChars?, hread, skipBlanks]

/-- Plain values with the same text are the same. -/
theorem compress_inj {j j' : Json} (hj : j.isPlain = true) (hj' : j'.isPlain = true)
    (h : j.compress = j'.compress) : j = j' := by
  have hread := read?_compress hj
  rw [h, read?_compress hj'] at hread
  exact (Option.some.inj hread).symm

end ConsensusLink.Json
