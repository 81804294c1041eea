import ConsensusLink.Wire.Message
import ConsensusLink.Proofs.Wire.Records
/-!
# Messages keep their value on the wire

A write is repeated with the same message, and is taken for the same write only if this is equal to
the one that was sent before. So a message must come out of its JSON text as it went in. The text of
a message is read as this message; whatever text a message is read from, it goes back to what was
read, and the text that is written of it is read as this message again. What is read is no message
exactly if the address or the hash that it gives has the wrong length.
-/

namespace ConsensusLink

namespace WireMessage

/-! ## JSON text -/

/-- The text of what is sent. -/
def write (w : WireMessage) : String := w.toJson.compress

/-- What a text holds that is received. -/
def read? (text : String) : Option WireMessage := (Json.read? text).bind ofJson?

/-- The fields of the header, in order. -/
def headerFields (w : WireMessage) : List (String × Option Json) := [
  ("kind", some (.nat w.kind.toNat)),
  ("poster", some (.bytes w.poster)),
  ("blockNumber", some (.word w.blockNumber)),
  ("timestamp", some (.word w.timestamp)),
  ("requestId", w.requestId.map .bytes),
  ("l1BaseFee", w.baseFee.map fun fee => .nat fee.val)]

/-- The fields of what the header heads, in order. -/
def bodyFields (w : WireMessage) : List (String × Option Json) := [
  ("header", some (.object (Json.present w.headerFields))),
  ("l2Msg", some (.bytes w.payload))]

lemma toJson_eq (w : WireMessage) :
    w.toJson = .object (Json.present [("message", some (.object (Json.present w.bodyFields))),
      ("delayedMessagesRead", some (.word w.delayedRead))]) := rfl

lemma isPlain_toJson (w : WireMessage) : w.toJson.isPlain = true := by
  have hheader : Json.membersPlain (Json.present w.headerFields) = true := by
    refine Json.membersPlain_present fun field hmem j hj => ?_
    simp only [headerFields, List.mem_cons, List.not_mem_nil, or_false] at hmem
    rcases hmem with rfl | rfl | rfl | rfl | rfl | rfl
    iterate 4 (cases hj; rfl)
    · obtain ⟨id, -, rfl⟩ := Option.map_eq_some_iff.1 hj
      rfl
    · obtain ⟨fee, -, rfl⟩ := Option.map_eq_some_iff.1 hj
      rfl
  have hbody : Json.membersPlain (Json.present w.bodyFields) = true :=
    Bool.and_eq_true_iff.2 ⟨hheader, rfl⟩
  exact Bool.and_eq_true_iff.2 ⟨hbody, rfl⟩

/-- Every field is read as it was written, whether it is there or not. -/
lemma ofJson?_toJson (w : WireMessage) : ofJson? w.toJson = some w := by
  have hrecord : w.toJson.record? ["message", "delayedMessagesRead"] =
      some [some (.object (Json.present w.bodyFields)), some (.word w.delayedRead)] := by
    rw [toJson_eq]
    exact Json.record?_present (by simp)
  have hbody : (Json.object (Json.present w.bodyFields)).record? ["header", "l2Msg"] =
      some [some (.object (Json.present w.headerFields)), some (.bytes w.payload)] :=
    Json.record?_present (by simp [bodyFields])
  have hheader : (Json.object (Json.present w.headerFields)).record?
      ["kind", "poster", "blockNumber", "timestamp", "requestId", "l1BaseFee"] =
      some [some (.nat w.kind.toNat), some (.bytes w.poster), some (.word w.blockNumber),
        some (.word w.timestamp), w.requestId.map .bytes,
        w.baseFee.map fun fee => .nat fee.val] :=
    Json.record?_present (by simp [headerFields])
  have hid : Json.optional? Json.bytes? (w.requestId.map .bytes) = some w.requestId :=
    Json.optional?_map Json.bytes?_bytes (fun _ => Json.noConfusion) _
  have hfee : Json.optional? Json.wide? (w.baseFee.map fun fee => .nat fee.val) =
      some w.baseFee :=
    Json.optional?_map Json.wide?_nat (fun _ => Json.noConfusion) _
  rw [ofJson?, hrecord]
  simp only [Option.bind_eq_bind, Option.bind_some, hbody, hheader, Json.required?,
    Json.byte?_nat, Json.bytes?_bytes, Json.word?_word, hid, hfee, Option.pure_def]

/-- What is sent is what is received. -/
lemma read?_write (w : WireMessage) : read? w.write = some w := by
  rw [read?, write, Json.read?_compress w.isPlain_toJson]
  exact w.ofJson?_toJson

/-! ## Lengths -/

lemma fixed_of_length {n : Nat} {bs : Bytes} (h : bs.length = n) (field : String) :
    fixed field n bs = .ok ⟨bs, h⟩ := by
  rw [fixed, FixedBytes.ofBytes?, dif_pos h]

lemma fixed_of_length_ne {n : Nat} {bs : Bytes} (h : bs.length ≠ n) (field : String) :
    fixed field n bs = .error ⟨field, n, bs.length⟩ := by
  rw [fixed, FixedBytes.ofBytes?, dif_neg h]

/-- What is wrong with the lengths of what was received: the hash is looked at first. -/
inductive Misfit (w : WireMessage) : WrongLength → Prop where
  | requestId {id : Bytes} (hid : w.requestId = some id) (hlength : id.length ≠ 32) :
    Misfit w ⟨"requestId", 32, id.length⟩
  | poster (hid : ∀ id ∈ w.requestId, id.length = 32) (hlength : w.poster.length ≠ 20) :
    Misfit w ⟨"poster", 20, w.poster.length⟩

/-- Either all lengths are right, and what was received is the message that it is the wire form of,
or one is wrong. -/
lemma check_cases (w : WireMessage) :
    (∃ m, w.check = .ok m ∧ ofMessage m = w) ∨ ∃ e, w.check = .error e ∧ w.Misfit e := by
  obtain ⟨kind, poster, blockNumber, timestamp, requestId, baseFee, payload, delayedRead⟩ := w
  cases requestId with
  | none =>
    by_cases hposter : poster.length = 20
    · refine .inl ⟨⟨⟨kind, ⟨poster, hposter⟩, blockNumber, timestamp, none, baseFee⟩, payload,
        delayedRead⟩, ?_, rfl⟩
      simp [check, fixed_of_length hposter, bind, Except.bind, pure, Except.pure]
    · refine .inr ⟨_, ?_, .poster (by simp) hposter⟩
      simp [check, fixed_of_length_ne hposter, bind, Except.bind]
  | some id =>
    by_cases hid : id.length = 32
    · by_cases hposter : poster.length = 20
      · refine .inl ⟨⟨⟨kind, ⟨poster, hposter⟩, blockNumber, timestamp, some ⟨id, hid⟩, baseFee⟩,
          payload, delayedRead⟩, ?_, rfl⟩
        simp [check, fixed_of_length hposter, fixed_of_length hid, bind, Except.bind, pure,
          Except.pure, Except.map]
      · refine .inr ⟨_, ?_, .poster (fun id' hid' => Option.some.inj hid' ▸ hid) hposter⟩
        simp [check, fixed_of_length_ne hposter, fixed_of_length hid, bind, Except.bind,
          Except.map]
    · refine .inr ⟨_, ?_, .requestId rfl hid⟩
      simp [check, fixed_of_length_ne hid, bind, Except.bind, Except.map]

lemma not_misfit_ofMessage (m : Message) (e : WrongLength) : ¬ (ofMessage m).Misfit e := by
  rintro (⟨hid, hlength⟩ | ⟨-, hlength⟩)
  · obtain ⟨id, -, rfl⟩ := Option.map_eq_some_iff.1 hid
    exact hlength id.length_eq
  · exact hlength m.header.poster.length_eq

lemma Misfit.unique {w : WireMessage} {e e' : WrongLength} (h : w.Misfit e) (h' : w.Misfit e') :
    e = e' := by
  cases h with
  | requestId hid hlength =>
    cases h' with
    | requestId hid' _ => rw [Option.some.inj (hid.symm.trans hid')]
    | poster hall _ => exact absurd (hall _ hid) hlength
  | poster hall hlength =>
    cases h' with
    | requestId hid hne => exact absurd (hall _ hid) hne
    | poster _ _ => rfl

lemma check_eq_error_iff (w : WireMessage) (e : WrongLength) :
    w.check = .error e ↔ w.Misfit e := by
  obtain ⟨m, hcheck, rfl⟩ | ⟨e', hcheck, hmisfit⟩ := w.check_cases
  · rw [hcheck]
    exact ⟨nofun, fun h => absurd h (not_misfit_ofMessage m e)⟩
  · rw [hcheck]
    exact ⟨fun h => Except.error.inj h ▸ hmisfit, fun h => congrArg _ (hmisfit.unique h)⟩

/-- What is taken for a message is its wire form. -/
lemma ofMessage_of_check {w : WireMessage} {m : Message} (h : w.check = .ok m) :
    ofMessage m = w := by
  obtain ⟨m', hcheck, hm⟩ | ⟨e, hcheck, -⟩ := w.check_cases
  · cases h.symm.trans hcheck
    exact hm
  · cases h.symm.trans hcheck

end WireMessage

namespace Message

/-- The text of a message. -/
def write (m : Message) : String := (WireMessage.ofMessage m).write

/-- The message that a text holds, or what is wrong with its lengths. -/
def read? (text : String) : Option (Except WrongLength Message) :=
  (WireMessage.read? text).map WireMessage.check

end Message

namespace WireMessage

/-- **Messages keep their value on the wire.** The text of a message is read as this message. From
whatever text a message is read, it goes back to just what was read, and the text that is written of
this is read as the message again. What is read is refused exactly if a hash is given that has not
32 bytes, or the address has not 20; the refusal names the field, and the hash before the address.
-/
theorem keeps_value :
    (∀ m : Message, Message.read? m.write = some (.ok m)) ∧
      (∀ (text : String) (w : WireMessage) (m : Message), read? text = some w →
        w.check = .ok m → ofMessage m = w ∧ Message.read? w.write = some (.ok m)) ∧
      ∀ w : WireMessage, (∀ e, w.check = .error e ↔ w.Misfit e) ∧
        ((∃ e, w.check = .error e) ↔
          w.poster.length ≠ 20 ∨ ∃ id, w.requestId = some id ∧ id.length ≠ 32) := by
  have hread : ∀ w : WireMessage, Message.read? w.write = some w.check := by
    intro w
    rw [Message.read?, read?_write, Option.map_some]
  refine ⟨fun m => ?_, fun text w m _ hcheck => ?_, fun w => ⟨w.check_eq_error_iff, ?_⟩⟩
  · rw [Message.write, hread, check_ofMessage]
  · exact ⟨ofMessage_of_check hcheck, by rw [hread, hcheck]⟩
  · simp only [check_eq_error_iff]
    constructor
    · rintro ⟨e, hid | ⟨-, hposter⟩⟩
      · exact .inr ⟨_, hid, ‹_›⟩
      · exact .inl hposter
    · intro hwrong
      by_cases hid : ∃ id, w.requestId = some id ∧ id.length ≠ 32
      · obtain ⟨id, hid, hlength⟩ := hid
        exact ⟨_, .requestId hid hlength⟩
      · have hall : ∀ id ∈ w.requestId, id.length = 32 := fun id hmem =>
          Decidable.byContradiction fun hlength => hid ⟨id, hmem, hlength⟩
        exact ⟨_, .poster hall (hwrong.resolve_right hid)⟩

/-- A text that nobody here would write: its fields are in another order and among others, its bytes
have digits of both cases, with and without the mark in front, and one field is `null`. -/
def foreignText : String :=
  "\x7b\"delayedMessagesRead\": 7, \"message\": \x7b\"l2Msg\": \"0xABcd\", " ++
  "\"hops\": [1.5, null],\n\"header\": \x7b\"timestamp\": 2, \"kind\": 3, " ++
  "\"l1BaseFee\": null, \"blockNumber\": 1," ++
  "\"poster\": \"aBaBaBaBaBaBaBaBaBaBaBaBaBaBaBaBaBaBaBaB\" \x7d\x7d \x7d"

/-- The message that it holds. -/
def foreignMessage : Message where
  header := {
    kind := 3
    poster := .replicate 20 0xab
    blockNumber := 1
    timestamp := 2
    requestId := none
    baseFee := none }
  payload := [0xab, 0xcd]
  delayedRead := 7

/-- It is read, and goes back to what was read. -/
theorem keeps_value_foreign :
    read? foreignText = some (ofMessage foreignMessage) ∧
      (ofMessage foreignMessage).check = .ok foreignMessage ∧
      Message.read? (ofMessage foreignMessage).write = some (.ok foreignMessage) := by
  have hread : read? foreignText = some (ofMessage foreignMessage) := by decide +kernel
  have hcheck := check_ofMessage foreignMessage
  exact ⟨hread, hcheck, (keeps_value.2.1 _ _ _ hread hcheck).2⟩

end WireMessage

end ConsensusLink
