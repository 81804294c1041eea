import ConsensusLink.Wire.Failure
import Mathlib.Logic.Basic
/-!
# What an error object is taken for

An error object may come from anybody: a node, or something between the client and the node that
knows nothing of the codes in use here. Each of these codes is read as its own cause, if the details
that this cause needs can be read, and as an internal failure otherwise, but never as another cause.
A foreign code should be read as a failure of the transport. It is, unless it comes with data that
is no record of details: the details are read before the code is looked at, so that the data of
somebody else is taken for a malformed answer of the node, which is not tried again.
-/

namespace ConsensusLink

/-- What a record of details tells about a cause: all that the cause needs is there. The wording
stands in for a reason that is not given. -/
inductive FailureDetails.Tells (d : FailureDetails) (message : String) : Failure → Prop
  | notYetAvailable {resource} (hresource : d.resource = some resource) :
    d.Tells message (.notYetAvailable resource)
  | batchUnavailable {batch} (hbatch : d.batch = some batch) :
    d.Tells message (.batchUnavailable batch (d.reason.getD message))
  | lookupUnavailable {resource} (hresource : d.resource = some resource) :
    d.Tells message (.lookupUnavailable resource (d.reason.getD message))
  | notChosenSequencer : d.Tells message .notChosenSequencer
  | outOfOrder {got} (hpos : d.pos = some got) : d.Tells message (.outOfOrder d.expected got)
  | conflictingWrite {pos} (hpos : d.pos = some pos) : d.Tells message (.conflictingWrite pos)
  | probeRequired : d.Tells message .probeRequired
  | outcomeUnknown {pos} (hpos : d.pos = some pos) : d.Tells message (.outcomeUnknown pos)
  | nonMonotonic {counter previous observed} (hcounter : d.counter = some counter)
    (hprevious : d.previous = some previous) (hobserved : d.observed = some observed) :
    d.Tells message (.nonMonotonic counter previous observed)
  | orderViolation {counter observed boundCounter bound} (hcounter : d.counter = some counter)
    (hobserved : d.observed = some observed) (hboundCounter : d.boundCounter = some boundCounter)
    (hbound : d.bound = some bound) :
    d.Tells message (.orderViolation counter observed boundCounter bound)
  | transport : d.Tells message (.transport (d.reason.getD message))
  | timeout : d.Tells message .timeout
  | overloaded : d.Tells message .overloaded
  | cancelled : d.Tells message .cancelled
  | shutDown : d.Tells message .shutDown
  | internal : d.Tells message (.internal (d.reason.getD message))

namespace ErrorObject

/-- The details of an error object, if its data can be read; there are none without data. -/
def details? (e : ErrorObject) : Option FailureDetails :=
  match e.data with
  | none => some .empty
  | some j => FailureDetails.ofJson? j

/-- The code is that of no cause. -/
def IsForeign (e : ErrorObject) : Prop := ∀ f : Failure, f.code ≠ e.code

/-- The error object tells of a cause: the code is that of the cause, and the details that the cause
needs can be read. -/
def TellsOf (e : ErrorObject) (f : Failure) : Prop :=
  f.code = e.code ∧ ∃ d, e.details? = some d ∧ d.Tells e.message f

/-- A failure of the transport that names the code and the wording. -/
def asTransport (e : ErrorObject) : Failure :=
  .transport ("rpc error " ++ toString e.code ++ ": " ++ e.message)

/-- What an error object is documented to mean. -/
inductive Means (e : ErrorObject) : Failure → Prop
  /-- The code is known, and so is all else about its cause. -/
  | cause {f} (htells : e.TellsOf f) : e.Means f
  /-- The code is known, but what its cause needs is missing or cannot be read. -/
  | unclear {reason} (hknown : ¬e.IsForeign) (hnone : ∀ f, ¬e.TellsOf f) :
    e.Means (.internal reason)
  /-- The code is that of somebody else. -/
  | foreign (hforeign : e.IsForeign) : e.Means e.asTransport

end ErrorObject

namespace Failure

/-- The codes in use are far below those of JSON-RPC. -/
lemma code_le (f : Failure) : f.code ≤ -38001 := by
  cases f <;> simp [code]

/-! ## Reading a cause -/

/-- The details of a cause suffice to read it. -/
lemma ofDetails?_of_tells {d : FailureDetails} {message : String} {f : Failure}
    (h : d.Tells message f) : ofDetails? f.code message d = some f := by
  cases h <;> simp [ofDetails?, code, *]

/-- What is read under a code that is known is the cause of this code, as the details tell it. -/
lemma tells_of_ofDetails? {d : FailureDetails} {message : String} {f g : Failure}
    (h : ofDetails? g.code message d = some f) : f.code = g.code ∧ d.Tells message f := by
  cases g with
  | notYetAvailable =>
    obtain ⟨resource, hresource, he⟩ := Option.bind_eq_some_iff.1 h
    cases he
    exact ⟨rfl, .notYetAvailable hresource⟩
  | batchUnavailable =>
    obtain ⟨batch, hbatch, he⟩ := Option.bind_eq_some_iff.1 h
    cases he
    exact ⟨rfl, .batchUnavailable hbatch⟩
  | lookupUnavailable =>
    obtain ⟨resource, hresource, he⟩ := Option.bind_eq_some_iff.1 h
    cases he
    exact ⟨rfl, .lookupUnavailable hresource⟩
  | outOfOrder =>
    obtain ⟨pos, hpos, he⟩ := Option.bind_eq_some_iff.1 h
    cases he
    exact ⟨rfl, .outOfOrder hpos⟩
  | conflictingWrite =>
    obtain ⟨pos, hpos, he⟩ := Option.bind_eq_some_iff.1 h
    cases he
    exact ⟨rfl, .conflictingWrite hpos⟩
  | outcomeUnknown =>
    obtain ⟨pos, hpos, he⟩ := Option.bind_eq_some_iff.1 h
    cases he
    exact ⟨rfl, .outcomeUnknown hpos⟩
  | nonMonotonic =>
    obtain ⟨counter, hcounter, h⟩ := Option.bind_eq_some_iff.1 h
    obtain ⟨previous, hprevious, h⟩ := Option.bind_eq_some_iff.1 h
    obtain ⟨observed, hobserved, he⟩ := Option.bind_eq_some_iff.1 h
    cases he
    exact ⟨rfl, .nonMonotonic hcounter hprevious hobserved⟩
  | orderViolation =>
    obtain ⟨counter, hcounter, h⟩ := Option.bind_eq_some_iff.1 h
    obtain ⟨observed, hobserved, h⟩ := Option.bind_eq_some_iff.1 h
    obtain ⟨boundCounter, hboundCounter, h⟩ := Option.bind_eq_some_iff.1 h
    obtain ⟨bound, hbound, he⟩ := Option.bind_eq_some_iff.1 h
    cases he
    exact ⟨rfl, .orderViolation hcounter hobserved hboundCounter hbound⟩
  | notChosenSequencer => cases h; exact ⟨rfl, .notChosenSequencer⟩
  | probeRequired => cases h; exact ⟨rfl, .probeRequired⟩
  | transport => cases h; exact ⟨rfl, .transport⟩
  | timeout => cases h; exact ⟨rfl, .timeout⟩
  | overloaded => cases h; exact ⟨rfl, .overloaded⟩
  | cancelled => cases h; exact ⟨rfl, .cancelled⟩
  | shutDown => cases h; exact ⟨rfl, .shutDown⟩
  | internal => cases h; exact ⟨rfl, .internal⟩

/-- Under a foreign code, the details do not matter. -/
lemma ofDetails?_of_isForeign {e : ErrorObject} (h : e.IsForeign) (d : FailureDetails) :
    ofDetails? e.code e.message d = some e.asTransport := by
  -- in every other branch the code is the one of a cause, and thus not foreign
  unfold ofDetails?
  split
  case h_17 => rfl
  case h_1 hc => exact absurd hc.symm (h (notYetAvailable default))
  case h_2 hc => exact absurd hc.symm (h (batchUnavailable default default))
  case h_3 hc => exact absurd hc.symm (h (lookupUnavailable default default))
  case h_4 hc => exact absurd hc.symm (h notChosenSequencer)
  case h_5 hc => exact absurd hc.symm (h (outOfOrder default default))
  case h_6 hc => exact absurd hc.symm (h (conflictingWrite default))
  case h_7 hc => exact absurd hc.symm (h probeRequired)
  case h_8 hc => exact absurd hc.symm (h (outcomeUnknown default))
  case h_9 hc => exact absurd hc.symm (h (nonMonotonic default default default))
  case h_10 hc => exact absurd hc.symm (h (orderViolation default default default default))
  case h_11 hc => exact absurd hc.symm (h (transport default))
  case h_12 hc => exact absurd hc.symm (h timeout)
  case h_13 hc => exact absurd hc.symm (h overloaded)
  case h_14 hc => exact absurd hc.symm (h cancelled)
  case h_15 hc => exact absurd hc.symm (h shutDown)
  case h_16 hc => exact absurd hc.symm (h (internal default))

/-! ## Reading an error object -/

section Reading

variable {e : ErrorObject} (complaint : Json → Option String)

lemma ofErrorObject_of_details {d : FailureDetails} (h : e.details? = some d) :
    ofErrorObject e complaint = (ofDetails? e.code e.message d).getD
      (internal ("missing data for rpc error " ++ toString e.code)) := by
  obtain ⟨code, message, data⟩ := e
  cases data with
  | none =>
    cases h
    rfl
  | some j =>
    replace h : FailureDetails.ofJson? j = some d := h
    simp only [ofErrorObject, h]
    rfl

/-- What cannot be read is malformed, whoever has written it, and the reader says why. -/
lemma ofErrorObject_of_unread (h : e.details? = none) :
    ∃ j, e.data = some j ∧ ofErrorObject e complaint =
      internal ("malformed data for rpc error " ++ toString e.code ++
        ((complaint j).map (": " ++ ·)).getD "") := by
  obtain ⟨code, message, data⟩ := e
  cases data with
  | none => cases h
  | some j =>
    replace h : FailureDetails.ofJson? j = none := h
    refine ⟨j, rfl, ?_⟩
    simp only [ofErrorObject, h]
    rfl

/-- The cause that an error object tells of is read. -/
lemma ofErrorObject_of_tellsOf {f : Failure} (h : e.TellsOf f) :
    ofErrorObject e complaint = f := by
  obtain ⟨hcode, d, hd, htells⟩ := h
  rw [ofErrorObject_of_details complaint hd, ← hcode, ofDetails?_of_tells htells,
    Option.getD_some]

lemma ofErrorObject_of_isForeign (h : e.IsForeign) {d : FailureDetails}
    (hd : e.details? = some d) : ofErrorObject e complaint = e.asTransport := by
  rw [ofErrorObject_of_details complaint hd, ofDetails?_of_isForeign h, Option.getD_some]

/-- A known code is read as its cause, or as an internal failure when there is nothing else to be
known about it. -/
lemma means_ofErrorObject (h : ¬e.IsForeign) : e.Means (ofErrorObject e complaint) := by
  obtain ⟨g, hg⟩ := not_forall_not.1 h
  by_cases htold : ∃ f, e.TellsOf f
  · obtain ⟨f, hf⟩ := htold
    rw [ofErrorObject_of_tellsOf complaint hf]
    exact .cause hf
  · have hnone : ∀ f, ¬e.TellsOf f := fun f hf => htold ⟨f, hf⟩
    cases hd : e.details? with
    | none =>
      obtain ⟨j, -, hread⟩ := ofErrorObject_of_unread complaint hd
      rw [hread]
      exact .unclear h hnone
    | some d =>
      cases hf : ofDetails? e.code e.message d with
      | none =>
        rw [ofErrorObject_of_details complaint hd, hf, Option.getD_none]
        exact .unclear h hnone
      | some f =>
        -- what is read under a known code is a cause that the object tells of, after all
        rw [← hg] at hf
        obtain ⟨hcode, htells⟩ := tells_of_ofDetails? hf
        exact absurd ⟨hcode.trans hg, d, hd, htells⟩ (hnone f)

end Reading

/-- **An error object is taken for what it means, unless it is foreign and its data cannot be
read.** Whatever its code, wording and data are. If it tells of a cause, then it is read as this
cause; with a known code, it is read as an internal failure otherwise, and never as another cause.
With a foreign code, it is read as a failure of the transport, and tried again, exactly if its data
is a record of details or there is none; it is read as an internal failure otherwise, and given
up. -/
theorem means_ofErrorObject_iff (e : ErrorObject) (complaint : Json → Option String) :
    (e.Means (ofErrorObject e complaint) ↔ ¬(e.IsForeign ∧ e.details? = none)) ∧
      (∀ f, e.TellsOf f → ofErrorObject e complaint = f) ∧
      (¬e.IsForeign → (∀ f, ¬e.TellsOf f) →
        ∃ reason, ofErrorObject e complaint = internal reason) ∧
      (e.IsForeign →
        (ofErrorObject e complaint = e.asTransport ↔ e.details?.isSome = true) ∧
        ((ofErrorObject e complaint).isTransient = true ↔ e.details?.isSome = true) ∧
        (e.details? = none → ∃ reason, ofErrorObject e complaint = internal reason)) := by
  refine ⟨?_, fun f => ofErrorObject_of_tellsOf complaint, fun hknown hnone => ?_,
    fun hforeign => ?_⟩
  · by_cases hforeign : e.IsForeign
    · cases hd : e.details? with
      | none =>
        refine iff_of_false (fun hmeans => ?_) fun h => h ⟨hforeign, rfl⟩
        obtain ⟨j, -, hread⟩ := ofErrorObject_of_unread complaint hd
        rw [hread] at hmeans
        generalize hf : internal _ = f at hmeans
        cases hmeans with
        | cause htells => exact hforeign _ htells.1
        | unclear hknown _ => exact hknown hforeign
        | foreign _ => cases hf
      | some d =>
        refine iff_of_true ?_ fun h => nomatch h.2
        rw [ofErrorObject_of_isForeign complaint hforeign hd]
        exact .foreign hforeign
    · exact iff_of_true (means_ofErrorObject complaint hforeign) fun h => hforeign h.1
  · have hmeans := means_ofErrorObject complaint hknown
    generalize hf : ofErrorObject e complaint = f at hmeans ⊢
    cases hmeans with
    | cause htells => exact absurd htells (hnone _)
    | unclear _ _ => exact ⟨_, rfl⟩
    | foreign hforeign => exact absurd hforeign hknown
  · cases hd : e.details? with
    | none =>
      obtain ⟨j, -, hread⟩ := ofErrorObject_of_unread complaint hd
      rw [hread]
      exact ⟨iff_of_false nofun nofun, iff_of_false nofun nofun, fun _ => ⟨_, rfl⟩⟩
    | some d =>
      rw [ofErrorObject_of_isForeign complaint hforeign hd]
      exact ⟨iff_of_true rfl rfl, iff_of_true rfl rfl, nofun⟩

/-! ## The data of somebody else -/

/-- What a JSON-RPC server says of arguments that it cannot read, and why. -/
def invalidParams : ErrorObject where
  code := -32602
  message := "Invalid params"
  data := some (.string "expected u64")

lemma isForeign_invalidParams : invalidParams.IsForeign := by
  intro f h
  have hlast := f.code_le
  rw [h] at hlast
  exact absurd hlast (by decide)

/-- A foreign code does not mean that the failure is taken for one of the transport, whatever the
reader says of data. -/
theorem not_transport_of_foreign :
    ¬∃ complaint : Json → Option String, ∀ e : ErrorObject, e.IsForeign →
      ofErrorObject e complaint = e.asTransport ∧
        (ofErrorObject e complaint).isTransient = true := by
  rintro ⟨complaint, hclaim⟩
  exact nomatch (hclaim invalidParams isForeign_invalidParams).1

/-- Here an answer to arguments that are at fault is taken for a defect of the node, and given
up. -/
theorem means_ofErrorObject_invalidParams :
    invalidParams.IsForeign ∧ invalidParams.details? = none ∧
      (¬invalidParams.Means (ofErrorObject invalidParams fun _ => some "invalid type: string")) ∧
      (ofErrorObject invalidParams fun _ => some "invalid type: string") =
        internal "malformed data for rpc error -32602: invalid type: string" ∧
      (ofErrorObject invalidParams fun _ => some "invalid type: string").isTransient = false := by
  obtain ⟨hmeans, -, -, hforeign⟩ :=
    means_ofErrorObject_iff invalidParams fun _ => some "invalid type: string"
  obtain ⟨-, htransient, -⟩ := hforeign isForeign_invalidParams
  refine ⟨isForeign_invalidParams, rfl, fun h => hmeans.1 h ⟨isForeign_invalidParams, rfl⟩,
    by decide, ?_⟩
  exact Bool.eq_false_iff.2 fun h => nomatch htransient.1 h

end Failure

end ConsensusLink
