import ConsensusLink.Wire.Failure
import ConsensusLink.Proofs.Wire.Records
import Mathlib.Logic.Function.Defs
/-!
# Failures survive the wire

A failure is told to the other side as an error object, whose details travel as JSON text. Whatever
the failure: the other side reads the same failure, of the same class, so that no two failures share
an error object. Each cause has its code, and its details are read as they were written.
-/

namespace ConsensusLink

/-! ## Details -/

namespace Resource

lemma ofJson?_toJson (r : Resource) : ofJson? r.toJson = some r := by
  cases r <;> simp [ofJson?, toJson, Json.field?, Json.text?, ofKind?, Json.record?]

/-- A resource may be kept as data, as it stands. -/
lemma asDataWithin?_toJson (r : Resource) (depth : Nat) :
    r.toJson.asDataWithin? (depth + 2) = some r.toJson := by
  have hword : ∀ w : UInt64, Json.wholeAsData? w.toNat = some (.int w.toNat) := by
    intro w
    have hlt := w.toNat_lt_size
    rw [Json.wholeAsData?, if_pos ⟨by simp [Int64.minValue], by exact_mod_cast hlt⟩]
  cases r <;> simp [toJson, Json.asDataWithin?, Json.asDataMembers?, BatchNumber.toJson,
    MessageIndex.toJson, Json.word, Json.nat, hword]

end Resource

namespace FailureDetails

/-- The details of a cause are read as they were written. -/
lemma ofJson?_toJson (d : FailureDetails) : ofJson? d.toJson = some d := by
  have hrecord : d.toJson.record? ["resource", "batch", "reason", "pos", "expected", "counter",
      "previous", "observed", "boundCounter", "bound"] =
      some [d.resource.map Resource.toJson, d.batch.map BatchNumber.toJson,
        d.reason.map Json.string, d.pos.map MessageIndex.toJson,
        d.expected.map MessageIndex.toJson, d.counter.map Counter.toJson,
        d.previous.map MessageIndex.toJson, d.observed.map MessageIndex.toJson,
        d.boundCounter.map Counter.toJson, d.bound.map MessageIndex.toJson] :=
    Json.record?_present (by simp)
  have hresource : Json.optional? (fun r => (r.asDataWithin? 127).bind Resource.ofJson?)
      (d.resource.map Resource.toJson) = some d.resource := by
    refine Json.optional?_map (fun r => ?_) (fun r => ?_) _
    · rw [Resource.asDataWithin?_toJson r 125]
      exact Resource.ofJson?_toJson r
    · cases r <;> exact Json.noConfusion
  have hbatch := Json.optional?_map BatchNumber.ofJson?_toJson (fun _ => Json.noConfusion) d.batch
  have hreason : Json.optional? Json.text? (d.reason.map Json.string) = some d.reason :=
    @Json.optional?_map _ Json.text? Json.string (fun _ => rfl) (fun _ => Json.noConfusion) _
  have hindex := Json.optional?_map MessageIndex.ofJson?_toJson fun _ => Json.noConfusion
  have hcounter := Json.optional?_map Counter.ofJson?_toJson fun _ => Json.noConfusion
  rw [ofJson?, hrecord]
  simp only [Option.bind_eq_bind, Option.bind_some, hresource, hbatch, hreason, hindex, hcounter,
    Option.pure_def]

lemma isPlain_toJson (d : FailureDetails) : d.toJson.isPlain = true := by
  refine Json.membersPlain_present fun field hmem j hj => ?_
  simp only [List.mem_cons, List.not_mem_nil, or_false] at hmem
  rcases hmem with rfl | rfl | rfl | rfl | rfl | rfl | rfl | rfl | rfl | rfl <;>
    (obtain ⟨a, -, rfl⟩ := Option.map_eq_some_iff.1 hj)
  · cases a <;> rfl
  all_goals rfl

end FailureDetails

/-! ## Error objects -/

/-- An error object as it crosses the wire: what it says of the cause is JSON text. -/
structure ErrorText where
  /-- The code of the cause. -/
  code : Int
  /-- The wording. -/
  message : String
  /-- The details, as JSON text. -/
  data : Option String
deriving DecidableEq, Repr

/-- Writes the details of an error object. -/
def ErrorObject.write (e : ErrorObject) : ErrorText where
  code := e.code
  message := e.message
  data := e.data.map Json.compress

/-- Reads the details of an error object, which must be JSON text if there are any. -/
def ErrorText.read? (t : ErrorText) : Option ErrorObject :=
  match t.data with
  | none => some ⟨t.code, t.message, none⟩
  | some text => (Json.read? text).map fun j => ⟨t.code, t.message, some j⟩

namespace Failure

/-- The details of a cause are all that is needed to know it, beside its code. -/
lemma ofDetails?_details (f : Failure) : ofDetails? f.code f.message f.details = some f := by
  cases f <;> rfl

lemma ofErrorObject_toErrorObject (f : Failure) (complaint : Json → Option String) :
    ofErrorObject f.toErrorObject complaint = f := by
  have hcause := f.ofDetails?_details
  by_cases hempty : f.details = .empty
  · rw [hempty] at hcause
    rw [toErrorObject, if_pos hempty, ofErrorObject]
    simp only [hcause, Option.getD_some]
  · rw [toErrorObject, if_neg hempty, ofErrorObject]
    simp only [f.details.ofJson?_toJson, hcause, Option.getD_some]

/-- The details of an error object are read as they were written. -/
lemma read?_write (f : Failure) : f.toErrorObject.write.read? = some f.toErrorObject := by
  unfold toErrorObject
  by_cases hempty : f.details = .empty
  · rw [if_pos hempty]
    rfl
  · rw [if_neg hempty, ErrorText.read?]
    dsimp only [ErrorObject.write, Option.map_some]
    rw [Json.read?_compress f.details.isPlain_toJson]
    rfl

/-- What the other side takes a failure for, when it is told of it; `complaint` is what its reader
says of data that is no record of details. -/
def told (f : Failure) (complaint : Json → Option String) : Option Failure :=
  f.toErrorObject.write.read?.map fun e => ofErrorObject e complaint

/-- **Every failure survives the wire.** Its error object, the details of which are written as JSON
text and read from there, stands for this failure again, whatever its cause, the numbers, counts and
resources that it names and the reason that it gives. So no two failures have the same error object,
and both sides put a failure into the same class. -/
theorem told_eq (complaint : Json → Option String) :
    (∀ f : Failure, f.told complaint = some f) ∧
      (Function.Injective fun f : Failure => f.toErrorObject.write) ∧
      ∀ f : Failure, (f.told complaint).map kind = some f.kind ∧
        (f.told complaint).map isTransient = some f.isTransient ∧
        (f.told complaint).map isFatalForSequencing = some f.isFatalForSequencing := by
  have htold : ∀ f : Failure, f.told complaint = some f := by
    intro f
    rw [told, read?_write, Option.map_some, ofErrorObject_toErrorObject]
  refine ⟨htold, fun f g h => ?_, fun f => ?_⟩
  · have hsame : f.told complaint = g.told complaint :=
      congrArg (fun t => t.read?.map fun e => ofErrorObject e complaint) h
    rw [htold, htold] at hsame
    exact Option.some.inj hsame
  · rw [htold]
    exact ⟨rfl, rfl, rfl⟩

/-- The object of a lookup that failed for a reason with quotes, a line break and letters beyond
ASCII. -/
example : (lookupUnavailable (.messageBatch ⟨7⟩) "\"é\"\n").toErrorObject.write =
    ⟨-38003, "batch containing message 7 lookup unavailable: \"é\"\n",
      some ("\x7b\"resource\":\x7b\"kind\":\"messageBatch\",\"message\":7\x7d," ++
        "\"reason\":\"\\\"é\\\"\\n\"\x7d")⟩ := by
  decide +kernel

end Failure

end ConsensusLink
