import CodeNav.Proofs.Channel.Crossing
import CodeNav.Proofs.Json.Nesting

/-! # There and back

One kind of frame carries requests, notifications, cancellations and responses. Each of them is
told from the others at the other end, and what it says comes back, except that a value that is
`null` where it could have been left out is left out.
-/

namespace CodeNav.Channel

open Json

theorem nesting_natural (n : Nat) : (natural n).nesting = 0 :=
  Nat.le_zero.mp (fits_natural n 0).nesting_le

theorem Frame.nesting_present_le_iff {name : String} {value? : Option Json} {depth : Nat} :
    (∀ member ∈ present name value?, member.2.nesting ≤ depth) ↔
      ∀ value ∈ value?, value.nesting ≤ depth :=
  forall_mem_present (p := fun value => value.nesting ≤ depth)

theorem Failure.nesting_le_of_mem {failure : Failure} {data : Json} {depth : Nat}
    (h : failure.toJson.nesting ≤ depth + 1) (hdata : data ∈ failure.data?) :
    data.nesting ≤ depth := by
  rw [toJson, nesting_object_le_iff, List.forall_mem_append] at h
  exact Frame.nesting_present_le_iff.mp h.2 data hdata

/-- The values of a frame are in one container, its error in one as well. -/
theorem Frame.nesting_toJson_le_iff {frame : Frame} {depth : Nat} :
    frame.toJson.nesting ≤ depth + 1 ↔
      (∀ params ∈ frame.params?, params.nesting ≤ depth) ∧
        (∀ result ∈ frame.result?, result.nesting ≤ depth) ∧
          ∀ failure ∈ frame.error?, failure.toJson.nesting ≤ depth := by
  rw [toJson, nesting_object_le_iff]
  simp only [List.forall_mem_append, nesting_present_le_iff]
  simp [nesting, nesting_natural, and_assoc]

/-- What a frame is sent for. -/
inductive Meaning where
  | request (id : Nat) (method : String) (params : Json)
  | notification (method : String) (params : Json)
  | cancel (id : Nat)
  | response (id? : Option Nat) (outcome : Outcome)

namespace Meaning

variable {meaning : Meaning}

def frame : Meaning → Frame
  | request id method params => .request id method params
  | notification method params => .notification method params
  | cancel id => .cancel id
  | response id? outcome => .response id? outcome

def HasWords : Meaning → Prop
  | request id _ _ => id < wordLimit
  | notification _ _ => True
  | cancel id => id < wordLimit
  | response id? (.ok _) => ∀ id ∈ id?, id < wordLimit
  | response id? (.error failure) => (∀ id ∈ id?, id < wordLimit) ∧ Decoder.IsInt64 failure.code

def Carries (p : Json → Prop) : Meaning → Prop
  | request _ _ params => p params
  | notification _ params => p params
  | cancel _ => True
  | response _ (.ok result) => p result
  | response _ (.error failure) => ∀ data ∈ failure.data?, p data

/-- What the other end makes of the frame that it reads. -/
def IsTold (read : Frame) : Meaning → Prop
  | request _ _ _ => read.isResponse = false
  | notification _ _ => read.isResponse = false
  | cancel id => read.isResponse = false ∧ read.cancelledId? = some id
  | response _ outcome => read.isResponse = true ∧ read.outcome = outcome.received

theorem crosses (hwords : meaning.HasWords) (hordered : meaning.Carries IsOrdered)
    (hexact : meaning.Carries IsExact)
    (hnesting : meaning.frame.toJson.nesting ≤ Document.maxDepth) : meaning.frame.Crosses := by
  obtain ⟨hparams, hresult, herror⟩ := Frame.nesting_toJson_le_iff.mp hnesting
  cases meaning with
  | request id method params =>
    exact Frame.crosses_request hwords ⟨hexact, IsOrdered.fits hordered (hparams params rfl)⟩
  | notification method params =>
    exact Frame.crosses_notification ⟨hexact, IsOrdered.fits hordered (hparams params rfl)⟩
  | cancel id => exact Frame.crosses_cancel hwords
  | response id? outcome =>
    cases outcome with
    | ok result =>
      exact Frame.crosses_success hwords ⟨hexact, IsOrdered.fits hordered (hresult result rfl)⟩
    | error failure =>
      refine Frame.crosses_failure hwords.1 hwords.2 fun data hdata => ⟨hexact data hdata, ?_⟩
      exact (hordered data hdata).fits (Failure.nesting_le_of_mem (herror failure rfl) hdata)

/-- A frame of any meaning is read back up to values that are `null`, and its meaning is told. -/
theorem decode?_encode_frame (hwords : meaning.HasWords) (hordered : meaning.Carries IsOrdered)
    (hexact : meaning.Carries IsExact)
    (hnesting : meaning.frame.toJson.nesting ≤ Document.maxDepth) :
    Frame.decode? meaning.frame.encode = some meaning.frame.received ∧
      meaning.IsTold meaning.frame.received := by
  refine ⟨(crosses hwords hordered hexact hnesting).isReadBack, ?_⟩
  cases meaning with
  | request id method params => rfl
  | notification method params => rfl
  | cancel id =>
    refine ⟨rfl, ?_⟩
    have hid : (Frame.cancel id).received.cancelledId? = (natural id).natural? :=
      cancelledId?_of_params rfl
    exact hid.trans (natural?_natural (exactInteger_of_lt hwords))
  | response id? outcome =>
    refine ⟨?_, Frame.outcome_response id? outcome⟩
    cases outcome <;> rfl

/-- A failure with the greatest identifier and the least code. In its data a `null` stays. -/
theorem decode?_encode_frame_failure :
    let data : Json := .object [("at", .array [.natural 18446744073709551615, .null]),
      ("text", .string "a\r\n\x00")]
    let failure : Failure := ⟨-9223372036854775808, "lost", some data⟩
    let meaning : Meaning := .response (some 18446744073709551615) (.error failure)
    meaning.HasWords ∧ meaning.Carries IsOrdered ∧ meaning.Carries IsExact ∧
      meaning.frame.toJson.nesting ≤ Document.maxDepth ∧
        Frame.decode? meaning.frame.encode = some meaning.frame.received ∧
          meaning.IsTold meaning.frame.received := by
  intro data failure meaning
  have hword : 18446744073709551615 < wordLimit := by decide
  have hwords : meaning.HasWords := ⟨by simp [hword], by simp [failure, Decoder.IsInt64]⟩
  have hordered : meaning.Carries IsOrdered := by
    rintro _ ⟨⟩
    refine .object ?_ ?_
    · simp only [IsSorted, List.map_cons, List.map_nil]
      decide
    · simp only [List.forall_mem_cons, List.not_mem_nil, false_imp_iff, implies_true, and_true]
      refine ⟨.array ?_, .string _⟩
      simp [IsOrdered.null, (fits_natural _ 0).isOrdered]
  have hexact : meaning.Carries IsExact := by
    rintro _ ⟨⟩
    refine .cons (.array ?_) (.cons (.string _) .nil)
    simp [IsExact.null, isExact_natural hword]
  have hnesting : meaning.frame.toJson.nesting ≤ Document.maxDepth := by
    decide
  exact ⟨hwords, hordered, hexact, hnesting,
    decode?_encode_frame hwords hordered hexact hnesting⟩

end Meaning

end CodeNav.Channel
