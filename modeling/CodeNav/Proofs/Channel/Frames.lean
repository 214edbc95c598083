import CodeNav.Channel.Caller
import CodeNav.Channel.Server

/-! # Frames at the other end

A frame that crosses the channel comes back as it was sent, up to values that are `null`, which
read as left out. Neither end can tell the difference. This is what each end does with such a
frame.
-/

namespace CodeNav.Channel

variable {id : Nat} {method : String} {params : Json} {outcome : Outcome} {frame : Frame}
  {server : Server}

/-- A value as it is read back: `null` stands for none. -/
def readBack : Option Json → Option Json
  | some .null => none
  | value? => value?

theorem ofOption_readBack (value : Json) : Json.ofOption (readBack (some value)) = value := by
  cases value <;> rfl

def Failure.received (failure : Failure) : Failure :=
  { failure with data? := readBack failure.data? }

theorem Failure.received_eq {failure : Failure} (h : failure.data? = none) :
    failure.received = failure := by
  obtain ⟨code, message, data?⟩ := failure
  obtain rfl : data? = none := h
  rfl

/-- An outcome as the other end takes it out of its response. -/
def Outcome.received (outcome : Outcome) : Outcome := outcome.mapError Failure.received

namespace Frame

def received (frame : Frame) : Frame :=
  { frame with
    params? := readBack frame.params?
    result? := readBack frame.result?
    error? := frame.error?.map Failure.received }

/-- The frame survives the channel: no number in it is out of range, and it is not too deep. -/
def IsReadBack (frame : Frame) : Prop := decode? frame.encode = some frame.received

@[simp] theorem id?_response (id? : Option Nat) (outcome : Outcome) :
    (response id? outcome).id? = id? := by
  cases outcome <;> rfl

def ids (frames : List Frame) : List Nat := frames.filterMap (·.id?)

section

variable (id : Nat) (method : String) (params : Json) (outcome : Outcome)
  (frames others : List Frame)

@[simp] theorem ids_append : ids (frames ++ others) = ids frames ++ ids others :=
  List.filterMap_append

@[simp] theorem ids_nil : ids [] = [] := rfl

@[simp] theorem ids_request_cons :
    ids (request id method params :: frames) = id :: ids frames := rfl

@[simp] theorem ids_cancel_cons : ids (cancel id :: frames) = ids frames := rfl

@[simp] theorem ids_response_cons :
    ids (response (some id) outcome :: frames) = id :: ids frames := by
  cases outcome <;> rfl

end

theorem encode_not_blank (frame : Frame) : frame.encode.all Text.isBlank = false := by
  have hbrace : Text.isBlank '{' = false := by decide
  simp [encode, toJson, Json.compact, hbrace]

theorem outcome_response (id? : Option Nat) (outcome : Outcome) :
    (response id? outcome).received.outcome = outcome.received := by
  cases outcome with
  | ok result => exact congrArg Except.ok (ofOption_readBack result)
  | error failure => rfl

end Frame

namespace Caller

theorem receive_encode (caller : Caller) (h : frame.IsReadBack) :
    caller.receive frame.encode = caller.receiveFrame frame.received := by
  rw [Frame.IsReadBack] at h
  simp only [receive, frame.encode_not_blank, Bool.false_eq_true, if_false, h]

/-- A response completes the call of its identifier, if that call is pending. -/
theorem receive_response (caller : Caller) (h : (Frame.response (some id) outcome).IsReadBack) :
    caller.receive (Frame.response (some id) outcome).encode =
      if id ∈ caller.pending then (caller.settle id, some (id, outcome.received))
      else (caller, none) := by
  have hid : (Frame.response (some id) outcome).received.id? = some id := Frame.id?_response ..
  have hresponse : (Frame.response (some id) outcome).received.isResponse = true := by
    cases outcome <;> rfl
  simp [receive_encode caller h, receiveFrame, hid, hresponse, Frame.outcome_response]

end Caller

theorem searchArgument?_readBack (params? : Option Json) :
    Work.searchArgument? (readBack params?) = Work.searchArgument? params? := by
  rcases params? with _ | _ | _ <;> rfl

theorem ofRequest_readBack (method : String) (params? : Option Json) :
    Work.ofRequest method (readBack params?) = Work.ofRequest method params? := by
  simp only [Work.ofRequest, Work.ofSearch, searchArgument?_readBack]

namespace Work

/-- With some backend, the work comes to this outcome. -/
def MayEnd (work : Work) (outcome : Outcome) : Prop :=
  ∃ backend delay, work.reply backend = .after delay outcome

theorem received_eq_of_map {α : Type} {reply : Reply α} {delay : Duration} {write : α → Json}
    (h : (reply.map fun result => (result.mapError Failure.ofError).map write) =
      .after delay outcome) : outcome.received = outcome := by
  cases reply with
  | never => simp [Timed.map] at h
  | after _ result =>
    simp only [Timed.map, Timed.after.injEq] at h
    rw [← h.2]
    cases result <;> rfl

theorem ofRequest_cases (method : String) (params? : Option Json) :
    (∃ query, ofRequest method params? = search query) ∨ ofRequest method params? = warmUp ∨
      ∃ failure, ofRequest method params? = refused failure ∧ failure.data? = none := by
  unfold ofRequest ofSearch
  split
  · split
    · exact .inr (.inr ⟨_, rfl, rfl⟩)
    · split
      · exact .inl ⟨_, rfl⟩
      · exact .inr (.inr ⟨_, rfl, rfl⟩)
  · split
    · exact .inr (.inl rfl)
    · exact .inr (.inr ⟨_, rfl, rfl⟩)

/-- No error of a requested work has data, so its outcome comes back as it is. -/
theorem MayEnd.received_eq {params? : Option Json}
    (h : (ofRequest method params?).MayEnd outcome) : outcome.received = outcome := by
  obtain ⟨backend, delay, h⟩ := h
  rcases ofRequest_cases method params? with ⟨query, hwork⟩ | hwork | ⟨failure, hwork, hdata⟩
  · rw [hwork] at h
    exact received_eq_of_map h
  · rw [hwork] at h
    exact received_eq_of_map h
  · simp only [hwork, reply, Timed.now, Timed.after.injEq] at h
    rw [← h.2]
    exact congrArg Except.error (Failure.received_eq hdata)

end Work

theorem cancelledId?_of_params {value : Json} (h : frame.params? = some (.object [("id", value)])) :
    frame.cancelledId? = value.natural? := by
  have hmember : (Json.object [("id", value)]).member? "id" = some value := by simp [Json.member?]
  simp only [Frame.cancelledId?, h, bind, Option.bind, hmember]

theorem natural?_natural {n : Nat} (h : Json.ExactInteger n) :
    (Json.natural n).natural? = some n := by
  rw [Json.natural, dif_pos h, Json.natural?, if_pos (Int.natCast_nonneg n), Int.toNat_natCast]

theorem natural?_natural_of_not {n : Nat} (h : ¬ Json.ExactInteger n) :
    (Json.natural n).natural? = none := by
  rw [Json.natural, dif_neg h, Json.natural?]
  simp

namespace Server

theorem receive_encode (h : frame.IsReadBack) :
    server.receive frame.encode = server.receiveFrame frame.received := by
  rw [Frame.IsReadBack] at h
  simp only [receive, frame.encode_not_blank, Bool.false_eq_true, if_false, h]

theorem receive_request (hmethod : method ≠ Frame.cancelMethod)
    (h : (Frame.request id method params).IsReadBack) :
    server.receive (Frame.request id method params).encode =
      server.start id (.ofRequest method (some params)) := by
  rw [receive_encode h, ← ofRequest_readBack]
  simp only [receiveFrame, Frame.received, Frame.request, hmethod, if_false]

theorem receive_cancel (h : (Frame.cancel id).IsReadBack) :
    server.receive (Frame.cancel id).encode = server.cancel id ∨
      server.receive (Frame.cancel id).encode = (server, []) := by
  have hid : (Frame.cancel id).received.cancelledId? = (Json.natural id).natural? :=
    cancelledId?_of_params rfl
  have hmethod : (Frame.cancel id).received.method? = some Frame.cancelMethod := rfl
  rw [receive_encode h]
  simp only [receiveFrame, hmethod, if_true, hid]
  by_cases hexact : Json.ExactInteger id
  · exact .inl (by rw [natural?_natural hexact])
  · exact .inr (by rw [natural?_natural_of_not hexact])

end Server

end CodeNav.Channel
