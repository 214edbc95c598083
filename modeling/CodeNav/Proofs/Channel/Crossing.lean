import CodeNav.Proofs.Channel.Frames
import CodeNav.Proofs.Json.Records
import CodeNav.Proofs.Json.Texts
import CodeNav.Proofs.Wire

/-! # Frames that cross the channel

A frame survives the channel if its identifier is a word, its numbers are exact integers, and its
values are not too deep and have their members in order.
-/

namespace CodeNav.Channel

open Json

variable {id depth : Nat} {name : String} {method : String} {params result value : Json}
  {value? : Option Json} {failure : Failure} {frame : Frame}

/-- How deep the values of a frame may be. The frame itself is a container around them. -/
def valueDepth : Nat := Document.maxDepth - 1

theorem Frame.forall_mem_present {p : Json → Prop} :
    (∀ member ∈ present name value?, p member.2) ↔ ∀ value ∈ value?, p value := by
  cases value? <;> simp [present]

theorem Frame.lookup_present_self (name : String) (value? : Option Json) :
    (present name value?).lookup name = value? := by
  cases value? <;> simp [present]

theorem Frame.lookup_present_of_ne {other : String} (h : name ≠ other) (value? : Option Json) :
    (present other value?).lookup name = none := by
  have hname : (name == other) = false := by simpa using h
  cases value? <;> simp [present, List.lookup_cons, hname]

theorem Frame.names_present (name : String) (value? : Option Json) :
    ((present name value?).map Prod.fst).Sublist [name] := by
  cases value? <;> simp [present]

theorem defaulted_value_ofJson (h : ∀ value ∈ value?, Fits depth value) :
    Decoder.defaulted none (Decoder.option Decoder.value) depth (value?.map .ofJson) =
      some (readBack value?) := by
  cases value? with
  | none => rfl
  | some value =>
    have hvalue := Document.value?_ofJson (h value rfl)
    cases value with
    | null => rfl
    | _ => exact congrArg (Option.map some) hvalue

theorem defaulted_natural_ofJson {id? : Option Nat} (h : ∀ id ∈ id?, id < wordLimit)
    (depth : Nat) :
    Decoder.defaulted none (Decoder.option Decoder.natural) depth
      ((id?.map .natural).map .ofJson) = some id? := by
  cases id? with
  | none => rfl
  | some id =>
    have hid := h id rfl
    have hread := Decoder.natural_ofJson hid depth
    rw [Option.map_some, Option.map_some]
    rw [natural_of_lt hid] at hread ⊢
    exact congrArg (Option.map some) hread

theorem defaulted_string_ofJson (text? : Option String) (depth : Nat) :
    Decoder.defaulted none (Decoder.option Decoder.string) depth
      ((text?.map .string).map .ofJson) = some text? := by
  cases text? <;> rfl

namespace Failure

structure IsPlain (failure : Failure) : Prop where
  exact : ExactInteger failure.code
  code : Decoder.IsInt64 failure.code
  data : failure.data? = none

theorem toJson_eq (exact : ExactInteger failure.code) :
    failure.toJson =
      .object ([("code", .number (.integer failure.code exact)),
        ("message", .string failure.message)] ++ Frame.present "data" failure.data?) := by
  rw [toJson, integer, dif_pos exact]
  rfl

theorem isExact_toJson (exact : ExactInteger failure.code)
    (hdata : ∀ data ∈ failure.data?, IsExact data) : IsExact failure.toJson := by
  rw [toJson_eq exact]
  exact .cons (.integer ..) (.cons (.string _) (.object (Frame.forall_mem_present.mpr hdata)))

theorem decoder_toJson (hcode : Decoder.IsInt64 failure.code)
    (hdata : ∀ data ∈ failure.data?, Fits depth data) :
    decoder (depth + 1) (.ofJson failure.toJson) = some failure.received := by
  have hnames := (Frame.names_present "data" failure.data?).append_left ["code", "message"]
  have hnodup := hnames.nodup (by decide)
  have hread := Decoder.integer_ofJson hcode.exactInteger hcode depth
  have hmessage : Decoder.string depth (.ofJson (.string failure.message)) =
      some failure.message := rfl
  rw [toJson_eq hcode.exactInteger, decoder, Decoder.fields_ofJson _ _ (by simpa using hnodup)]
  simp [List.lookup_cons, Frame.lookup_present_self, Decoder.required, hread, hmessage,
    defaulted_value_ofJson hdata, received]

end Failure

namespace Frame

/-- The values in the frame come back from the other end, except for what is `null`. -/
structure Crosses (frame : Frame) : Prop where
  id : ∀ id ∈ frame.id?, id < wordLimit
  params : ∀ params ∈ frame.params?, IsExact params ∧ Fits valueDepth params
  result : ∀ result ∈ frame.result?, IsExact result ∧ Fits valueDepth result
  code : ∀ failure ∈ frame.error?, Decoder.IsInt64 failure.code
  data : ∀ failure ∈ frame.error?, ∀ data ∈ failure.data?,
    IsExact data ∧ Fits (valueDepth - 1) data

theorem decode?_encode (h : IsExact frame.toJson) :
    decode? frame.encode = decoder Document.maxDepth (.ofJson frame.toJson) := by
  rw [decode?, encode, Decoder.readText?, Document.ofText?_compact h]
  rfl

namespace Crosses

theorem isExact_toJson (h : frame.Crosses) : IsExact frame.toJson := by
  refine .object ?_
  simp only [List.forall_mem_append, forall_mem_present, List.forall_mem_singleton,
    Option.mem_def, Option.map_eq_some_iff, forall_exists_index, and_imp,
    forall_apply_eq_imp_iff₂]
  refine ⟨⟨⟨⟨⟨.string _, fun id hid => ?_⟩, fun method _ => .string _⟩, fun params hparams => ?_⟩,
    fun result hresult => ?_⟩, fun failure hfailure => ?_⟩
  · rw [natural_of_lt (h.id id hid)]
    exact .integer ..
  · exact (h.params params hparams).1
  · exact (h.result result hresult).1
  · exact Failure.isExact_toJson (h.code failure hfailure).exactInteger fun data hdata =>
      (h.data failure hfailure data hdata).1

theorem defaulted_failure_ofJson (h : frame.Crosses) :
    Decoder.defaulted none (Decoder.option Failure.decoder) valueDepth
      ((frame.error?.map Failure.toJson).map .ofJson) =
        some (frame.error?.map Failure.received) := by
  cases herror : frame.error? with
  | none => rfl
  | some failure =>
    have hread := Failure.decoder_toJson (h.code failure herror) fun data hdata =>
      (h.data failure herror data hdata).2
    exact congrArg (Option.map some) hread

theorem isReadBack (h : frame.Crosses) : frame.IsReadBack := by
  have hnames := ((((((List.Sublist.refl ["jsonrpc"]).append
    (names_present "id" (frame.id?.map .natural))).append
    (names_present "method" (frame.method?.map .string))).append
    (names_present "params" frame.params?)).append
    (names_present "result" frame.result?)).append
    (names_present "error" (frame.error?.map Failure.toJson)))
  have hnodup := hnames.nodup (by decide)
  have hversion : Decoder.string valueDepth (.ofJson (.string frame.version)) =
      some frame.version := rfl
  have hid := defaulted_natural_ofJson h.id valueDepth
  have hmethod := defaulted_string_ofJson frame.method? valueDepth
  have hparams := defaulted_value_ofJson fun params hparams => (h.params params hparams).2
  have hresult := defaulted_value_ofJson fun result hresult => (h.result result hresult).2
  have herror := h.defaulted_failure_ofJson
  have hdepth : Document.maxDepth = valueDepth + 1 := rfl
  rw [IsReadBack, decode?_encode h.isExact_toJson, hdepth, decoder, toJson,
    Decoder.fields_ofJson _ _ (by simpa using hnodup)]
  simp [-Option.map_map, List.lookup_append, List.lookup_cons, lookup_present_self,
    lookup_present_of_ne, Decoder.required, hversion, hid, hmethod, hparams, hresult, herror,
    received]

end Crosses

theorem crosses_request (hid : id < wordLimit) (hparams : IsExact params ∧ Fits valueDepth params) :
    (request id method params).Crosses where
  id := by simpa [request] using hid
  params := by simpa [request] using hparams
  result := by simp [request]
  code := by simp [request]
  data := by simp [request]

theorem crosses_notification (hparams : IsExact params ∧ Fits valueDepth params) :
    (notification method params).Crosses where
  id := by simp [notification]
  params := by simpa [notification] using hparams
  result := by simp [notification]
  code := by simp [notification]
  data := by simp [notification]

theorem crosses_cancel (hid : id < wordLimit) : (cancel id).Crosses :=
  crosses_notification ⟨.cons (isExact_natural hid) .nil,
    .object (by simp [IsSorted]) (by simp [fits_natural])⟩

theorem crosses_success {id? : Option Nat} (hid : ∀ id ∈ id?, id < wordLimit)
    (hresult : IsExact result ∧ Fits valueDepth result) :
    (response id? (.ok result)).Crosses where
  id := hid
  params := by simp [response]
  result := by simpa [response] using hresult
  code := by simp [response]
  data := by simp [response]

theorem crosses_failure {id? : Option Nat} (hid : ∀ id ∈ id?, id < wordLimit)
    (hcode : Decoder.IsInt64 failure.code)
    (hdata : ∀ data ∈ failure.data?, IsExact data ∧ Fits (valueDepth - 1) data) :
    (response id? (.error failure)).Crosses where
  id := hid
  params := by simp [response]
  result := by simp [response]
  code := by simpa [response] using hcode
  data := by simpa [response] using hdata

theorem isReadBack_request (hid : id < wordLimit) (hexact : IsExact params)
    (hfits : Fits valueDepth params) : (request id method params).IsReadBack :=
  (crosses_request hid ⟨hexact, hfits⟩).isReadBack

theorem isReadBack_success (hid : id < wordLimit) (hexact : IsExact result)
    (hfits : Fits valueDepth result) : (response (some id) (.ok result)).IsReadBack :=
  (crosses_success (by simpa using hid) ⟨hexact, hfits⟩).isReadBack

theorem isReadBack_failure (hid : id < wordLimit) (hfailure : failure.IsPlain) :
    (response (some id) (.error failure)).IsReadBack :=
  (crosses_failure (by simpa using hid) hfailure.code (by simp [hfailure.data])).isReadBack

end Frame

end CodeNav.Channel
