import CodeNav.ErrorChain
import CodeNav.Json.Decoder
import CodeNav.Json.Printer

/-! # Frames of the channel

Host and child exchange frames, each a JSON object on a line of its own. A frame with a method is a
request if it has an identifier and a notification if not; a frame without one is a response.
-/

namespace CodeNav.Channel

open Json

/-- The error object of a response. -/
structure Failure where
  code : Int
  message : String
  data? : Option Json := none

namespace Failure

def parseErrorCode : Int := -32700
def unknownMethodCode : Int := -32601
def invalidParamsCode : Int := -32602
def internalErrorCode : Int := -32603
def cancelledCode : Int := -32800

def ofError (error : ErrorChain) : Failure := ⟨internalErrorCode, error.text, none⟩

def text (failure : Failure) : String :=
  failure.message ++ " (code " ++ toString failure.code ++ ")"

def toJson (failure : Failure) : Json :=
  .object <|
    [("code", .integer failure.code), ("message", .string failure.message)] ++
      (failure.data?.map fun data => ("data", data)).toList

def decoder : Decoder Failure := fun depth document => do
  let (depth, fields) ← Decoder.fields ["code", "message", "data"] depth document
  match fields with
  | [code, message, data] =>
    return {
      code := ← Decoder.required Decoder.integer depth code
      message := ← Decoder.required Decoder.string depth message
      data? := ← Decoder.defaulted none (Decoder.option Decoder.value) depth data }
  | _ => none

end Failure

/-- What a response reports. -/
abbrev Outcome := Except Failure Json

structure Frame where
  version : String
  id? : Option Nat := none
  method? : Option String := none
  params? : Option Json := none
  result? : Option Json := none
  error? : Option Failure := none

namespace Frame

def protocolVersion : String := "2.0"

def cancelMethod : String := "$/cancelRequest"

def request (id : Nat) (method : String) (params : Json) : Frame :=
  { version := protocolVersion, id? := some id, method? := some method, params? := some params }

def notification (method : String) (params : Json) : Frame :=
  { version := protocolVersion, method? := some method, params? := some params }

/-- The notification that a request is no longer of interest. -/
def cancel (id : Nat) : Frame := notification cancelMethod (.object [("id", .natural id)])

def response (id? : Option Nat) : Outcome → Frame
  | .ok result => { version := protocolVersion, id?, result? := some result }
  | .error failure => { version := protocolVersion, id?, error? := some failure }

def isResponse (frame : Frame) : Bool := frame.method?.isNone

/-- The outcome that a response reports. Without an error it is a success, and a result that is
missing stands for `null`. -/
def outcome (frame : Frame) : Outcome :=
  match frame.error? with
  | some failure => .error failure
  | none => .ok (Json.ofOption frame.result?)

def cancelledId? (frame : Frame) : Option Nat := do
  (← (← frame.params?).member? "id").natural?

/-- A field that is left out where there is no value. -/
def present (name : String) (value? : Option Json) : List (String × Json) :=
  (value?.map fun value => (name, value)).toList

def toJson (frame : Frame) : Json :=
  .object <|
    [("jsonrpc", .string frame.version)] ++ present "id" (frame.id?.map .natural) ++
      present "method" (frame.method?.map .string) ++ present "params" frame.params? ++
      present "result" frame.result? ++ present "error" (frame.error?.map Failure.toJson)

/-- The text of a frame, which holds no line feed. -/
def encode (frame : Frame) : List Char := frame.toJson.compact

def decoder : Decoder Frame := fun depth document => do
  let (depth, fields) ← Decoder.fields
    ["jsonrpc", "id", "method", "params", "result", "error"] depth document
  match fields with
  | [version, id, method, params, result, error] =>
    return {
      version := ← Decoder.required Decoder.string depth version
      id? := ← Decoder.defaulted none (Decoder.option Decoder.natural) depth id
      method? := ← Decoder.defaulted none (Decoder.option Decoder.string) depth method
      params? := ← Decoder.defaulted none (Decoder.option Decoder.value) depth params
      result? := ← Decoder.defaulted none (Decoder.option Decoder.value) depth result
      error? := ← Decoder.defaulted none (Decoder.option Failure.decoder) depth error }
  | _ => none

def decode? (line : List Char) : Option Frame := decoder.readText? line

end Frame

end CodeNav.Channel
