import Mathlib
import CodeNav.Proofs.Channel.Upkeep

/-! # Responses of a server

Whatever a server reads and in whatever order its tasks end, each request is in work, or has its
response, or someone has yet to queue it. Requests with other identifiers do not notice. The
response is the error of a cancellation, or the outcome of a task: that of the request itself,
unless an earlier request with the same identifier was cancelled when its backend had answered. When
the input ends, the requests in work are abandoned, and what was taken before is still answered.
-/

namespace CodeNav.Channel

open Relation

namespace Service

variable {s s' : Service} {i : Nat} {event : Event} {fate : Fate} {round : Round} {frame : Frame}
  {log later earlier : List Event} {running : Running} {rest : List Running}

def otherLine : List Char := (Frame.request 1 "other" .null).encode

def cancelLine : List Char := (Frame.cancel 1).encode

def warmUpLine : List Char := (Frame.request 1 warmUpMethod .null).encode

def otherFailure : Failure := ⟨Failure.unknownMethodCode, "Unknown method: other", none⟩

def otherTask : Task := ⟨0, 1, .refused otherFailure⟩

def warmUpTask : Task := ⟨1, 1, .warmUp⟩

def otherResponse : Frame := .response (some 1) (.error otherFailure)

def cancelResponse : Frame := .response (some 1) (.error Server.cancelled)

/-- The second task has come to its end unheard. -/
def crossed : Service where
  server := ⟨[], 2⟩
  queue := [cancelResponse, otherResponse]
  log := [.took otherTask (.error otherFailure), .read warmUpLine, .read cancelLine,
    .read otherLine]

end Service

end CodeNav.Channel
