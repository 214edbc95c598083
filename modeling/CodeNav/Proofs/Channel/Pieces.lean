import CodeNav.Rehearsal.Calling
import CodeNav.Rehearsal.Serving

/-! # A stream that arrives in pieces

Both ends cut what they receive at line feeds and keep the bytes of the line that is still open.
So they read the same lines in whatever pieces the stream arrives; only the serving end tells the
pieces apart, since its tasks run between them.
-/

namespace CodeNav.Channel

variable {line rest : List UInt8}

theorem cutLines_line (h : lineFeed ∉ line) (bytes : List UInt8) :
    cutLines (line ++ lineFeed :: bytes) = (line :: (cutLines bytes).1, (cutLines bytes).2) := by
  induction line with
  | nil => rfl
  | cons b line ih =>
    rw [List.mem_cons, not_or] at h
    rw [List.cons_append, cutLines, ih h.2]
    exact if_neg (Ne.symm h.1)

/-- What has been cut so far stays as it is, and the line that is open goes on. -/
theorem cutLines_append (bytes more : List UInt8) :
    cutLines (bytes ++ more) =
      ((cutLines bytes).1 ++ (cutLines ((cutLines bytes).2 ++ more)).1,
        (cutLines ((cutLines bytes).2 ++ more)).2) := by
  induction bytes with
  | nil => rfl
  | cons b bytes ih =>
    by_cases hb : b = lineFeed
    · simp [cutLines, ih, hb]
    · cases hlines : (cutLines bytes).1 with
      | nil => simp [cutLines, ih, hb, hlines]
      | cons line lines => simp [cutLines, ih, hb, hlines]

def IsOpen (bytes : List UInt8) : Prop := cutLines bytes = ([], bytes)

theorem isOpen_nil : IsOpen [] := rfl

theorem isOpen_rest (bytes : List UInt8) : IsOpen (cutLines bytes).2 := by
  have happend := cutLines_append bytes []
  rw [List.append_nil, List.append_nil, Prod.ext_iff] at happend
  obtain ⟨hlines, hrest⟩ := happend
  exact Prod.ext (List.self_eq_append_right.mp hlines) hrest.symm

/-- The lines that each piece ends, the first of them after the bytes that are still open. -/
def cutPieces (rest : List UInt8) : List (List UInt8) → List (List (List UInt8))
  | [] => []
  | piece :: pieces =>
    (cutLines (rest ++ piece)).1 :: cutPieces (cutLines (rest ++ piece)).2 pieces

/-- Where a stream is broken into pieces makes no difference to its lines. -/
theorem flatten_cutPieces (hrest : IsOpen rest) (pieces : List (List UInt8)) :
    (cutPieces rest pieces).flatten = (cutLines (rest ++ pieces.flatten)).1 := by
  induction pieces generalizing rest with
  | nil => rw [List.flatten_nil, List.append_nil, hrest]; rfl
  | cons piece pieces ih =>
    rw [List.flatten_cons, ← List.append_assoc, cutLines_append, ← ih (isOpen_rest _)]
    rfl

theorem length_cutPieces (rest : List UInt8) (pieces : List (List UInt8)) :
    (cutPieces rest pieces).length = pieces.length := by
  induction pieces generalizing rest with
  | nil => rfl
  | cons piece pieces ih => simp [cutPieces, ih]

/-- An end of the channel, as far as it is about the bytes of the line that is open. -/
structure Reader (σ : Type) where
  buffer : σ → List UInt8
  withBuffer : σ → List UInt8 → σ
  readLines : σ → List (List UInt8) → σ
  buffer_withBuffer : ∀ state bytes, buffer (withBuffer state bytes) = bytes
  withBuffer_buffer : ∀ state, withBuffer state (buffer state) = state
  withBuffer_withBuffer : ∀ state bytes more,
    withBuffer (withBuffer state bytes) more = withBuffer state more
  /-- The lines that have ended are read without regard to the one that has not. -/
  readLines_withBuffer : ∀ state bytes lines,
    readLines (withBuffer state bytes) lines = withBuffer (readLines state lines) bytes

namespace Reader

variable {σ : Type} (reader : Reader σ)

def receive (state : σ) (piece : List UInt8) : σ :=
  reader.withBuffer (reader.readLines state (cutLines (reader.buffer state ++ piece)).1)
    (cutLines (reader.buffer state ++ piece)).2

theorem foldl_readLines_withBuffer (state : σ) (bytes : List UInt8)
    (groups : List (List (List UInt8))) :
    groups.foldl reader.readLines (reader.withBuffer state bytes) =
      reader.withBuffer (groups.foldl reader.readLines state) bytes :=
  List.foldl_hom (fun state => reader.withBuffer state bytes)
    (fun state lines => reader.readLines_withBuffer state bytes lines)

/-- A stream is read piece by piece, and what is open in the end is kept. -/
theorem foldl_receive (state : σ) (h : IsOpen (reader.buffer state)) (pieces : List (List UInt8)) :
    pieces.foldl reader.receive state =
      reader.withBuffer ((cutPieces (reader.buffer state) pieces).foldl reader.readLines state)
        (cutLines (reader.buffer state ++ pieces.flatten)).2 := by
  induction pieces generalizing state with
  | nil =>
    rw [List.flatten_nil, List.append_nil, h]
    exact (reader.withBuffer_buffer state).symm
  | cons piece pieces ih =>
    have hbuffer : reader.buffer (reader.receive state piece) =
        (cutLines (reader.buffer state ++ piece)).2 := reader.buffer_withBuffer ..
    have hopen : IsOpen (reader.buffer (reader.receive state piece)) := hbuffer ▸ isOpen_rest _
    rw [List.foldl_cons, ih _ hopen, hbuffer, receive, foldl_readLines_withBuffer,
      reader.withBuffer_withBuffer, List.flatten_cons, ← List.append_assoc,
      cutLines_append (reader.buffer state ++ piece), cutPieces, List.foldl_cons]

theorem foldl_receive_of_ended {state : σ} {pieces : List (List UInt8)}
    (hstate : reader.buffer state = []) (hended : (cutLines pieces.flatten).2 = []) :
    pieces.foldl reader.receive state = (cutPieces [] pieces).foldl reader.readLines state := by
  have hopen : IsOpen (reader.buffer state) := hstate ▸ isOpen_nil
  have hsame : reader.withBuffer state [] = state := by
    rw [← hstate, reader.withBuffer_buffer]
  rw [reader.foldl_receive state hopen, hstate, List.nil_append, hended,
    ← reader.foldl_readLines_withBuffer, hsame]

end Reader

end CodeNav.Channel

namespace CodeNav.Calling

open Channel

variable (state : Calling) (buffer : List UInt8)

def withBuffer : Calling := { state with buffer }

def readBytes (line : List UInt8) : Calling := state.readLine (lineText? line)

theorem readLine_withBuffer (text? : Option (List Char)) :
    (state.withBuffer buffer).readLine text? = (state.readLine text?).withBuffer buffer := by
  simp only [withBuffer, readLine]
  by_cases hreading : state.isReading = true
  · simp only [hreading, if_true]
    cases text? with
    | none => rfl
    | some line =>
      dsimp only
      cases (state.caller.receive line).2 <;> rfl
  · simp only [hreading, Bool.false_eq_true, if_false]

theorem foldl_readBytes_withBuffer (lines : List (List UInt8)) :
    lines.foldl readBytes (state.withBuffer buffer) =
      (lines.foldl readBytes state).withBuffer buffer :=
  List.foldl_hom (fun state => state.withBuffer buffer)
    (fun state line => readLine_withBuffer state buffer (lineText? line))

def reader : Reader Calling where
  buffer := Calling.buffer
  withBuffer := withBuffer
  readLines state lines := lines.foldl readBytes state
  buffer_withBuffer _ _ := rfl
  withBuffer_buffer _ := rfl
  withBuffer_withBuffer _ _ _ := rfl
  readLines_withBuffer := foldl_readBytes_withBuffer

theorem receive_eq : receive = reader.receive := by
  funext state piece
  exact foldl_readBytes_withBuffer ..

end CodeNav.Calling

namespace CodeNav.Serving

open Channel

variable (state : Serving) (buffer : List UInt8)

def withBuffer : Serving := { state with buffer }

def readBytes (line : List UInt8) : Serving := state.readLine (lineText? line)

theorem update_withBuffer (result : Server × List Server.Effect) :
    (state.withBuffer buffer).update result = (state.update result).withBuffer buffer := by
  have heffects : result.2.foldl perform
      (({ state with server := result.1 } : Serving).withBuffer buffer) =
        (result.2.foldl perform { state with server := result.1 }).withBuffer buffer := by
    refine List.foldl_hom (fun state : Serving => state.withBuffer buffer) fun state effect => ?_
    cases effect <;> rfl
  exact heffects

theorem readLine_withBuffer (text? : Option (List Char)) :
    (state.withBuffer buffer).readLine text? = (state.readLine text?).withBuffer buffer := by
  simp only [readLine]
  by_cases hreading : state.isReading = true
  · have hheld : (state.withBuffer buffer).isReading = true := hreading
    simp only [hreading, hheld, if_true]
    cases text? with
    | none => rfl
    | some line => exact update_withBuffer ..
  · have hheld : ¬ (state.withBuffer buffer).isReading = true := hreading
    rw [if_neg hreading, if_neg hheld]

theorem turn_withBuffer (ready : Ready) :
    (state.withBuffer buffer).turn ready = (state.turn ready).withBuffer buffer := by
  cases ready with
  | drop name => rfl
  | start task id work =>
    have hscript : (state.withBuffer buffer).script = state.script := rfl
    simp only [turn, hscript]
    split
    · rfl
    · next event delay outcome _ _ =>
      split
      · exact update_withBuffer { state with events := state.events ++ [event] } buffer _
      · rfl
    · exact update_withBuffer ..
    · rfl

theorem settle_withBuffer :
    (state.withBuffer buffer).settle = state.settle.withBuffer buffer := by
  have hturns : state.ready.foldl turn (({ state with ready := [] } : Serving).withBuffer buffer) =
      (state.ready.foldl turn { state with ready := [] }).withBuffer buffer :=
    List.foldl_hom (fun state : Serving => state.withBuffer buffer)
      (fun state ready => turn_withBuffer state buffer ready)
  have hstart : ({ state.withBuffer buffer with ready := [] } : Serving) =
      ({ state with ready := [] } : Serving).withBuffer buffer := rfl
  have hready : (state.withBuffer buffer).ready = state.ready := rfl
  simp only [settle, hstart, hready, hturns]
  rw [apply_ite (fun state : Serving => state.withBuffer buffer)]
  rfl

theorem foldl_readBytes_withBuffer (lines : List (List UInt8)) :
    lines.foldl readBytes (state.withBuffer buffer) =
      (lines.foldl readBytes state).withBuffer buffer :=
  List.foldl_hom (fun state => state.withBuffer buffer)
    (fun state line => readLine_withBuffer state buffer (lineText? line))

/-- Reads the lines that a piece ends, and lets the tasks run. -/
def readLines (lines : List (List UInt8)) : Serving := (lines.foldl readBytes state).settle

theorem readLines_withBuffer (lines : List (List UInt8)) :
    (state.withBuffer buffer).readLines lines = (state.readLines lines).withBuffer buffer := by
  rw [readLines, foldl_readBytes_withBuffer, settle_withBuffer, readLines]

def reader : Reader Serving where
  buffer := Serving.buffer
  withBuffer := withBuffer
  readLines := readLines
  buffer_withBuffer _ _ := rfl
  withBuffer_buffer _ := rfl
  withBuffer_withBuffer _ _ _ := rfl
  readLines_withBuffer := readLines_withBuffer

theorem receive_eq : receive = reader.receive := by
  funext state piece
  exact readLines_withBuffer ..

end CodeNav.Serving
