import CodeNav.Proofs.Channel.Frames
import CodeNav.Proofs.Channel.Pieces
import CodeNav.Proofs.Json.Controls
import CodeNav.Proofs.Text.Utf8

/-! # Frames in a stream of bytes

A frame is written as a line of its own. Its text holds no control character, whatever its strings
hold, so the lines of the stream are those of the frames that were written: none is broken up, none
loses a carriage return, and none is blank.
-/

namespace CodeNav.Channel

variable {text : List Char}

theorem lineFeed_not_mem_encode (h : Json.IsPrinted text) : lineFeed ∉ Text.Utf8.encode text := by
  intro hmem
  obtain ⟨c, hc, hbyte⟩ := List.mem_flatMap.mp hmem
  have hcode : c.toNat = lineFeed.toNat := Text.Utf8.toNat_eq_of_mem hbyte (by decide)
  exact h.not_mem (by rw [hcode]; decide) hc

theorem lineText?_encode (h : Json.IsPrinted text) :
    lineText? (Text.Utf8.encode text) = some text := by
  have hlast : text.getLast? ≠ some '\r' := fun hlast =>
    h.not_mem (by decide) (List.mem_of_getLast? hlast)
  rw [lineText?, Text.Utf8.strict?_encode, Option.map_some, dropReturn, if_neg hlast]

/-- The bytes of frames, each on a line of its own. -/
def written (frames : List Frame) : List UInt8 :=
  frames.flatMap fun frame => lineBytes frame.encode

/-- The texts that are looked into: those of the lines that are not blank. There is no result if a
line is no text. -/
def texts? (lines : List (List UInt8)) : Option (List (List Char)) :=
  (lines.mapM lineText?).map fun texts => texts.filter fun text => !text.all Text.isBlank

theorem Frame.isPrinted_encode (frame : Frame) : Json.IsPrinted frame.encode :=
  Json.isPrinted_compact frame.toJson

theorem cutLines_written (frames : List Frame) :
    cutLines (written frames) = (frames.map fun frame => Text.Utf8.encode frame.encode, []) := by
  induction frames with
  | nil => rfl
  | cons frame frames ih =>
    have hline := lineFeed_not_mem_encode frame.isPrinted_encode
    rw [written, List.flatMap_cons, ← written, lineBytes, List.append_assoc, List.singleton_append,
      cutLines_line hline, ih]
    rfl

theorem mapM_lineText?_encode (frames : List Frame) :
    (frames.map fun frame => Text.Utf8.encode frame.encode).mapM lineText? =
      some (frames.map Frame.encode) := by
  induction frames with
  | nil => rfl
  | cons frame frames ih =>
    simp only [List.map_cons, List.mapM_cons, ih, lineText?_encode frame.isPrinted_encode,
      Option.bind_eq_bind, Option.bind_some, Option.pure_def]

theorem texts?_encode (frames : List Frame) :
    texts? (frames.map fun frame => Text.Utf8.encode frame.encode) =
      some (frames.map Frame.encode) := by
  have hkept : (frames.map Frame.encode).filter (fun text => !text.all Text.isBlank) =
      frames.map Frame.encode := by
    refine List.filter_eq_self.mpr fun text htext => ?_
    obtain ⟨frame, -, rfl⟩ := List.mem_map.mp htext
    rw [frame.encode_not_blank]
    rfl
  rw [texts?, mapM_lineText?_encode, Option.map_some, hkept]

theorem exists_groups {α β : Type} {f : α → β} {groups : List (List β)} {values : List α}
    (h : groups.flatten = values.map f) :
    ∃ sources : List (List α), sources.flatten = values ∧ groups = sources.map (List.map f) := by
  induction groups generalizing values with
  | nil => exact ⟨[], (List.map_eq_nil_iff.mp h.symm).symm, rfl⟩
  | cons group groups ih =>
    obtain ⟨first, others, rfl, rfl, hothers⟩ := List.map_eq_append_iff.mp h.symm
    obtain ⟨sources, rfl, rfl⟩ := ih hothers.symm
    exact ⟨first :: sources, rfl, rfl⟩

end CodeNav.Channel

namespace CodeNav

open Channel

def Calling.take (state : Calling) (frame : Frame) : Calling := state.readLine (some frame.encode)

theorem Calling.foldl_readBytes_encode (state : Calling) (frames : List Frame) :
    (frames.map fun frame => Text.Utf8.encode frame.encode).foldl readBytes state =
      frames.foldl take state := by
  rw [List.foldl_map]
  congr
  funext state frame
  rw [readBytes, lineText?_encode frame.isPrinted_encode, take]

def Serving.takeAll (state : Serving) (frames : List Frame) : Serving :=
  (frames.foldl (fun state frame => state.readLine (some frame.encode)) state).settle

theorem Serving.readLines_encode (state : Serving) (frames : List Frame) :
    state.readLines (frames.map fun frame => Text.Utf8.encode frame.encode) =
      state.takeAll frames := by
  rw [readLines, List.foldl_map, takeAll]
  congr
  funext state frame
  rw [readBytes, lineText?_encode frame.isPrinted_encode]

/-- The frames are what both ends find in a stream of bytes. -/
structure Channel.IsFramed (frames : List Frame) (pieces : List (List UInt8)) : Prop where
  /-- Each line is that of a frame, and none is left open. -/
  lines : cutLines pieces.flatten = (frames.map fun frame => Text.Utf8.encode frame.encode, [])
  /-- No line is passed over, and none loses a character. -/
  texts : texts? (cutLines pieces.flatten).1 = some (frames.map Frame.encode)
  calling : ∀ state : Calling, state.buffer = [] →
    pieces.foldl Calling.receive state = frames.foldl Calling.take state
  /-- The tasks of the serving end run after each piece. -/
  serving : ∀ state : Serving, state.buffer = [] →
    ∃ groups : List (List Frame), groups.flatten = frames ∧ groups.length = pieces.length ∧
      pieces.foldl Serving.receive state = groups.foldl Serving.takeAll state

namespace Channel

variable {frames : List Frame} {pieces : List (List UInt8)}

theorem flatten_cutPieces_written (h : pieces.flatten = written frames) :
    (cutPieces [] pieces).flatten = frames.map fun frame => Text.Utf8.encode frame.encode := by
  rw [flatten_cutPieces isOpen_nil, List.nil_append, h, cutLines_written]

/-- In whatever pieces the bytes of frames arrive, both ends find exactly these frames. -/
theorem isFramed_of_flatten_eq (h : pieces.flatten = written frames) : IsFramed frames pieces where
  lines := by rw [h, cutLines_written]
  texts := by rw [h, cutLines_written, texts?_encode]
  calling state hstate := by
    have hended : (cutLines pieces.flatten).2 = [] := by rw [h, cutLines_written]
    have hread : pieces.foldl Calling.receive state =
        (cutPieces [] pieces).foldl (fun state group => group.foldl Calling.readBytes state)
          state :=
      Calling.receive_eq ▸ Calling.reader.foldl_receive_of_ended hstate hended
    rw [hread, ← List.foldl_flatten, flatten_cutPieces_written h, Calling.foldl_readBytes_encode]
  serving state hstate := by
    have hended : (cutLines pieces.flatten).2 = [] := by rw [h, cutLines_written]
    have hread : pieces.foldl Serving.receive state =
        (cutPieces [] pieces).foldl Serving.readLines state :=
      Serving.receive_eq ▸ Serving.reader.foldl_receive_of_ended hstate hended
    obtain ⟨groups, hgroups, hcut⟩ := exists_groups (flatten_cutPieces_written h)
    refine ⟨groups, hgroups, ?_, ?_⟩
    · rw [← length_cutPieces [] pieces, hcut, List.length_map]
    · rw [hread, hcut, List.foldl_map]
      congr
      funext state group
      exact Serving.readLines_encode state group

/-- A request whose text has every kind of line end, and its cancellation, in two pieces. -/
theorem isFramed_in_two_pieces :
    let frames : List Frame :=
      [.request 1 searchMethod (.object [("name", .string "a\r\n\u2028\"\x00\\")]), .cancel 1]
    let pieces := [(written frames).take 60, (written frames).drop 60]
    pieces.flatten = written frames ∧ IsFramed frames pieces :=
  ⟨by simp, isFramed_of_flatten_eq (by simp)⟩

end Channel

end CodeNav
