/-! # Reading UTF-8

Bytes are read one by one. A sequence that is well formed gives its character; each longest start of
one that breaks off, and each byte that can start none, gives a gap. Reading strictly admits no gap,
reading leniently puts a replacement character in its place.
-/

namespace CodeNav.Text.Utf8

inductive State where
  | ready
  /-- A sequence that lacks `missing + 1` bytes, of which the next lies between two bounds. -/
  | within (missing : Nat) (least greatest : UInt8) (value : Nat)
  deriving DecidableEq, Repr

/-- The reader after the first byte of a sequence, with the character of a sequence of one byte. A
byte that starts no sequence leaves a gap. -/
def start (b : UInt8) : State × List (Option Char) :=
  let n := b.toNat
  if n < 0x80 then (.ready, [some (Char.ofNat n)])
  else if n < 0xC2 then (.ready, [none])
  else if n < 0xE0 then (.within 0 0x80 0xBF (n - 0xC0), [])
  else if n = 0xE0 then (.within 1 0xA0 0xBF 0, [])
  else if n = 0xED then (.within 1 0x80 0x9F 0xD, [])
  else if n < 0xF0 then (.within 1 0x80 0xBF (n - 0xE0), [])
  else if n = 0xF0 then (.within 2 0x90 0xBF 0, [])
  else if n < 0xF4 then (.within 2 0x80 0xBF (n - 0xF0), [])
  else if n = 0xF4 then (.within 2 0x80 0x8F 4, [])
  else (.ready, [none])

/-- Reads one byte. A byte that cannot continue a sequence ends it with a gap and starts anew. -/
def step (state : State) (b : UInt8) : State × List (Option Char) :=
  match state with
  | .ready => start b
  | .within missing least greatest value =>
    if least ≤ b ∧ b ≤ greatest then
      let value := value * 64 + b.toNat % 64
      match missing with
      | 0 => (.ready, [some (Char.ofNat value)])
      | missing + 1 => (.within missing 0x80 0xBF value, [])
    else
      let (state, read) := start b
      (state, none :: read)

/-- Reads bytes to the end, which breaks off a sequence that is not complete. -/
def readFrom : State → List UInt8 → List (Option Char)
  | .ready, [] => []
  | .within .., [] => [none]
  | state, b :: bytes =>
    let (state, read) := step state b
    read ++ readFrom state bytes

/-- The characters of a byte sequence, with gaps. -/
def read (bytes : List UInt8) : List (Option Char) := readFrom .ready bytes

/-- The text that the bytes encode, if they encode one. -/
def strict? (bytes : List UInt8) : Option (List Char) := (read bytes).mapM id

/-- Stands for a gap. -/
def replacement : Char := Char.ofNat 0xFFFD

/-- The text with a replacement character for each gap. -/
def lenient (bytes : List UInt8) : List Char := (read bytes).map (·.getD replacement)

def encode (text : List Char) : List UInt8 := text.flatMap String.utf8EncodeChar

end CodeNav.Text.Utf8
