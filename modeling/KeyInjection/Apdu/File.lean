-- SUMMARY: Payloads of the file commands and of the answer to a selection.
import KeyInjection.Apdu.Codec
import KeyInjection.Apdu.Header
import KeyInjection.Apdu.Display

/-!
# File payloads

A file is selected by name, for reading or to be written anew, and then read or written in pieces.
Numbers are little-endian. The name of a selection has 1 to 32 bytes; a reader takes any announced
length that the payload has room for. The data of a write extend to the end of the payload, so a
write always takes the whole of it.
-/

namespace KeyInjection

-- ---------------------------------------------------------------------------
-- Selection
-- ---------------------------------------------------------------------------

/-- What a file is selected for. -/
inductive SelectMode where
  /-- Reading an existing file. -/
  | read
  /-- Writing: the file is created, or emptied. -/
  | truncate
  deriving DecidableEq, Repr

namespace SelectMode

def code : SelectMode → UInt8
  | read => 0x00
  | truncate => 0x01

def ofCode? : UInt8 → Option SelectMode
  | 0x00 => some read
  | 0x01 => some truncate
  | _ => none

def name : SelectMode → String
  | read => "Read"
  | truncate => "Truncate"

@[simp] theorem ofCode?_code (m : SelectMode) : ofCode? m.code = some m := by cases m <;> rfl

end SelectMode

/-- The payload of a file selection. -/
structure SelectRequest where
  mode : SelectMode
  name : String
  deriving DecidableEq, Repr

namespace SelectRequest

/-- The longest file name, in bytes. -/
def maxName : Nat := 32

def encodedLength (r : SelectRequest) : Nat := 4 + (textBytes r.name).length

def payload (r : SelectRequest) : Except CodecError Bytes :=
  let name := textBytes r.name
  if name.length = 0 ∨ name.length > maxName then .error .invalidLength
  else .ok ([r.mode.code, UInt8.ofNat name.length, 0, 0] ++ name)

/-- Reads a payload; the second result is how many bytes it took. -/
def decode : Bytes → Except CodecError (SelectRequest × Nat)
  | mode :: length :: _ :: _ :: rest =>
    match SelectMode.ofCode? mode with
    | none => .error .invalidEncoding
    | some mode => do
      let name ← Bytes.leadingText rest length.toNat
      return (⟨mode, name⟩, 4 + length.toNat)
  | _ => .error .invalidLength

end SelectRequest

/-- The answer to a selection: the file's size, negative when there is no such file. -/
structure SelectReply where
  size : Int32
  deriving DecidableEq, Repr

namespace SelectReply

def bytes (r : SelectReply) : Bytes := Bytes.ofWord32 r.size.toUInt32

def decode (b : Bytes) : Except CodecError (SelectReply × Nat) :=
  if b.length < 4 then .error .invalidLength
  else .ok (⟨(Bytes.word32 b).toInt32⟩, 4)

end SelectReply

-- ---------------------------------------------------------------------------
-- Reading
-- ---------------------------------------------------------------------------

/-- The payload of a read: the file's size, where to start, how many bytes at most. -/
structure ReadRequest where
  total : UInt32
  offset : UInt32
  length : UInt32
  deriving DecidableEq, Repr

namespace ReadRequest

def bytes (r : ReadRequest) : Bytes :=
  Bytes.ofWord32 r.total ++ Bytes.ofWord32 r.offset ++ Bytes.ofWord32 r.length

def decode (b : Bytes) : Except CodecError (ReadRequest × Nat) :=
  if b.length < 12 then .error .invalidLength
  else .ok (⟨Bytes.word32 b, Bytes.word32 (b.drop 4), Bytes.word32 (b.drop 8)⟩, 12)

end ReadRequest

-- ---------------------------------------------------------------------------
-- Writing
-- ---------------------------------------------------------------------------

/-- The payload of a write: where the data go, how long to pause after it, the data. -/
structure WriteRequest where
  offset : UInt32
  delayMs : UInt16
  data : Bytes
  deriving DecidableEq, Repr

namespace WriteRequest

def encodedLength (r : WriteRequest) : Nat := 8 + r.data.length

def bytes (r : WriteRequest) : Bytes :=
  Bytes.ofWord32 r.offset ++ Bytes.ofWord16 r.delayMs ++ [0, 0] ++ r.data

/-- Reads a payload; the second result is how many bytes it took, which is all of them. -/
def decode (b : Bytes) : Except CodecError (WriteRequest × Nat) :=
  if b.length < 8 then .error .invalidLength
  else .ok (⟨Bytes.word32 b, Bytes.word16 (b.drop 4), b.drop 8⟩, b.length)

end WriteRequest

end KeyInjection
