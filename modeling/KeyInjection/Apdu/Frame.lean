-- SUMMARY: Frame headers that carry commands and responses over a byte stream.
import KeyInjection.Apdu.Codec
import KeyInjection.Apdu.Header
import KeyInjection.Apdu.Status

/-!
# Frames

Over a byte stream every command and every response is a frame: a header of fixed size, which tells
the length of what follows, and then that many bytes. A reader refuses lengths above one mebibyte;
the reserved bytes of a header are written as zero and not looked at.
-/

namespace KeyInjection

/-- The longest payload or body a frame may announce. -/
def maxFramePayload : Nat := 1048576

/-- The header of a request frame. -/
structure RequestFrame where
  interface : Interface
  header : Header
  length : UInt32
  deriving DecidableEq, Repr

namespace RequestFrame

def size : Nat := 12

def bytes (f : RequestFrame) : Bytes :=
  [f.interface.code, f.header.cla, f.header.ins, f.header.p1, f.header.p2, 0, 0, 0] ++
    Bytes.ofWord32 f.length

def decode : Bytes → Except CodecError RequestFrame
  | interface :: cla :: ins :: p1 :: p2 :: _ :: _ :: _ :: rest =>
    if rest.length < 4 then .error .invalidLength
    else match Interface.ofCode? interface with
      | none => .error .invalidEncoding
      | some interface =>
        let length := Bytes.word32 rest
        if length.toNat > maxFramePayload then .error .invalidLength
        else .ok ⟨interface, ⟨cla, ins, p1, p2⟩, length⟩
  | _ => .error .invalidLength

@[simp] theorem length_bytes (f : RequestFrame) : f.bytes.length = size := by simp [bytes, size]

theorem decode_bytes {f : RequestFrame} (fits : f.length.toNat ≤ maxFramePayload) :
    decode f.bytes = .ok f := by
  have word : Bytes.word32 (Bytes.ofWord32 f.length) = f.length := by
    simpa using Bytes.word32_ofWord32 f.length []
  simp [decode, bytes, word, Nat.not_lt.2 fits]

end RequestFrame

/-- The header of a response frame. -/
structure ResponseFrame where
  status : Status
  length : UInt32
  deriving DecidableEq, Repr

namespace ResponseFrame

def size : Nat := 8

def bytes (f : ResponseFrame) : Bytes :=
  Bytes.ofWord16 f.status.word ++ [0, 0] ++ Bytes.ofWord32 f.length

def decode (b : Bytes) : Except CodecError ResponseFrame :=
  if b.length < size then .error .invalidLength
  else
    let length := Bytes.word32 (b.drop 4)
    if length.toNat > maxFramePayload then .error .invalidLength
    else .ok ⟨⟨Bytes.word16 b⟩, length⟩

@[simp] theorem length_bytes (f : ResponseFrame) : f.bytes.length = size := by simp [bytes, size]

theorem decode_bytes {f : ResponseFrame} (fits : f.length.toNat ≤ maxFramePayload) :
    decode f.bytes = .ok f := by
  have status : Bytes.word16 f.bytes = f.status.word := by
    rw [bytes, List.append_assoc]
    exact Bytes.word16_ofWord16 ..
  have word : Bytes.word32 (f.bytes.drop 4) = f.length := by
    rw [bytes, List.drop_left' (by simp)]
    simpa using Bytes.word32_ofWord32 f.length []
  simp [decode, status, word, Nat.not_lt.2 fits]

end ResponseFrame

end KeyInjection
