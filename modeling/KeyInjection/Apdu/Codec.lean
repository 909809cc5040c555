-- SUMMARY: Failures of encoding and decoding, leading texts, and writing into a buffer.
import KeyInjection.Bytes

/-! # Codecs

What all payload and frame codecs share. Three things can be wrong with bytes: there are too few of
them, a field has a value it may not have, or a text is not UTF-8. -/

namespace KeyInjection

/-- Why bytes are no encoding, or a value has none. -/
inductive CodecError where
  | invalidLength
  | invalidEncoding
  | invalidUtf8
  deriving DecidableEq, Repr

def CodecError.message : CodecError → String
  | .invalidLength => "InvalidLength"
  | .invalidEncoding => "InvalidEncoding"
  | .invalidUtf8 => "InvalidUtf8"

namespace Bytes

/-- The first `length` bytes, read as text. -/
def leadingText (b : Bytes) (length : Nat) : Except CodecError String :=
  if b.length < length then .error .invalidLength
  else match text? (b.take length) with
    | some text => .ok text
    | none => .error .invalidUtf8

/-- Writes bytes to the front of a buffer, which must have room for them and keeps its other bytes;
the second result is how many bytes were written. -/
def writeInto (b buffer : Bytes) : Except CodecError (Bytes × Nat) :=
  if buffer.length < b.length then .error .invalidLength
  else .ok (b ++ buffer.drop b.length, b.length)

end Bytes

end KeyInjection
