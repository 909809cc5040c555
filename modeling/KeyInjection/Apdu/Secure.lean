-- SUMMARY: Secure storage state and the answers of the secure storage commands.
import KeyInjection.Apdu.Codec
import KeyInjection.Apdu.Header
import KeyInjection.Apdu.Display

/-!
# Secure storage payloads

The commands of the secure storage have empty payloads. Asking for the state is answered by one
byte of flags, an import by a 16-bit code, both padded to four bytes; a reader needs only the part
that carries the value, and takes at most four bytes.
-/

namespace KeyInjection

/-- The state of a terminal's secure storage. -/
structure SecureState where
  /-- Key injection mode is active. -/
  initialised : Bool
  /-- A key for PIN entry is in place. -/
  pinKeyReady : Bool
  /-- A key for card data is in place. -/
  sredKeyReady : Bool
  deriving DecidableEq, Repr

namespace SecureState

def empty : SecureState := ⟨false, false, false⟩

/-- Both keys in place and no injection under way. -/
def provisioned : SecureState := ⟨false, true, true⟩

def anyKeyReady (s : SecureState) : Bool := s.pinKeyReady || s.sredKeyReady

def byte (s : SecureState) : UInt8 :=
  (if s.initialised then 1 else 0) ||| (if s.pinKeyReady then 2 else 0) |||
    (if s.sredKeyReady then 4 else 0)

/-- The state in a byte of flags; its other bits are ignored. -/
def ofByte (b : UInt8) : SecureState := ⟨b &&& 1 != 0, b &&& 2 != 0, b &&& 4 != 0⟩

def flagNames (s : SecureState) : String :=
  flagsText [(s.initialised, "INITIALISED"), (s.pinKeyReady, "PIN_KEY_READY"),
    (s.sredKeyReady, "SRED_KEY_READY")]

@[simp] theorem ofByte_byte (s : SecureState) : ofByte s.byte = s := by
  rcases s with ⟨_ | _, _ | _, _ | _⟩ <;> decide

def bytes (s : SecureState) : Bytes := [s.byte, 0, 0, 0]

/-- Reads an answer; the second result is how many bytes it took. -/
def decode : Bytes → Except CodecError (SecureState × Nat)
  | b :: rest => .ok (ofByte b, min (rest.length + 1) 4)
  | [] => .error .invalidLength

end SecureState

/-- The answer to a key import: a code, zero for success. -/
structure ImportReply where
  code : UInt16
  deriving DecidableEq, Repr

namespace ImportReply

def noError : UInt16 := 0x0000

def isOk (r : ImportReply) : Bool := r.code == noError

def bytes (r : ImportReply) : Bytes := Bytes.ofWord16 r.code ++ [0, 0]

def decode (b : Bytes) : Except CodecError (ImportReply × Nat) :=
  if b.length < 2 then .error .invalidLength
  else .ok (⟨Bytes.word16 b⟩, min b.length 4)

end ImportReply

end KeyInjection
