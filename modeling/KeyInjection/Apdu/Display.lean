-- SUMMARY: Payload of the display command.
import KeyInjection.Apdu.Codec
import KeyInjection.Apdu.Header

/-!
# Display payloads

A prompt is shown on one line of the terminal's display. Its payload has a fixed part of four bytes
(line, flags, text length, zero) and then the text, which is at most 64 bytes long. A reader takes
any announced length that the payload has room for, so it accepts texts that no writer sends.
-/

namespace KeyInjection

/-- Names of the flags that are set, or `(empty)`. -/
def flagsText (flags : List (Bool × String)) : String :=
  match flags.filter (·.1) with
  | [] => "(empty)"
  | set => " | ".intercalate (set.map (·.2))

/-- How a prompt is placed on the display. -/
structure DisplayFlags where
  clear : Bool
  centre : Bool
  deriving DecidableEq, Repr

namespace DisplayFlags

def byte (f : DisplayFlags) : UInt8 :=
  (if f.clear then 1 else 0) ||| (if f.centre then 2 else 0)

/-- The flags in a byte; its other bits are ignored. -/
def ofByte (b : UInt8) : DisplayFlags := ⟨b &&& 1 != 0, b &&& 2 != 0⟩

def text (f : DisplayFlags) : String := flagsText [(f.clear, "CLEAR"), (f.centre, "CENTRE")]

@[simp] theorem ofByte_byte (f : DisplayFlags) : ofByte f.byte = f := by
  rcases f with ⟨_ | _, _ | _⟩ <;> decide

end DisplayFlags

/-- The payload of a display command. -/
structure DisplayRequest where
  line : UInt8
  flags : DisplayFlags
  text : String
  deriving DecidableEq, Repr

namespace DisplayRequest

/-- The longest text that is sent, in bytes. -/
def maxText : Nat := 64

/-- A prompt in the middle of an otherwise empty display. -/
def prompt (text : String) : DisplayRequest := ⟨0, ⟨true, true⟩, text⟩

/-- A text on one line, the others left as they are. -/
def onLine (line : UInt8) (text : String) : DisplayRequest := ⟨line, ⟨false, false⟩, text⟩

def encodedLength (r : DisplayRequest) : Nat := 4 + (textBytes r.text).length

def payload (r : DisplayRequest) : Except CodecError Bytes :=
  let text := textBytes r.text
  if text.length > maxText then .error .invalidLength
  else .ok ([r.line, r.flags.byte, UInt8.ofNat text.length, 0] ++ text)

/-- Reads a payload; the second result is how many bytes it took. -/
def decode : Bytes → Except CodecError (DisplayRequest × Nat)
  | line :: flags :: length :: _ :: rest => do
    let text ← Bytes.leadingText rest length.toNat
    return (⟨line, .ofByte flags, text⟩, 4 + length.toNat)
  | _ => .error .invalidLength

end DisplayRequest

end KeyInjection
