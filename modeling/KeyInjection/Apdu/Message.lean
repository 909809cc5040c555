-- SUMMARY: Requests, replies, and encoding of either into a buffer.
import KeyInjection.Apdu.Display
import KeyInjection.Apdu.File
import KeyInjection.Apdu.Secure

/-!
# Messages

A `Request` is what a command asks for, a `Reply` what a response to it may carry. Each has an
encoded form; a request also has the command header it is sent under. `Message` covers both, with
the one operation that depends on nothing else: writing the encoded form to the front of a buffer.
-/

namespace KeyInjection

-- ---------------------------------------------------------------------------
-- Requests
-- ---------------------------------------------------------------------------

/-- What a command asks of the terminal. -/
inductive Request where
  | display (r : DisplayRequest)
  | secureInit
  | secureState
  | keyImport
  | fileSelect (r : SelectRequest)
  | fileRead (r : ReadRequest)
  | fileWrite (r : WriteRequest)
  deriving DecidableEq, Repr

namespace Request

def instruction : Request → Instruction
  | display _ => .display
  | secureInit => .secureInit
  | secureState => .secureState
  | keyImport => .keyImport
  | fileSelect _ => .fileSelect
  | fileRead _ => .fileRead
  | fileWrite _ => .fileWrite

/-- The first parameter: the line of a prompt, the mode of a selection. -/
def parameter : Request → UInt8
  | display r => r.line
  | fileSelect r => r.mode.code
  | _ => 0

def header (r : Request) : Header := ⟨commandClass, r.instruction.code, r.parameter, 0⟩

def encodedLength : Request → Nat
  | display r => r.encodedLength
  | fileSelect r => r.encodedLength
  | fileRead _ => 12
  | fileWrite r => r.encodedLength
  | secureInit | secureState | keyImport => 0

def payload : Request → Except CodecError Bytes
  | display r => r.payload
  | fileSelect r => r.payload
  | fileRead r => .ok r.bytes
  | fileWrite r => .ok r.bytes
  | secureInit | secureState | keyImport => .ok []

/-- Reads the payload of a command with the given instruction; the second result is how many bytes
it took. -/
def decode (i : Instruction) (b : Bytes) : Except CodecError (Request × Nat) :=
  match i with
  | .display => (DisplayRequest.decode b).map fun (r, n) => (display r, n)
  | .secureInit => .ok (secureInit, 0)
  | .secureState => .ok (secureState, 0)
  | .keyImport => .ok (keyImport, 0)
  | .fileSelect => (SelectRequest.decode b).map fun (r, n) => (fileSelect r, n)
  | .fileRead => (ReadRequest.decode b).map fun (r, n) => (fileRead r, n)
  | .fileWrite => (WriteRequest.decode b).map fun (r, n) => (fileWrite r, n)

end Request

-- ---------------------------------------------------------------------------
-- Replies
-- ---------------------------------------------------------------------------

/-- What the body of a response may carry. -/
inductive Reply where
  | selected (r : SelectReply)
  | secureState (s : SecureState)
  | imported (r : ImportReply)
  deriving DecidableEq, Repr

namespace Reply

inductive Kind where
  | selected
  | secureState
  | imported
  deriving DecidableEq, Repr

def kind : Reply → Kind
  | selected _ => .selected
  | secureState _ => .secureState
  | imported _ => .imported

def bytes : Reply → Bytes
  | selected r => r.bytes
  | secureState s => s.bytes
  | imported r => r.bytes

def decode (k : Kind) (b : Bytes) : Except CodecError (Reply × Nat) :=
  match k with
  | .selected => (SelectReply.decode b).map fun (r, n) => (selected r, n)
  | .secureState => (SecureState.decode b).map fun (s, n) => (secureState s, n)
  | .imported => (ImportReply.decode b).map fun (r, n) => (imported r, n)

end Reply

-- ---------------------------------------------------------------------------
-- Messages
-- ---------------------------------------------------------------------------

inductive Message where
  | request (r : Request)
  | reply (r : Reply)
  deriving DecidableEq, Repr

namespace Message

inductive Kind where
  | request (i : Instruction)
  | reply (k : Reply.Kind)
  deriving DecidableEq, Repr

def kind : Message → Kind
  | request r => .request r.instruction
  | reply r => .reply r.kind

def encodedLength : Message → Nat
  | request r => r.encodedLength
  | reply _ => 4

def bytes : Message → Except CodecError Bytes
  | request r => r.payload
  | reply r => .ok r.bytes

/-- Writes the encoded form to the front of a buffer, which must have room for it and keeps its
other bytes; the second result is how many bytes were written. -/
def encodeInto (m : Message) (buffer : Bytes) : Except CodecError (Bytes × Nat) := do
  Bytes.writeInto (← m.bytes) buffer

def decode (k : Kind) (b : Bytes) : Except CodecError (Message × Nat) :=
  match k with
  | .request i => (Request.decode i b).map fun (r, n) => (request r, n)
  | .reply k => (Reply.decode k b).map fun (r, n) => (reply r, n)

end Message

end KeyInjection
