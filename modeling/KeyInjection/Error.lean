-- SUMMARY: Failures of device, transfer and key host operations, their wording and their kinds.
import KeyInjection.Apdu.Codec
import KeyInjection.Apdu.Status
import KeyInjection.Text.Hex

/-!
# Failures

Everything that can go wrong in an operation is one `Error`, with one wording and one `ErrorKind`,
which tells the part of the system at fault: the transport, the terminal's answers, the key host,
a local file, or the caller's input. The kind `state` is reserved for injections that end in a
wrong secure storage state.
-/

namespace KeyInjection

/-- The part of the system that a failure belongs to. -/
inductive ErrorKind where
  | transport
  | deviceProtocol
  | host
  | localIo
  | input
  | state
  deriving DecidableEq, Repr

def ErrorKind.name : ErrorKind → String
  | transport => "Transport"
  | deviceProtocol => "DeviceProtocol"
  | host => "Host"
  | localIo => "LocalIo"
  | input => "Input"
  | state => "State"

inductive Error where
  /-- The transport could not move bytes. -/
  | io (detail : String)
  | requestTimeout
  | disconnected
  /-- A frame cannot be sent or read. -/
  | frame (cause : CodecError)
  /-- The terminal refused a command. -/
  | status (status : Status)
  /-- A request cannot be encoded, or the body of a response cannot be read. -/
  | apdu (cause : CodecError)
  /-- A response was asked for that no command is waiting for. -/
  | unexpectedResponse
  /-- A file to be read cannot be selected. -/
  | fileNotFound (name : String)
  | emptyFile (name : String)
  /-- A file to be written cannot be selected. -/
  | fileCreateFailed (name : String)
  | transferFailed (offset : Nat)
  /-- The terminal answered an import with a code other than zero. -/
  | importRejected (code : UInt16)
  | hostUnreachable (detail : String)
  | hostResponseMalformed (detail : String)
  | hostRejected (result : String)
  | localIo (detail : String)
  | invalidArgument (reason : String)
  /-- The content of a file is not UTF-8. -/
  | utf8 (name : String)
  | hexDecode (cause : Hex.HexError)
  deriving DecidableEq, Repr

namespace Error

def message : Error → String
  | io detail => s!"Transport error: {detail}"
  | requestTimeout => "Timeout waiting for device response"
  | disconnected => "Device disconnected"
  | frame cause => s!"Invalid frame: {cause.message}"
  | status s => s!"Command failed with status {s.text}"
  | apdu cause => s!"APDU encoding error: {cause.message}"
  | unexpectedResponse => "Unexpected APDU response"
  | fileNotFound name => s!"File '{name}' not found"
  | emptyFile name => s!"File '{name}' is empty"
  | fileCreateFailed name => s!"Failed to create file '{name}'"
  | transferFailed offset => s!"Transfer failed at offset {offset}"
  | importRejected code => "Key import failed with code 0x" ++ Text.paddedHex 4 code.toNat
  | hostUnreachable detail => s!"Key host unreachable: {detail}"
  | hostResponseMalformed detail => s!"Malformed key host response: {detail}"
  | hostRejected result => s!"Key host rejected request (result: {result})"
  | localIo detail => s!"Local I/O error: {detail}"
  | invalidArgument reason => s!"Invalid argument: {reason}"
  | utf8 name => s!"Invalid UTF-8 in '{name}'"
  | hexDecode cause => s!"Hex decode failed: {cause.message}"

def kind : Error → ErrorKind
  | io _ | requestTimeout | disconnected | frame _ => .transport
  | status _ | apdu _ | unexpectedResponse | fileNotFound _ | emptyFile _ | fileCreateFailed _
  | transferFailed _ | importRejected _ => .deviceProtocol
  | hostUnreachable _ | hostResponseMalformed _ | hostRejected _ => .host
  | localIo _ => .localIo
  | invalidArgument _ | utf8 _ | hexDecode _ => .input

/-- A transfer with pieces of no bytes would not end. -/
def zeroChunk : Error := .invalidArgument "chunk size must be non-zero"

def rangeOutOfBounds : Error := .invalidArgument "buffer range out of bounds"

/-- A file has more bytes than offsets can tell apart. -/
def fileTooLarge : Error := .invalidArgument "file too large"

end Error

end KeyInjection
