-- SUMMARY: Uploading a file to a terminal.
import KeyInjection.Device
import KeyInjection.Transfer.Options
import KeyInjection.Transfer.Pace
import KeyInjection.Transfer.Pieces
import KeyInjection.Transfer.Source

/-!
# Uploads

A file is created or emptied and then written piece by piece, each write following the one before.
The first write that fails ends the upload. The data are a part of a buffer, which is cut into
pieces beforehand, or come from a source, from which one piece after the other is gathered in a
buffer that has room for one. There is no buffer of more than `maxBuffer` bytes; whether there is
memory for a smaller one is not modelled.
-/

namespace KeyInjection.Transfer

/-- Selects a file for writing, which creates or empties it. -/
def selectForWriting (i : Interface) (name : String) : Attempt ε Error Unit := do
  let answer ← Device.exchange i (.fileSelect ⟨.truncate, name⟩)
  if !answer.status.isSuccess then throw (.fileCreateFailed name)
  let reply ← Device.readBody SelectReply.decode answer
  if reply.size < 0 then throw (.fileCreateFailed name)

def writePiece (i : Interface) (delayMs : UInt16) (offset : Nat) (piece : Bytes) :
    Attempt ε Error Unit := do
  let answer ← Device.exchange i (.fileWrite ⟨UInt32.ofNat offset, delayMs, piece⟩)
  if !answer.status.isSuccess then throw (.transferFailed offset)

/-- Writes what a source still gives, after `sent` bytes; gives the number of bytes written in
all, and the state the source is left in. -/
def writeFrom (src : ByteSource τ) (i : Interface) (options : TransferOptions) (report : Nat → ε)
    (sent : Nat) (pace : Pace) (s : τ) : Session ε (Except Error Nat × τ) :=
  match src.gather options.maxChunk s with
  | (.error detail, s) => .done (.error (.localIo detail), s)
  | (.ok piece, s) =>
    if _advanced : 0 < piece.length ∧ sent < 0x100000000 then do
      match ← (writePiece i options.delayMs sent piece).run with
      | .error e => return (.error e, s)
      | .ok () =>
        let next := sent + piece.length
        if pace.isDue piece.length then Session.emit (report next)
        writeFrom src i options report next (pace.advance piece.length) s
    else if 0 < piece.length then .done (.error .fileTooLarge, s)
    else do
      if pace.isDueAtEnd then Session.emit (report sent)
      return (.ok sent, s)
termination_by 0x100000000 - sent
decreasing_by omega

/-- The most bytes that a buffer can have. -/
def maxBuffer : Nat := 0x7fffffffffffffff

/-- Writes all that a source gives to the file that has been selected. If no buffer has room for a
piece this panics, and has no result. -/
def writeBuffered (src : ByteSource τ) (i : Interface) (options : TransferOptions)
    (report : Nat → ε) (s : τ) : Session ε (Option (Except Error Nat) × τ) :=
  if maxBuffer < options.maxChunk then .done (none, s)
  else Prod.map some id <$> writeFrom src i options report 0 (.start options.granularity) s

/-- Uploads what a source gives, which is given up at the end, also by a panic. -/
def uploadFrom (src : ByteSource τ) (s : τ) (i : Interface) (name : String)
    (options : TransferOptions) (report : Nat → ε) :
    Session ε (Option (Except Error Nat) × τ) := do
  let (result, s) ←
    if options.maxChunk = 0 then pure (some (.error .zeroChunk), s)
    else match ← (selectForWriting i name).run with
      | .error e => pure (some (.error e), s)
      | .ok () => writeBuffered src i options report s
  return (result, src.close s)

/-- Writes pieces one after the other, after `sent` bytes; gives the number of bytes written in
all. -/
def writePieces (i : Interface) (options : TransferOptions) (report : Nat → ε) (sent : Nat)
    (pace : Pace) : List Bytes → Attempt ε Error Nat
  | [] => do
    if pace.isDueAtEnd then ExceptT.lift (Session.emit (report sent))
    return sent
  | piece :: rest => do
    if 0x100000000 ≤ sent then throw .fileTooLarge
    writePiece i options.delayMs sent piece
    let next := sent + piece.length
    if pace.isDue piece.length then ExceptT.lift (Session.emit (report next))
    writePieces i options report next (pace.advance piece.length) rest

/-- Uploads `length` bytes of a buffer, from `offset` on. -/
def uploadRange (data : Bytes) (offset length : Nat) (i : Interface) (name : String)
    (options : TransferOptions) (report : Nat → ε) : Attempt ε Error Nat := do
  if options.maxChunk = 0 then throw .zeroChunk
  if data.length < offset + length then throw .rangeOutOfBounds
  selectForWriting i name
  let content := (data.drop offset).take length
  writePieces i options report 0 (.start options.granularity)
    (Bytes.pieces options.maxChunk content)

def upload (data : Bytes) (i : Interface) (name : String) (options : TransferOptions)
    (report : Nat → ε) : Attempt ε Error Nat :=
  uploadRange data 0 data.length i name options report

end KeyInjection.Transfer
