-- SUMMARY: Downloading a file from a terminal.
import KeyInjection.Device
import KeyInjection.Transfer.Options
import KeyInjection.Transfer.Pace

/-!
# Downloads

A file is selected for reading, which tells its size, and then read piece by piece until that many
bytes have come. The terminal may answer with fewer bytes than asked for, but not with none; what
it sends beyond the length asked for is dropped.
-/

namespace KeyInjection.Transfer

/-- Selects a file for reading and gives its size, which is not zero. -/
def selectForReading (i : Interface) (name : String) : Attempt ε Error Nat := do
  let answer ← Device.exchange i (.fileSelect ⟨.read, name⟩)
  if !answer.status.isSuccess then throw (.fileNotFound name)
  let reply ← Device.readBody SelectReply.decode answer
  if reply.size < 0 then throw (.fileNotFound name)
  if reply.size = 0 then throw (.emptyFile name)
  return reply.size.toNatClampNeg

/-- Reads on from an offset, given the pieces read before, the latest first. -/
def readFrom (i : Interface) (chunk total : Nat) (report : Share → ε) (offset : Nat) (pace : Pace)
    (past : List Bytes) : Attempt ε Error Bytes := do
  if _unread : offset < total then
    let length := min chunk (total - offset)
    let answer ← Device.exchange i
      (.fileRead ⟨UInt32.ofNat total, UInt32.ofNat offset, UInt32.ofNat length⟩)
    let piece := answer.body.take length
    if _advanced : answer.status.isSuccess ∧ 0 < piece.length then
      let next := offset + piece.length
      if pace.isDue piece.length then
        ExceptT.lift (Session.emit (report ⟨next, total⟩))
      readFrom i chunk total report next (pace.advance piece.length) (piece :: past)
    else throw (.transferFailed offset)
  else
    if pace.isDueAtEnd then ExceptT.lift (Session.emit (report ⟨total, total⟩))
    return past.reverse.flatten
termination_by total - offset
decreasing_by exact Nat.sub_lt_sub_left _unread (Nat.lt_add_of_pos_right _advanced.2)

def download (i : Interface) (name : String) (options : TransferOptions) (report : Share → ε) :
    Attempt ε Error Bytes := do
  if options.maxChunk = 0 then throw .zeroChunk
  let total ← selectForReading i name
  readFrom i options.maxChunk total report 0 (.start options.granularity) []

end KeyInjection.Transfer
