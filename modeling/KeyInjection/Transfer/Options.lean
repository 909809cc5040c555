-- SUMMARY: Options of file transfers.

/-!
# Transfer options

A transfer moves a file in pieces of bounded size and reports progress at most once per
granularity.
-/

namespace KeyInjection

structure TransferOptions where
  /-- Most bytes in one command. -/
  maxChunk : Nat
  /-- Bytes moved between two reports; with zero every piece is reported. -/
  granularity : Nat
  /-- The pause asked for after each write, in milliseconds. -/
  delayMs : UInt16
  deriving DecidableEq, Repr

namespace TransferOptions

/-- A piece that fits the terminal's response frames. -/
def readChunk : Nat := 252

def readGranularity : Nat := 4 * readChunk

/-- A piece for extended command frames. -/
def writeChunk : Nat := 128 * 1024

def writeGranularity : Nat := writeChunk

def download : TransferOptions := ⟨readChunk, readGranularity, 0⟩

def upload : TransferOptions := ⟨writeChunk, writeGranularity, 0⟩

end TransferOptions

end KeyInjection
