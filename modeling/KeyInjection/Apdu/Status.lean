-- SUMMARY: Status words of responses.
import KeyInjection.Text.Quoted

/-! # Status words

Every response carries a 16-bit status word. Words from `0x9000` to `0x90ff` mean success. -/

namespace KeyInjection

structure Status where
  word : UInt16
  deriving DecidableEq, Repr

namespace Status

def success : Status := ⟨0x9000⟩

/-- The payload does not fit the command. -/
def wrongData : Status := ⟨0x6a80⟩

def fileNotFound : Status := ⟨0x6a82⟩

def notEnoughSpace : Status := ⟨0x6a84⟩

/-- The secure storage refuses the command. -/
def securityStatus : Status := ⟨0x6982⟩

/-- The command needs something that was not done before it. -/
def conditionsNotSatisfied : Status := ⟨0x6985⟩

/-- The class or instruction is unknown. -/
def instructionNotSupported : Status := ⟨0x6d00⟩

def executionError : Status := ⟨0x6f00⟩

def isSuccess (s : Status) : Bool := 0x9000 ≤ s.word && s.word ≤ 0x90ff

/-- The text of a status word: four hexadecimal digits. -/
def text (s : Status) : String := "0x" ++ Text.paddedHex 4 s.word.toNat

end Status

end KeyInjection
