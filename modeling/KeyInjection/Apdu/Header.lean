-- SUMMARY: Interfaces, instructions and the four header bytes of a command.

/-!
# Command headers

A terminal has two command interfaces and seven instructions. Every command starts with four bytes:
the class shared by all instructions, the instruction, and two parameters.
-/

namespace KeyInjection

-- ---------------------------------------------------------------------------
-- Interfaces
-- ---------------------------------------------------------------------------

/-- The command interfaces of a terminal; each has at most one command in flight. -/
inductive Interface where
  | primary
  | secondary
  deriving DecidableEq, Repr, Inhabited

namespace Interface

def code : Interface → UInt8
  | primary => 0x00
  | secondary => 0x01

def ofCode? : UInt8 → Option Interface
  | 0x00 => some primary
  | 0x01 => some secondary
  | _ => none

def name : Interface → String
  | primary => "Primary"
  | secondary => "Secondary"

@[simp] theorem ofCode?_code (i : Interface) : ofCode? i.code = some i := by cases i <;> rfl

end Interface

/-- One value for each interface. -/
structure PerInterface (α : Type) where
  primary : α
  secondary : α
  deriving DecidableEq, Repr

namespace PerInterface

def both (a : α) : PerInterface α := ⟨a, a⟩

def get (p : PerInterface α) : Interface → α
  | .primary => p.primary
  | .secondary => p.secondary

def set (p : PerInterface α) (i : Interface) (a : α) : PerInterface α :=
  match i with
  | .primary => { p with primary := a }
  | .secondary => { p with secondary := a }

@[simp] theorem get_both (a : α) (i : Interface) : (both a).get i = a := by cases i <;> rfl

@[simp] theorem get_set (p : PerInterface α) (i j : Interface) (a : α) :
    (p.set i a).get j = if i = j then a else p.get j := by
  cases i <;> cases j <;> rfl

@[simp] theorem set_set (p : PerInterface α) (i : Interface) (a b : α) :
    (p.set i a).set i b = p.set i b := by
  cases i <;> rfl

end PerInterface

-- ---------------------------------------------------------------------------
-- Instructions
-- ---------------------------------------------------------------------------

/-- What a command asks of the terminal. -/
inductive Instruction where
  | display
  | secureInit
  | secureState
  | keyImport
  | fileSelect
  | fileRead
  | fileWrite
  deriving DecidableEq, Repr

namespace Instruction

def code : Instruction → UInt8
  | display => 0x01
  | secureInit => 0x20
  | secureState => 0x21
  | keyImport => 0x22
  | fileSelect => 0x30
  | fileRead => 0x31
  | fileWrite => 0x32

def ofCode? : UInt8 → Option Instruction
  | 0x01 => some display
  | 0x20 => some secureInit
  | 0x21 => some secureState
  | 0x22 => some keyImport
  | 0x30 => some fileSelect
  | 0x31 => some fileRead
  | 0x32 => some fileWrite
  | _ => none

def name : Instruction → String
  | display => "Display"
  | secureInit => "SecureInit"
  | secureState => "SecureState"
  | keyImport => "KeyImport"
  | fileSelect => "FileSelect"
  | fileRead => "FileRead"
  | fileWrite => "FileWrite"

@[simp] theorem ofCode?_code (i : Instruction) : ofCode? i.code = some i := by cases i <;> rfl

end Instruction

-- ---------------------------------------------------------------------------
-- Headers
-- ---------------------------------------------------------------------------

/-- The class byte of every instruction. -/
def commandClass : UInt8 := 0xd0

/-- The four bytes in front of a command's payload. -/
structure Header where
  cla : UInt8
  ins : UInt8
  p1 : UInt8
  p2 : UInt8
  deriving DecidableEq, Repr

end KeyInjection
