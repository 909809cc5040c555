-- SUMMARY: Hexadecimal text of byte strings, with exact positions of what cannot be read.
import KeyInjection.Bytes
import KeyInjection.Text.Quoted

/-!
# Hexadecimal text

Two digits a byte, the high one first. Writing uses lower-case digits, reading takes either case.
A text of odd length is refused before its digits are looked at; otherwise the first byte of its
UTF-8 form that is no digit is named, with its position.
-/

namespace KeyInjection.Hex

/-- Why a text is no hexadecimal form of a byte string. -/
inductive HexError where
  | oddLength
  | invalidCharacter (character : Char) (position : Nat)
  deriving DecidableEq, Repr

def HexError.message : HexError → String
  | .oddLength => "Odd number of digits"
  | .invalidCharacter c position =>
    "Invalid character " ++ Text.quoted c ++ " at position " ++ toString position

-- ---------------------------------------------------------------------------
-- Writing
-- ---------------------------------------------------------------------------

/-- The digit for a number below sixteen. -/
def digit (n : Nat) : Char :=
  if n < 10 then Char.ofNat (48 + n) else Char.ofNat (87 + n)

def encodeChars : Bytes → List Char
  | [] => []
  | b :: rest => digit (b.toNat / 16) :: digit (b.toNat % 16) :: encodeChars rest

/-- The lower-case hexadecimal text of a byte string. -/
def encode (b : Bytes) : String := String.ofList (encodeChars b)

-- ---------------------------------------------------------------------------
-- Reading
-- ---------------------------------------------------------------------------

/-- The value of a byte as a hexadecimal digit, in either case. -/
def value? (b : UInt8) : Option Nat :=
  if 48 ≤ b ∧ b ≤ 57 then some (b.toNat - 48)
  else if 97 ≤ b ∧ b ≤ 102 then some (b.toNat - 87)
  else if 65 ≤ b ∧ b ≤ 70 then some (b.toNat - 55)
  else none

/-- Joins digit values in pairs, the high one first. -/
def joinPairs : List Nat → Bytes
  | high :: low :: rest => UInt8.ofNat (16 * high + low) :: joinPairs rest
  | _ => []

def decodeBytes (b : Bytes) : Except HexError Bytes :=
  if b.length % 2 = 1 then .error .oddLength
  else match b.findIdx? (fun x => (value? x).isNone) with
    | some i => .error (.invalidCharacter (Char.ofNat (b.getD i 0).toNat) i)
    | none => .ok (joinPairs (b.filterMap value?))

def decode (text : String) : Except HexError Bytes := decodeBytes (textBytes text)

end KeyInjection.Hex
