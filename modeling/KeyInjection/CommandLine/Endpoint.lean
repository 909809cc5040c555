-- SUMMARY: Network addresses with ports, as they are written.
import KeyInjection.Text.Decimal
import KeyInjection.Text.Hex

/-!
# Endpoints

The address of a machine is four bytes, written in decimal between dots, or eight words, written in
hexadecimal between colons. In the long form one run of zeros may be left out between two colons,
and the last two words may be written as four bytes. The port follows behind a colon; the long form
then stands in square brackets, and may have a zone behind a percent sign.
-/

namespace KeyInjection.CommandLine

/-- Where on a network something is reached. -/
inductive Endpoint where
  | short (bytes : Vector UInt8 4) (port : UInt16)
  | long (words : Vector UInt16 8) (zone : UInt32) (port : UInt16)
  deriving DecidableEq

namespace Endpoint

-- ---------------------------------------------------------------------------
-- Reading
-- ---------------------------------------------------------------------------

/-- The parts of a text between separators. -/
def parts (separator : Char) : List Char → List (List Char)
  | [] => [[]]
  | c :: rest =>
    if c = separator then [] :: parts separator rest
    else match parts separator rest with
      | first :: more => (c :: first) :: more
      | [] => [[c]]

/-- What stands before and behind the first two colons in a row. -/
def gap? : List Char → Option (List Char × List Char)
  | ':' :: ':' :: rest => some ([], rest)
  | c :: rest => (gap? rest).map fun (front, back) => (c :: front, back)
  | [] => none

/-- A byte in decimal, without leading zeros. -/
def byte? (digits : List Char) : Option UInt8 :=
  if digits.length = 1 ∨ (digits.length ≤ 3 ∧ digits.head? ≠ some '0') then
    ((Text.decimal? digits).filter (· < 0x100)).map UInt8.ofNat
  else none

/-- A word of two bytes, the high one first. -/
def joined (high low : UInt8) : UInt16 := UInt16.ofNat (0x100 * high.toNat + low.toNat)

def halves (w : UInt16) : List UInt8 := [UInt8.ofNat (w.toNat / 0x100), UInt8.ofNat w.toNat]

/-- Four bytes between dots. -/
def bytes? (text : List Char) : Option (Vector UInt8 4) :=
  match (parts '.' text).mapM byte? with
  | some [a, b, c, d] => some #v[a, b, c, d]
  | _ => none

/-- A word of one to four hexadecimal digits. -/
def word? (digits : List Char) : Option UInt16 :=
  if digits.length = 0 ∨ 4 < digits.length then none
  else ((textBytes (String.ofList digits)).mapM Hex.value?).map fun values =>
    UInt16.ofNat (values.foldl (fun n v => 16 * n + v) 0)

/-- Words between colons, or none at all. -/
def plainWords? (text : List Char) : Option (List UInt16) :=
  if text.isEmpty then some [] else (parts ':' text).mapM word?

/-- Words between colons, the last two of which may be written as four bytes. -/
def words? (text : List Char) : Option (List UInt16) :=
  let all := parts ':' text
  match all.getLast?.bind bytes? with
  | some b => (all.dropLast.mapM word?).map (· ++ [joined b[0] b[1], joined b[2] b[3]])
  | none => plainWords? text

/-- The long form of an address. A gap stands for at least one zero. -/
def long? (text : List Char) : Option (Vector UInt16 8) := do
  let words ← match gap? text with
    | some (front, back) => do
      let front ← plainWords? front
      let back ← words? back
      if front.length + back.length < 8 then
        some (front ++ List.replicate (8 - (front.length + back.length)) 0 ++ back)
      else none
    | none => words? text
  if eight : words.length = 8 then some ⟨words.toArray, by simp [eight]⟩ else none

def port? (digits : List Char) : Option UInt16 :=
  ((Text.decimal? digits).filter (· < 0x10000)).map UInt16.ofNat

/-- The zone behind a percent sign, if there is one. -/
def zone? : List Char → Option UInt32
  | [] => some 0
  | _ :: digits => ((Text.decimal? digits).filter (· < 0x100000000)).map UInt32.ofNat

def ofText? (text : String) : Option Endpoint :=
  match text.toList with
  | '[' :: rest =>
    let inside := rest.takeWhile (· != ']')
    match rest.dropWhile (· != ']') with
    | ']' :: ':' :: digits => do
      return .long (← long? (inside.takeWhile (· != '%'))) (← zone? (inside.dropWhile (· != '%')))
        (← port? digits)
    | _ => none
  | all =>
    match all.dropWhile (· != ':') with
    | ':' :: digits => do return .short (← bytes? (all.takeWhile (· != ':'))) (← port? digits)
    | _ => none

-- ---------------------------------------------------------------------------
-- Writing
-- ---------------------------------------------------------------------------

def bytesText (bytes : List UInt8) : String := ".".intercalate (bytes.map fun b => toString b.toNat)

def wordsText (words : List UInt16) : String :=
  ":".intercalate (words.map fun w => Text.hexDigits w.toNat)

/-- How many zeros stand at a place. -/
def zerosAt (words : List UInt16) (place : Nat) : Nat :=
  ((words.drop place).takeWhile (· == 0)).length

/-- Where the longest run of zeros begins, and the first one of several. -/
def longestZeros (words : List UInt16) : Nat :=
  (List.range words.length).foldl
    (fun best place => if zerosAt words best < zerosAt words place then place else best) 0

/-- Eight words, with their longest run of zeros left out if it is longer than one. Four bytes that
were put behind five zeros and a word of ones are written as such. -/
def longText (words : List UInt16) : String :=
  match words with
  | [0, 0, 0, 0, 0, 0xffff, high, low] =>
    "::ffff:" ++ bytesText (halves high ++ halves low)
  | _ =>
    let place := longestZeros words
    let zeros := zerosAt words place
    if 1 < zeros then
      wordsText (words.take place) ++ "::" ++ wordsText (words.drop (place + zeros))
    else wordsText words

def text : Endpoint → String
  | short bytes port => s!"{bytesText bytes.toList}:{port}"
  | long words zone port =>
    let zone := if zone = 0 then "" else s!"%{zone}"
    s!"[{longText words.toList}{zone}]:{port}"

/-- Port 9100 of the machine itself. -/
def standard : Endpoint := .short #v[127, 0, 0, 1] 9100

end Endpoint

end KeyInjection.CommandLine
