-- SUMMARY: Reading JSON text.
import KeyInjection.Json.Value
import KeyInjection.Number.Literal

/-!
# Reading JSON text

The grammar is that of RFC 8259, with nothing but blanks around the value. A value that is kept
has to be representable as well: its numbers do not exceed the 64-bit format, its escapes stand
for characters, and no more than `maxDepth` arrays and objects lie within each other. A value that
is skipped only has to obey the grammar.
-/

namespace KeyInjection.Json

/-- How deep arrays and objects may lie within each other. -/
def maxDepth : Nat := 127

/-- What becomes of a value that is read. -/
inductive Care where
  | kept
  | skipped
  deriving DecidableEq, Repr

-- ---------------------------------------------------------------------------
-- Blanks and digits
-- ---------------------------------------------------------------------------

/-- The four characters that may stand between tokens. -/
def isBlank (c : Char) : Bool := c == ' ' || c == '\t' || c == '\n' || c == '\r'

def skipBlanks (cs : List Char) : List Char := cs.dropWhile isBlank

/-- Decimal digits at the front, as numbers, and what follows them. -/
def takeDigits (cs : List Char) : List Nat × List Char :=
  ((cs.takeWhile Char.isDigit).map fun c => c.toNat - 48, cs.dropWhile Char.isDigit)

def digitsValue (digits : List Nat) : Nat := digits.foldl (fun n d => 10 * n + d) 0

/-- The value of a hexadecimal digit, in either case. -/
def hexDigit? (c : Char) : Option Nat :=
  if '0' ≤ c ∧ c ≤ '9' then some (c.toNat - 48)
  else if 'a' ≤ c ∧ c ≤ 'f' then some (c.toNat - 87)
  else if 'A' ≤ c ∧ c ≤ 'F' then some (c.toNat - 55)
  else none

def hexWord? (a b c d : Char) : Option Nat := do
  return (((← hexDigit? a) * 16 + (← hexDigit? b)) * 16 + (← hexDigit? c)) * 16 + (← hexDigit? d)

-- ---------------------------------------------------------------------------
-- Strings
-- ---------------------------------------------------------------------------

/-- The character that a backslash and one more character stand for. -/
def escape? : Char → Option Char
  | '"' => some '"'
  | '\\' => some '\\'
  | '/' => some '/'
  | 'b' => some '\x08'
  | 'f' => some '\x0c'
  | 'n' => some '\n'
  | 'r' => some '\r'
  | 't' => some '\t'
  | _ => none

/-- The first halves of surrogate pairs. -/
def isHighSurrogate (w : Nat) : Bool := 0xd800 ≤ w && w < 0xdc00

/-- The second halves of surrogate pairs. -/
def isLowSurrogate (w : Nat) : Bool := 0xdc00 ≤ w && w < 0xe000

def joinSurrogates (high low : Nat) : Char :=
  Char.ofNat (0x10000 + (high - 0xd800) * 0x400 + (low - 0xdc00))

/-- Reads the characters of a string up to the closing quote, given those already read, the latest
first. -/
def readString (care : Care) (past : List Char) : List Char → Option (String × List Char)
  | [] => none
  | '"' :: rest => some (String.ofList past.reverse, rest)
  | '\\' :: 'u' :: a :: b :: c :: d :: rest =>
    match hexWord? a b c d with
    | none => none
    | some w =>
      if care = .skipped then readString care past rest
      else if isLowSurrogate w then none
      else if isHighSurrogate w then
        match rest with
        | '\\' :: 'u' :: e :: f :: g :: h :: rest =>
          match hexWord? e f g h with
          | none => none
          | some v =>
            if isLowSurrogate v then readString care (joinSurrogates w v :: past) rest else none
        | _ => none
      else readString care (Char.ofNat w :: past) rest
  | '\\' :: c :: rest =>
    match escape? c with
    | none => none
    | some e => readString care (e :: past) rest
  | c :: rest => if c.toNat < 0x20 then none else readString care (c :: past) rest

-- ---------------------------------------------------------------------------
-- Numbers
-- ---------------------------------------------------------------------------

/-- Reads the whole part of a number: one zero, or digits that do not start with one. -/
def readWhole : List Char → Option (List Nat × List Char)
  | '0' :: rest => some ([0], rest)
  | cs =>
    match takeDigits cs with
    | ([], _) => none
    | (digits, rest) => some (digits, rest)

def readFraction : List Char → Option (List Nat × List Char)
  | '.' :: rest =>
    match takeDigits rest with
    | ([], _) => none
    | (digits, rest) => some (digits, rest)
  | cs => some ([], cs)

def readExponentDigits (negative : Bool) (cs : List Char) : Option (Option Int × List Char) :=
  match takeDigits cs with
  | ([], _) => none
  | (digits, rest) =>
    let n : Int := digitsValue digits
    some (some (if negative then -n else n), rest)

def readExponent : List Char → Option (Option Int × List Char)
  | c :: rest =>
    if c = 'e' ∨ c = 'E' then
      match rest with
      | '+' :: rest => readExponentDigits false rest
      | '-' :: rest => readExponentDigits true rest
      | rest => readExponentDigits false rest
    else some (none, c :: rest)
  | [] => some (none, [])

/-- The value of a number. Without fraction and exponent it is an integer if that fits 64 bits;
minus zero is no integer. -/
def numberValue? (negative : Bool) (whole fraction : List Nat) (exponent : Option Int) :
    Option JsonNumber :=
  let n := digitsValue whole
  let literal : Number.Literal := ⟨whole, fraction, exponent.getD 0⟩
  let real := literal.value?.map (JsonNumber.real negative)
  if fraction ≠ [] ∨ exponent ≠ none then real
  else if negative then
    if 0 < n ∧ n ≤ 0x8000000000000000 then some (.integer (-n)) else real
  else
    if n < 0x10000000000000000 then some (.integer n) else real

def readNumber (care : Care) (cs : List Char) : Option (Json × List Char) := do
  let negative := cs.head? == some '-'
  let (whole, rest) ← readWhole (if negative then cs.drop 1 else cs)
  let (fraction, rest) ← readFraction rest
  let (exponent, rest) ← readExponent rest
  match care with
  | .skipped => return (.null, rest)
  | .kept => return (.number (← numberValue? negative whole fraction exponent), rest)

-- ---------------------------------------------------------------------------
-- Values
-- ---------------------------------------------------------------------------

/-- How deep the values within an array or object may go, if it may be there at all. A skipped
value may go to any depth. -/
def inner? : Care → Nat → Option Nat
  | .skipped, depth => some depth
  | .kept, 0 => none
  | .kept, depth + 1 => some depth

mutual

/-- Reads a value. Every call spends fuel; twice the length of the text and two more is enough. -/
def readValue (care : Care) (depth : Nat) : Nat → List Char → Option (Json × List Char)
  | 0, _ => none
  | fuel + 1, cs =>
    match skipBlanks cs with
    | '"' :: rest => (readString care [] rest).map fun (s, rest) => (.string s, rest)
    | '[' :: rest =>
      match inner? care depth with
      | none => none
      | some depth =>
        match skipBlanks rest with
        | ']' :: rest => some (.array [], rest)
        | rest => readItems care depth fuel [] rest
    | '{' :: rest =>
      match inner? care depth with
      | none => none
      | some depth =>
        match skipBlanks rest with
        | '}' :: rest => some (.object [], rest)
        | rest => readMembers care (fun _ => care) depth fuel [] rest
    | 'n' :: 'u' :: 'l' :: 'l' :: rest => some (.null, rest)
    | 't' :: 'r' :: 'u' :: 'e' :: rest => some (.bool true, rest)
    | 'f' :: 'a' :: 'l' :: 's' :: 'e' :: rest => some (.bool false, rest)
    | cs => readNumber care cs

/-- Reads the items of an array and the closing bracket, given the items already read, the latest
first. -/
def readItems (care : Care) (depth : Nat) : Nat → List Json → List Char → Option (Json × List Char)
  | 0, _, _ => none
  | fuel + 1, past, cs =>
    match readValue care depth fuel cs with
    | none => none
    | some (v, rest) =>
      match skipBlanks rest with
      | ',' :: rest => readItems care depth fuel (v :: past) rest
      | ']' :: rest => some (.array (v :: past).reverse, rest)
      | _ => none

/-- Reads the members of an object and the closing brace, given the members already read, the latest
first. What becomes of a value may depend on the member's name. -/
def readMembers (care : Care) (careFor : String → Care) (depth : Nat) :
    Nat → List (String × Json) → List Char → Option (Json × List Char)
  | 0, _, _ => none
  | fuel + 1, past, cs =>
    match skipBlanks cs with
    | '"' :: rest =>
      match readString care [] rest with
      | none => none
      | some (name, rest) =>
        match skipBlanks rest with
        | ':' :: rest =>
          match readValue (careFor name) depth fuel rest with
          | none => none
          | some (v, rest) =>
            match skipBlanks rest with
            | ',' :: rest => readMembers care careFor depth fuel ((name, v) :: past) rest
            | '}' :: rest => some (.object ((name, v) :: past).reverse, rest)
            | _ => none
        | _ => none
    | _ => none

end

def fuelFor (cs : List Char) : Nat := 2 * cs.length + 2

/-- Accepts a value that nothing but blanks follow. -/
def complete : Option (Json × List Char) → Option Json
  | some (v, rest) => if skipBlanks rest = [] then some v else none
  | none => none

/-- The value that a text is, all of it kept. -/
def parse? (text : String) : Option Json :=
  complete (readValue .kept maxDepth (fuelFor text.toList) text.toList)

/-- The value that a text is, only the named members of an outermost object being kept. -/
def parseMembers? (names : List String) (text : String) : Option Json :=
  let cs := text.toList
  match skipBlanks cs with
  | '{' :: rest =>
    match skipBlanks rest with
    | '}' :: rest => complete (some (.object [], rest))
    | rest =>
      let careFor name := if names.contains name then Care.kept else Care.skipped
      complete (readMembers .kept careFor (maxDepth - 1) (fuelFor cs) [] rest)
  | _ => parse? text

end KeyInjection.Json
