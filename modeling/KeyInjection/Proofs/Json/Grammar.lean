-- SUMMARY: The grammar of JSON text.
import KeyInjection.Json.Parser

/-!
# The grammar of JSON text

A JSON text is a list of tokens laid out with blanks around them (`Laid`), and the tokens are those
of a phrase for a value (`Phrase`). The grammar is that of RFC 8259, given without a reader; it has
the limits that a kept value has: numbers have a value, escapes stand for characters, and arrays and
objects do not lie too deep within each other.
-/

namespace KeyInjection.Json

/-! ## Tokens -/

/-- The ways to write the characters of a string. -/
inductive Spells : List Char → List Char → Prop where
  | nil : Spells [] []
  | plain {c : Char} {s text : List Char} (hplain : 0x20 ≤ c.toNat) (hquote : c ≠ '"')
      (hbackslash : c ≠ '\\') (hrest : Spells s text) : Spells (c :: s) (c :: text)
  | escape {e c : Char} {s text : List Char} (hescape : escape? e = some c)
      (hrest : Spells s text) : Spells (c :: s) ('\\' :: e :: text)
  | word {a b c d : Char} {w : Nat} {s text : List Char} (hword : hexWord? a b c d = some w)
      (hlow : isLowSurrogate w = false) (hhigh : isHighSurrogate w = false)
      (hrest : Spells s text) : Spells (Char.ofNat w :: s) ('\\' :: 'u' :: a :: b :: c :: d :: text)
  | pair {a b c d e f g h : Char} {w v : Nat} {s text : List Char}
      (hword : hexWord? a b c d = some w) (hhigh : isHighSurrogate w = true)
      (hword' : hexWord? e f g h = some v) (hlow : isLowSurrogate v = true)
      (hrest : Spells s text) :
      Spells (joinSurrogates w v :: s)
        ('\\' :: 'u' :: a :: b :: c :: d :: '\\' :: 'u' :: e :: f :: g :: h :: text)

def quoted (text : List Char) : List Char := '"' :: (text ++ ['"'])

def digitsOf (text : List Char) : List Nat := text.map fun c => c.toNat - 48

def IsDigits (text : List Char) : Prop := text ≠ [] ∧ ∀ c ∈ text, c.isDigit = true

inductive IsWhole : List Char → Prop where
  | zero : IsWhole ['0']
  | digits {text : List Char} (hdigits : IsDigits text) (hhead : text.head? ≠ some '0') :
      IsWhole text

/-- The fraction of a number, with its digits. -/
inductive IsFraction : List Char → List Nat → Prop where
  | none : IsFraction [] []
  | digits {text : List Char} (hdigits : IsDigits text) :
      IsFraction ('.' :: text) (digitsOf text)

/-- The exponent of a number, with its value. -/
inductive IsExponent : List Char → Option Int → Prop where
  | none : IsExponent [] none
  | digits {e : Char} {text : List Char} (he : e = 'e' ∨ e = 'E') (hdigits : IsDigits text) :
      IsExponent (e :: text) (some (digitsValue (digitsOf text)))
  | plus {e : Char} {text : List Char} (he : e = 'e' ∨ e = 'E') (hdigits : IsDigits text) :
      IsExponent (e :: '+' :: text) (some (digitsValue (digitsOf text)))
  | minus {e : Char} {text : List Char} (he : e = 'e' ∨ e = 'E') (hdigits : IsDigits text) :
      IsExponent (e :: '-' :: text) (some (-digitsValue (digitsOf text)))

def signOf (negative : Bool) : List Char := if negative then ['-'] else []

/-- A number that has a value. -/
inductive IsNumber : JsonNumber → List Char → Prop where
  | of {negative : Bool} {whole fraction exponent : List Char} {digits : List Nat}
      {scale : Option Int}
      {n : JsonNumber} (hwhole : IsWhole whole) (hfraction : IsFraction fraction digits)
      (hexponent : IsExponent exponent scale)
      (hvalue : numberValue? negative (digitsOf whole) digits scale = some n) :
      IsNumber n (signOf negative ++ (whole ++ (fraction ++ exponent)))

/-! ## Phrases -/

/-- What a phrase is for: a value, or what follows an opening bracket or brace, up to the closing
one. -/
inductive Part where
  | value (v : Json)
  | items (vs : List Json)
  | members (ms : List (String × Json))

/-- The tokens of a value within which arrays and objects lie to a depth, and of the items of an
array and the members of an object. -/
inductive Phrase : Nat → Part → List (List Char) → Prop where
  | nullWord {depth : Nat} : Phrase depth (.value .null) [['n', 'u', 'l', 'l']]
  | trueWord {depth : Nat} : Phrase depth (.value (.bool true)) [['t', 'r', 'u', 'e']]
  | falseWord {depth : Nat} : Phrase depth (.value (.bool false)) [['f', 'a', 'l', 's', 'e']]
  | string {depth : Nat} {s text : List Char} (hspells : Spells s text) :
      Phrase depth (.value (.string (String.ofList s))) [quoted text]
  | number {depth : Nat} {n : JsonNumber} {text : List Char} (hnumber : IsNumber n text) :
      Phrase depth (.value (.number n)) [text]
  | emptyArray {depth : Nat} : Phrase (depth + 1) (.value (.array [])) [['['], [']']]
  | array {depth : Nat} {vs : List Json} {tokens : List (List Char)}
      (hitems : Phrase depth (.items vs) tokens) :
      Phrase (depth + 1) (.value (.array vs)) (['['] :: tokens)
  | emptyObject {depth : Nat} : Phrase (depth + 1) (.value (.object [])) [['{'], ['}']]
  | object {depth : Nat} {ms : List (String × Json)} {tokens : List (List Char)}
      (hmembers : Phrase depth (.members ms) tokens) :
      Phrase (depth + 1) (.value (.object ms)) (['{'] :: tokens)
  | lastItem {depth : Nat} {v : Json} {tokens : List (List Char)}
      (hvalue : Phrase depth (.value v) tokens) : Phrase depth (.items [v]) (tokens ++ [[']']])
  | item {depth : Nat} {v : Json} {vs : List Json} {tokens later : List (List Char)}
      (hvalue : Phrase depth (.value v) tokens) (hrest : Phrase depth (.items vs) later) :
      Phrase depth (.items (v :: vs)) (tokens ++ [','] :: later)
  | lastMember {depth : Nat} {s text : List Char} {v : Json} {tokens : List (List Char)}
      (hname : Spells s text) (hvalue : Phrase depth (.value v) tokens) :
      Phrase depth (.members [(String.ofList s, v)]) (quoted text :: [':'] :: (tokens ++ [['}']]))
  | member {depth : Nat} {s text : List Char} {v : Json} {ms : List (String × Json)}
      {tokens later : List (List Char)} (hname : Spells s text)
      (hvalue : Phrase depth (.value v) tokens) (hrest : Phrase depth (.members ms) later) :
      Phrase depth (.members ((String.ofList s, v) :: ms))
        (quoted text :: [':'] :: (tokens ++ [','] :: later))

/-- Tokens one after the other, with blanks before each of them. -/
inductive Laid : List (List Char) → List Char → Prop where
  | nil : Laid [] []
  | cons {blanks token text : List Char} {tokens : List (List Char)}
      (hblanks : ∀ c ∈ blanks, isBlank c = true) (hrest : Laid tokens text) :
      Laid (token :: tokens) (blanks ++ (token ++ text))

/-- The text is one of the tokens, with blanks around and between them. -/
def IsLaidOut (tokens : List (List Char)) (text : String) : Prop :=
  ∃ body blanks, Laid tokens body ∧ (∀ c ∈ blanks, isBlank c = true) ∧
    text.toList = body ++ blanks

/-- The text is one of a value. -/
def IsText (v : Json) (text : String) : Prop :=
  ∃ tokens, Phrase maxDepth (.value v) tokens ∧ IsLaidOut tokens text

end KeyInjection.Json
