-- SUMMARY: Single-quoted display of one character, with escapes for what cannot be seen.

/-!
# Quoted characters

A message that points at one offending character shows it between single quotes. Characters that
would not be visible there, or would end the quotation early, are escaped. What is quoted here are
single bytes, as the characters up to U+00FF (`Hex.toNat_lt_of_decode`); which of the characters
beyond these are visible is left out.
-/

namespace KeyInjection.Text

/-- Lower-case hexadecimal digits of a number, without leading zeros. -/
def hexDigits (n : Nat) : String := String.ofList (Nat.toDigits 16 n)

/-- Lower-case hexadecimal digits of a number, filled with zeros up to a width. -/
def paddedHex (width n : Nat) : String :=
  let digits := Nat.toDigits 16 n
  String.ofList (List.replicate (width - digits.length) '0' ++ digits)

/-- Whether a character up to U+00FF is a control, the blank that does not break, or the soft
hyphen. -/
def isInvisible (c : Char) : Bool :=
  c.toNat < 0x20 || (0x7f ≤ c.toNat && c.toNat ≤ 0xa0) || c.toNat == 0xad

/-- A character as it stands between the quotes. -/
def escaped (c : Char) : String :=
  match c with
  | '\x00' => "\\0"
  | '\t' => "\\t"
  | '\r' => "\\r"
  | '\n' => "\\n"
  | '\'' => "\\'"
  | '\\' => "\\\\"
  | c => if isInvisible c then "\\u\x7b" ++ hexDigits c.toNat ++ "\x7d" else c.toString

def quoted (c : Char) : String := "'" ++ escaped c ++ "'"

end KeyInjection.Text
