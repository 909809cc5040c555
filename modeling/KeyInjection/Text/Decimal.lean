-- SUMMARY: Natural numbers as decimal digits.

/-!
# Decimal numbers

A text of digits alone stands for a natural number; a text with anything else in it, or with
nothing, does not.
-/

namespace KeyInjection.Text

def decimal? (digits : List Char) : Option Nat :=
  if digits.isEmpty || !digits.all Char.isDigit then none
  else some (digits.foldl (fun n c => 10 * n + (c.toNat - '0'.toNat)) 0)

end KeyInjection.Text
