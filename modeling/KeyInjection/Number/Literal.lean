-- SUMMARY: The 64-bit value of a decimal literal.
import KeyInjection.Number.Rounding

/-!
# Decimal literals

The value of a literal with a fraction, an exponent or too many digits is computed in the 64-bit
format in two roundings: as many whole digits as fit a 64-bit word, and then as many digits of the
fraction as still fit, are rounded once, and scaling by a power of ten rounds once more. A literal
beyond the largest value has none; one below the smallest is zero.
-/

namespace KeyInjection.Number

/-- Appends decimal digits to a number while it fits a 64-bit word; the second result is how many
digits were appended. -/
def appendWhileFits (n : Nat) : List Nat → Nat × Nat
  | [] => (n, 0)
  | d :: rest =>
    if 10 * n + d < 0x10000000000000000 then
      let (n, count) := appendWhileFits (10 * n + d) rest
      (n, count + 1)
    else (n, 0)

/-- The value of the format nearest to a power of ten up to `10 ^ 308`. -/
def powerOfTen (n : Nat) : Option Magnitude := Format.double.nearest (Nat.pow 10 n) 1

/-- The greatest power of ten that one rounding scales by. -/
def maxPlaces : Nat := 308

/-- Divides by a power of ten, `maxPlaces` places at a time, given the value of that many. -/
def scaleDownBy (step m : Magnitude) (places : Nat) : Option Magnitude :=
  if places ≤ maxPlaces then (powerOfTen places).bind (Format.double.div m)
  else if m.significand = 0 then some m
  else (Format.double.div m step).bind fun m => scaleDownBy step m (places - maxPlaces)
termination_by places
decreasing_by simp only [maxPlaces] at *; omega

def scaleDown (m : Magnitude) (places : Nat) : Option Magnitude :=
  (powerOfTen maxPlaces).bind fun step => scaleDownBy step m places

/-- Multiplies by a power of ten; only zero can be scaled up by more than `maxPlaces`. -/
def scaleUp (m : Magnitude) (places : Nat) : Option Magnitude :=
  if places ≤ maxPlaces then (powerOfTen places).bind (Format.double.mul m)
  else if m.significand = 0 then some m
  else none

/-- A literal: the digits before and after the point, and the exponent. -/
structure Literal where
  whole : List Nat
  fraction : List Nat
  exponent : Int

/-- The value of a literal, without its sign. -/
def Literal.value? (l : Literal) : Option Magnitude :=
  let (word, kept) := appendWhileFits 0 l.whole
  let (word, fine) := appendWhileFits word l.fraction
  let scale := (l.whole.length : Int) - kept - fine + l.exponent
  if l.exponent.natAbs > 2147483647 then
    if word ≠ 0 ∧ l.exponent > 0 then none else some ⟨0, Format.double.least⟩
  else
    (Format.double.nearest word 1).bind fun m =>
      if 0 ≤ scale then scaleUp m scale.toNat else scaleDown m (-scale).toNat

end KeyInjection.Number
