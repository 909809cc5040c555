-- SUMMARY: Rounding of quotients to binary floating-point formats.

/-!
# Rounding to binary formats

A non-negative value of a binary floating-point format is a significand times a power of two. The
only operation that decides anything is `Format.nearest`: the value of the format nearest to a
quotient of two natural numbers, a tie going to the even significand. Products and quotients of
values are that operation on exact products and quotients.
-/

namespace KeyInjection.Number

/-- The natural number nearest to a quotient; a tie goes to the even one. -/
def roundDiv (num den : Nat) : Nat :=
  let floor := num / den
  let rest := num % den
  if 2 * rest < den ∨ (2 * rest = den ∧ floor % 2 = 0) then floor else floor + 1

/-- The value `significand * 2 ^ exponent`. -/
structure Magnitude where
  significand : Nat
  exponent : Int
  deriving DecidableEq, Repr

namespace Magnitude

def num (m : Magnitude) : Nat := m.significand * Nat.pow 2 m.exponent.toNat

def den (m : Magnitude) : Nat := Nat.pow 2 (-m.exponent).toNat

end Magnitude

/-- A binary format: the width of its significands, and the least and greatest exponents. -/
structure Format where
  width : Nat
  least : Int
  greatest : Int
  deriving Repr

namespace Format

def single : Format := ⟨24, -149, 104⟩

def double : Format := ⟨53, -1074, 971⟩

/-- A quotient, counted in units of `2 ^ exponent` and rounded. -/
def unitsOf (exponent : Int) (num den : Nat) : Nat :=
  roundDiv (num * Nat.pow 2 (-exponent).toNat) (den * Nat.pow 2 exponent.toNat)

/-- The exponent at which a positive quotient has a significand of full width. -/
def exponentOf (f : Format) (num den : Nat) : Int :=
  let e : Int := (Nat.log2 num : Int) - Nat.log2 den - f.width + 1
  let short := num * Nat.pow 2 (-e).toNat < den * Nat.pow 2 e.toNat * Nat.pow 2 (f.width - 1)
  max f.least (if short then e - 1 else e)

/-- The value of the format nearest to a quotient, if it has one that large. -/
def nearest (f : Format) (num den : Nat) : Option Magnitude :=
  if num = 0 then some ⟨0, f.least⟩
  else
    let e := f.exponentOf num den
    let s := unitsOf e num den
    let m : Magnitude := if s = Nat.pow 2 f.width then ⟨Nat.pow 2 (f.width - 1), e + 1⟩ else ⟨s, e⟩
    if m.exponent > f.greatest then none else some m

def mul (f : Format) (a b : Magnitude) : Option Magnitude :=
  f.nearest (a.num * b.num) (a.den * b.den)

def div (f : Format) (a b : Magnitude) : Option Magnitude :=
  f.nearest (a.num * b.den) (a.den * b.num)

/-- The bits that stand for a value of the format, the sign being clear. -/
def bits (f : Format) (m : Magnitude) : Nat :=
  let top := Nat.pow 2 (f.width - 1)
  if m.significand < top then m.significand
  else ((m.exponent - f.least).toNat + 1) * top + (m.significand - top)

end Format

end KeyInjection.Number
