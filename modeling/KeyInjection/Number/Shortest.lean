-- SUMMARY: Shortest decimal text of a 64-bit binary value.
import KeyInjection.Number.Rounding

/-!
# Shortest decimals

A value of a binary format is written with the fewest decimal digits that are read back as that
value, and of the decimals with so few digits with the nearest one. The reals that are read back
as a value form an interval around it, whose ends belong to it iff its significand is even; with a
given number of digits only the two neighbours of the value on the decimal grid need to be looked
at.

How the digits are set out is `layout`: positional between `1e-5` and `1e16`, always with a point,
else with an exponent that has a sign.
-/

namespace KeyInjection.Number

/-- The decimal number `digits * 10 ^ exponent`. -/
structure Decimal where
  digits : Nat
  exponent : Int
  deriving DecidableEq, Repr

/-- Compares `a * 2 ^ p` with `b * 10 ^ q`. -/
def comparePowers (a : Nat) (p : Int) (b : Nat) (q : Int) : Ordering :=
  compare (a * Nat.pow 2 p.toNat * Nat.pow 10 (-q).toNat)
    (b * Nat.pow 10 q.toNat * Nat.pow 2 (-p).toNat)

/-- The reals read back as a value, in quarters of the unit of its significand: the lower end, the
upper end, and whether the ends belong. -/
structure Interval where
  lower : Nat
  upper : Nat
  closed : Bool

/-- The reals read back as a positive value; below a power of two the grid is twice as fine. -/
def Magnitude.interval (f : Format) (m : Magnitude) : Interval :=
  let quarters := 4 * m.significand
  let edge := m.significand = Nat.pow 2 (f.width - 1) ∧ m.exponent > f.least
  ⟨quarters - (if edge then 1 else 2), quarters + 2, m.significand % 2 == 0⟩

def Interval.contains (i : Interval) (m : Magnitude) (d : Decimal) : Bool :=
  let low := comparePowers i.lower (m.exponent - 2) d.digits d.exponent
  let high := comparePowers i.upper (m.exponent - 2) d.digits d.exponent
  (low == .lt || (i.closed && low == .eq)) && (high == .gt || (i.closed && high == .eq))

/-- The decimal exponent of the first digit of a positive value. -/
def Magnitude.leadingExponent (m : Magnitude) : Int :=
  let scaled := m.num * Nat.pow 10 400 / m.den
  ((Nat.toDigits 10 scaled).length : Int) - 401

/-- Whether a value is at most as far from `low` as from the next decimal of the same exponent. -/
def Magnitude.nearerBelow (m : Magnitude) (low : Decimal) : Bool :=
  let order := comparePowers (2 * m.significand) m.exponent (2 * low.digits + 1) low.exponent
  order == .lt || (order == .eq && low.digits % 2 == 0)

/-- The decimal with the given number of digits that is read back as a positive value, if there is
one. -/
def Magnitude.withDigits? (f : Format) (m : Magnitude) (count : Nat) : Option Decimal :=
  let exponent := m.leadingExponent - count + 1
  let floor := m.num * Nat.pow 10 (-exponent).toNat / (m.den * Nat.pow 10 exponent.toNat)
  let low : Decimal := ⟨floor, exponent⟩
  let high : Decimal := ⟨floor + 1, exponent⟩
  let i := m.interval f
  match i.contains m low, i.contains m high with
  | true, true => some (if m.nearerBelow low then low else high)
  | true, false => some low
  | false, true => some high
  | false, false => none

/-- The shortest decimal that is read back as a positive value. -/
def Magnitude.shortest (f : Format) (m : Magnitude) : Decimal :=
  ((List.range 17).findSome? fun n => m.withDigits? f (n + 1)).getD ⟨m.num, 0⟩

/-- Sets digits out with their first one at the given decimal exponent. -/
def layout (digits : List Char) (leading : Int) : List Char :=
  if 0 ≤ leading ∧ leading ≤ 15 then
    let whole := leading.toNat + 1
    let fraction := digits.drop whole
    digits.take whole ++ List.replicate (whole - digits.length) '0' ++
      ['.'] ++ (if fraction.isEmpty then ['0'] else fraction)
  else if -5 ≤ leading ∧ leading < 0 then
    ['0', '.'] ++ List.replicate ((-leading).toNat - 1) '0' ++ digits
  else
    let tail := digits.drop 1
    digits.take 1 ++ (if tail.isEmpty then [] else '.' :: tail) ++
      ['e', if leading < 0 then '-' else '+'] ++ Nat.toDigits 10 leading.natAbs

def doubleText (negative : Bool) (m : Magnitude) : String :=
  let sign := if negative then ['-'] else []
  if m.significand = 0 then String.ofList (sign ++ ['0', '.', '0'])
  else
    let d := m.shortest .double
    let all := Nat.toDigits 10 d.digits
    let kept := (all.reverse.dropWhile (· == '0')).reverse
    String.ofList (sign ++ layout kept (d.exponent + all.length - 1))

end KeyInjection.Number
