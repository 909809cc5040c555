-- SUMMARY: When a transfer reports progress, and what it reports.
import KeyInjection.Number.Rounding

/-!
# Progress

A `Pace` decides when a report is due: as soon as one granularity of bytes has moved since the
last report, and once more at the end, unless that was reported already or the whole transfer is
smaller than one granularity. An upload reports how many bytes have moved, a download which share
of the file.
-/

namespace KeyInjection

/-- How much has moved: in all, since the last report, and up to the last report. -/
structure Pace where
  granularity : Nat
  pending : Nat
  moved : Nat
  notified : Nat
  deriving DecidableEq, Repr

namespace Pace

def start (granularity : Nat) : Pace := ⟨granularity, 0, 0, 0⟩

/-- Whether a report is due once `n` more bytes have moved. -/
def isDue (p : Pace) (n : Nat) : Bool := p.granularity ≤ p.pending + n

/-- Counts `n` more bytes, and a report if one is due. -/
def advance (p : Pace) (n : Nat) : Pace :=
  if p.isDue n then { p with pending := 0, moved := p.moved + n, notified := p.moved + n }
  else { p with pending := p.pending + n, moved := p.moved + n }

def isDueAtEnd (p : Pace) : Bool := p.granularity ≤ p.moved && p.notified != p.moved

end Pace

/-- A share of a file: how many of its bytes have moved. -/
structure Share where
  moved : Nat
  total : Nat
  deriving DecidableEq, Repr

namespace Share

open Number in
/-- The share as a value of the 32-bit binary format: both counts are rounded, then their
quotient. -/
def single (s : Share) : Magnitude :=
  let quotient := do
    Format.single.div (← Format.single.nearest s.moved 1) (← Format.single.nearest s.total 1)
  quotient.getD ⟨0, Format.single.least⟩

def bits (s : Share) : Nat := Number.Format.single.bits s.single

open Number in
/-- The share in percent: a hundred times that value, in the same format, to the nearest whole
number. -/
def percent (s : Share) : Nat :=
  let product := (Format.single.mul s.single ⟨100, 0⟩).getD ⟨0, 0⟩
  roundDiv product.num product.den

end Share

end KeyInjection
