-- SUMMARY: Byte sources that uploads read from.
import KeyInjection.Bytes

/-!
# Byte sources

An upload reads its data from a source that gives some bytes at a time, up to the room there is
for them; giving none is the end. `gather` reads until a piece is full or the source ends, so that
the size of the pieces does not depend on how the source deals its bytes out.
-/

namespace KeyInjection

/-- Something to read bytes from, with states `τ`. Reading either fails, with a text that tells
why, or gives bytes; of these no more count than there is room for. -/
structure ByteSource (τ : Type) where
  read : Nat → τ → Except String Bytes × τ
  close : τ → τ

namespace ByteSource

/-- Reads until the room is filled or the source ends, given the bytes read before, the latest
first. -/
def gatherAfter (src : ByteSource τ) (past : List Bytes) (room : Nat) (s : τ) :
    Except String Bytes × τ :=
  if _full : room = 0 then (.ok past.reverse.flatten, s)
  else
    match src.read room s with
    | (.error detail, s) => (.error detail, s)
    | (.ok bytes, s) =>
      let piece := bytes.take room
      if _advanced : 0 < piece.length then src.gatherAfter (piece :: past) (room - piece.length) s
      else (.ok past.reverse.flatten, s)
termination_by room
decreasing_by exact Nat.sub_lt (Nat.pos_of_ne_zero _full) _advanced

def gather (src : ByteSource τ) (room : Nat) (s : τ) : Except String Bytes × τ :=
  src.gatherAfter [] room s

end ByteSource

end KeyInjection
