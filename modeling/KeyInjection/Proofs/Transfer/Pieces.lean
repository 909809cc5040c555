-- SUMMARY: Which piece of a byte string stands where, and how many there are.
import KeyInjection.Transfer.Pieces
import Mathlib.Algebra.Order.Floor.Div

/-!
# Pieces by number

The pieces of a byte string are known without cutting it: the one of number `j` starts after `j`
times the size, and there are as many as it takes to reach the end (`getElem?_pieces`,
`length_pieces`). The first of them are the pieces of the front (`take_pieces`).
-/

namespace KeyInjection

/-! ## Division rounded up -/

section

variable {n m size : Nat}

theorem lt_ceilDiv_iff (hsize : 0 < size) : m < n ⌈/⌉ size ↔ m * size < n := by
  rw [← Nat.not_le, ← Nat.not_le, ceilDiv_le_iff_le_mul hsize, Nat.mul_comm]

theorem le_ceilDiv_mul (hsize : 0 < size) : n ≤ (n ⌈/⌉ size) * size :=
  Nat.le_of_not_lt fun h => Nat.lt_irrefl _ ((lt_ceilDiv_iff hsize).2 h)

theorem ceilDiv_of_pos (hsize : 0 < size) (hn : 0 < n) :
    n ⌈/⌉ size = (n - size) ⌈/⌉ size + 1 := by
  refine eq_of_forall_lt_iff fun m => ?_
  rw [lt_ceilDiv_iff hsize]
  cases m with
  | zero => omega
  | succ m =>
    rw [Nat.succ_lt_succ_iff, lt_ceilDiv_iff hsize, Nat.succ_mul]
    omega

end

namespace Bytes

variable {size : Nat}

theorem length_pieces (hsize : 0 < size) (b : Bytes) :
    (pieces size b).length = b.length ⌈/⌉ size := by
  induction b using pieces_induction hsize with
  | nil =>
    rw [pieces_nil]
    exact (zero_ceilDiv size).symm
  | step b hmore ih =>
    rw [pieces_of_ne_nil hsize hmore, List.length_cons, ih, List.length_drop,
      ceilDiv_of_pos hsize (List.length_pos_iff.2 hmore)]

theorem getElem?_pieces (hsize : 0 < size) (b : Bytes) (j : Nat) :
    (pieces size b)[j]? =
      if j * size < b.length then some ((b.drop (j * size)).take size) else none := by
  induction b using pieces_induction hsize generalizing j with
  | nil => simp
  | step b hmore ih =>
    rw [pieces_of_ne_nil hsize hmore]
    cases j with
    | zero => simp [List.length_pos_iff.2 hmore]
    | succ j =>
      have hwithin : j * size < (b.drop size).length ↔ (j + 1) * size < b.length := by
        rw [List.length_drop, Nat.succ_mul]
        omega
      rw [List.getElem?_cons_succ, ih, List.drop_drop, Nat.succ_mul, Nat.add_comm size,
        ← Nat.succ_mul]
      simp only [hwithin]

/-- The first pieces are those of the bytes in front. -/
theorem take_pieces (hsize : 0 < size) (b : Bytes) (m : Nat) :
    (pieces size b).take m = pieces size (b.take (m * size)) := by
  induction m generalizing b with
  | zero => simp
  | succ m ih =>
    by_cases hmore : b = []
    · simp [hmore]
    have hlength : 0 < b.length := List.length_pos_iff.2 hmore
    have hfront : b.take ((m + 1) * size) ≠ [] := by
      rw [← List.length_pos_iff, List.length_take, Nat.succ_mul]
      omega
    have hfirst : (b.take ((m + 1) * size)).take size = b.take size := by
      rw [List.take_take, Nat.min_eq_left (Nat.le_mul_of_pos_left size (Nat.succ_pos m))]
    have hrest : (b.take ((m + 1) * size)).drop size = (b.drop size).take (m * size) := by
      rw [List.drop_take, Nat.succ_mul, Nat.add_sub_cancel]
    rw [pieces_of_ne_nil hsize hmore, pieces_of_ne_nil hsize hfront, List.take_succ_cons, ih,
      hfirst, hrest]

end Bytes

end KeyInjection
