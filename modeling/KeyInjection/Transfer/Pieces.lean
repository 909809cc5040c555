-- SUMMARY: Cutting a byte string into pieces of bounded size.
import KeyInjection.Bytes

/-!
# Pieces

A transfer moves a byte string in consecutive pieces of one size, the last of which may be shorter.

* `pieces_of_ne_nil` says which piece comes first, and `pieces_induction` follows the cuts;
* `flatten_pieces` says that nothing is lost;
* `length_of_mem_pieces` says that no piece is empty, and none too long.
-/

namespace KeyInjection.Bytes

/-- Cuts on, given the pieces cut before, the latest first. -/
def piecesAfter (size : Nat) (past : List Bytes) (b : Bytes) : List Bytes :=
  if _more : 0 < size ∧ b ≠ [] then piecesAfter size (b.take size :: past) (b.drop size)
  else past.reverse
termination_by b.length
decreasing_by
  have := List.length_pos_iff.2 _more.2
  simp only [List.length_drop]
  omega

/-- The consecutive pieces of a byte string; a size of zero gives none. -/
def pieces (size : Nat) (b : Bytes) : List Bytes := piecesAfter size [] b

theorem piecesAfter_append (size : Nat) (past more : List Bytes) (b : Bytes) :
    piecesAfter size (past ++ more) b = more.reverse ++ piecesAfter size past b := by
  fun_induction piecesAfter size past b with
  | case1 past b h ih => rw [piecesAfter, dif_pos h, ← List.cons_append, ih]
  | case2 past b done => rw [piecesAfter, dif_neg done, List.reverse_append]

@[simp] theorem pieces_nil (size : Nat) : pieces size [] = [] := by
  rw [pieces, piecesAfter, dif_neg (by simp), List.reverse_nil]

theorem pieces_of_ne_nil {size : Nat} (positive : 0 < size) {b : Bytes} (h : b ≠ []) :
    pieces size b = b.take size :: pieces size (b.drop size) := by
  rw [pieces, piecesAfter, dif_pos ⟨positive, h⟩]
  exact piecesAfter_append size [] [b.take size] (b.drop size)

theorem pieces_zero (b : Bytes) : pieces 0 b = [] := by
  rw [pieces, piecesAfter, dif_neg (by simp), List.reverse_nil]

/-- Induction on what is left of a byte string after each piece. -/
theorem pieces_induction {size : Nat} (positive : 0 < size) {motive : Bytes → Prop}
    (nil : motive []) (step : ∀ b, b ≠ [] → motive (b.drop size) → motive b) (b : Bytes) :
    motive b := by
  by_cases h : b = []
  · exact h ▸ nil
  · have := List.length_pos_iff.2 h
    exact step b h (pieces_induction positive nil step (b.drop size))
termination_by b.length
decreasing_by simp only [List.length_drop]; omega

theorem flatten_pieces {size : Nat} (positive : 0 < size) (b : Bytes) :
    (pieces size b).flatten = b := by
  induction b using pieces_induction positive with
  | nil => rw [pieces_nil, List.flatten_nil]
  | step b h ih =>
    rw [pieces_of_ne_nil positive h, List.flatten_cons, ih, List.take_append_drop]

theorem length_of_mem_pieces {size : Nat} {b piece : Bytes} (h : piece ∈ pieces size b) :
    0 < piece.length ∧ piece.length ≤ size := by
  by_cases positive : 0 < size
  · induction b using pieces_induction positive with
    | nil => rw [pieces_nil] at h; exact absurd h List.not_mem_nil
    | step b more ih =>
      rw [pieces_of_ne_nil positive more] at h
      rcases List.mem_cons.1 h with rfl | later
      · have := List.length_pos_iff.2 more
        simp only [List.length_take]
        omega
      · exact ih later
  · obtain rfl : size = 0 := by omega
    rw [pieces_zero] at h
    exact absurd h List.not_mem_nil

end KeyInjection.Bytes
