-- SUMMARY: Which counts a transfer reports, whatever the sizes of its pieces.
import KeyInjection.Transfer.Pace
import Mathlib.Algebra.GroupWithZero.Nat
import Mathlib.Data.List.Chain
import Mathlib.Data.List.Nodup
import Mathlib.Data.List.Sort
import Mathlib.Order.Bounds.Basic

/-!
# Reports at a pace

A pace counts what has moved since the last report, and resets that count with every report. What
it reports can be told without these counts: after each report comes the first end of a piece that
is at least one granularity further on (`FallDue`), and at the end of a completed transfer the sum
of all pieces, if it has not been reported by then. `KeepsPace` says what follows for all that is
reported, and leaves no choice about it (`KeepsPace.unique`).
-/

namespace KeyInjection

/-! ## Reports that are due -/

/-- The first end of a piece after the report at `last` that is at least one granularity further
on. -/
def IsNextDue (granularity : Nat) (ends : List Nat) (last n : Nat) : Prop :=
  IsLeast {m | m ∈ ends ∧ last < m ∧ last + granularity ≤ m} n

/-- These are the ends at which reports are due after the one at `last`, each counted from the one
before it. -/
inductive FallDue (granularity : Nat) (ends : List Nat) : Nat → List Nat → Prop where
  | nothing {last : Nat} (hnone : ∀ m ∈ ends, last < m → m < last + granularity) :
      FallDue granularity ends last []
  | next {last n : Nat} {counts : List Nat} (hnext : IsNextDue granularity ends last n)
      (hrest : FallDue granularity ends n counts) : FallDue granularity ends last (n :: counts)

namespace FallDue

variable {granularity last n total : Nat} {ends counts : List Nat}

theorem isChain (hdue : FallDue granularity ends last counts) :
    (last :: counts).IsChain (IsNextDue granularity ends) := by
  induction hdue with
  | nothing => exact .singleton _
  | next hnext _ ih => exact .cons_cons hnext ih

/-- None is left out. -/
theorem mem_of_isNextDue (hdue : FallDue granularity ends last counts) {m : Nat}
    (hm : m ∈ last :: counts) (hnext : IsNextDue granularity ends m n) : n ∈ counts := by
  induction hdue with
  | nothing hnone =>
    obtain rfl := List.mem_singleton.1 hm
    obtain ⟨⟨hmem, hlater, hdue⟩, -⟩ := hnext
    exact absurd (hnone n hmem hlater) (Nat.not_lt.2 hdue)
  | next hfirst _ ih =>
    rcases List.mem_cons.1 hm with rfl | hm
    · exact List.mem_cons.2 (.inl (hnext.unique hfirst))
    · exact List.mem_cons_of_mem _ (ih hm)

/-- They increase. -/
theorem pairwise (hdue : FallDue granularity ends last counts) :
    (last :: counts).Pairwise (· < ·) :=
  (hdue.isChain.imp fun _ _ hnext => hnext.1.2.1).pairwise

theorem mem_ends (hdue : FallDue granularity ends last counts) : ∀ m ∈ counts, m ∈ ends := by
  induction hdue with
  | nothing => exact nofun
  | next hnext _ ih => exact List.forall_mem_cons.2 ⟨hnext.1.1, ih⟩

/-- After the last of them no more is due. -/
theorem getLast?_getD (hdue : FallDue granularity ends last counts) :
    ∀ m ∈ ends, counts.getLast?.getD last < m → m < counts.getLast?.getD last + granularity := by
  induction hdue with
  | nothing hnone => exact hnone
  | next _ _ ih =>
    rw [List.getLast?_cons]
    exact ih

/-- Each takes one granularity. -/
theorem length_mul_le (hdue : FallDue granularity ends last counts) (hlast : last ≤ total)
    (hends : ∀ m ∈ ends, m ≤ total) : last + counts.length * granularity ≤ total := by
  induction hdue with
  | nothing => simpa using hlast
  | next hnext _ ih =>
    have hrest := ih (hends _ hnext.1.1)
    have hstep := hnext.1.2.2
    rw [List.length_cons, Nat.succ_mul]
    omega

end FallDue

/-- Partial sums lie between the first and the last. -/
theorem bounds_of_mem_scanl {sizes : List Nat} {moved m : Nat}
    (hm : m ∈ sizes.scanl (· + ·) moved) : moved ≤ m ∧ m ≤ moved + sizes.sum := by
  induction sizes generalizing moved with
  | nil =>
    obtain rfl : m = moved := by simpa using hm
    simp
  | cons n rest ih =>
    rw [List.scanl_cons, List.mem_cons] at hm
    rw [List.sum_cons]
    rcases hm with rfl | hm
    · omega
    · have := ih hm
      omega

/-! ## Reports of a pace -/

namespace Pace

variable {p : Pace} {n : Nat} {sizes : List Nat}

/-- What is reported as `n` more bytes have moved. -/
def reported (p : Pace) (n : Nat) : List Nat := if p.isDue n then [p.moved + n] else []

/-- What is reported at the end. -/
def closing (p : Pace) : List Nat := if p.isDueAtEnd then [p.moved] else []

@[simp] theorem moved_advance (p : Pace) (n : Nat) : (p.advance n).moved = p.moved + n := by
  unfold advance
  split <;> rfl

@[simp] theorem granularity_advance (p : Pace) (n : Nat) :
    (p.advance n).granularity = p.granularity := by
  unfold advance
  split <;> rfl

theorem advance_of_isDue (hdue : p.isDue n = true) :
    p.reported n = [p.moved + n] ∧ (p.advance n).notified = p.moved + n := by
  unfold reported advance
  rw [if_pos hdue, if_pos hdue]
  exact ⟨rfl, rfl⟩

theorem advance_of_not_isDue (hdue : p.isDue n = false) :
    p.reported n = [] ∧ (p.advance n).notified = p.notified := by
  unfold reported advance
  rw [hdue]
  exact ⟨rfl, rfl⟩

theorem isDueAtEnd_iff : p.isDueAtEnd = true ↔ p.granularity ≤ p.moved ∧ p.notified ≠ p.moved := by
  simp [isDueAtEnd]

/-- What is reported as pieces of these sizes move. -/
def along (p : Pace) : List Nat → List Nat
  | [] => []
  | n :: rest => p.reported n ++ (p.advance n).along rest

/-- The pace once pieces of these sizes have moved. -/
def through (p : Pace) (sizes : List Nat) : Pace := sizes.foldl advance p

theorem through_append (p : Pace) (first second : List Nat) :
    p.through (first ++ second) = (p.through first).through second := List.foldl_append

theorem along_append (p : Pace) (first second : List Nat) :
    p.along (first ++ second) = p.along first ++ (p.through first).along second := by
  induction first generalizing p with
  | nil => rfl
  | cons n rest ih =>
    rw [List.cons_append, along, ih, along, List.append_assoc]
    rfl

@[simp] theorem moved_through (p : Pace) (sizes : List Nat) :
    (p.through sizes).moved = p.moved + sizes.sum := by
  induction sizes generalizing p with
  | nil => rfl
  | cons n rest ih =>
    have hrest := ih (p.advance n)
    rw [moved_advance, Nat.add_assoc] at hrest
    rwa [List.sum_cons]

@[simp] theorem granularity_through (p : Pace) (sizes : List Nat) :
    (p.through sizes).granularity = p.granularity := by
  induction sizes generalizing p with
  | nil => rfl
  | cons n rest ih => exact (ih (p.advance n)).trans (granularity_advance p n)

/-- What is pending is what has moved since the last report, and no report is overdue. -/
structure Balanced (p : Pace) : Prop where
  notified_add_pending : p.notified + p.pending = p.moved
  pending_lt : p.pending = 0 ∨ p.pending < p.granularity

theorem balanced_start (granularity : Nat) : (start granularity).Balanced := ⟨rfl, .inl rfl⟩

theorem Balanced.advance (hp : p.Balanced) (n : Nat) : (p.advance n).Balanced := by
  have hsum := hp.notified_add_pending
  unfold Pace.advance
  split
  case isTrue => exact ⟨rfl, .inl rfl⟩
  case isFalse hdue =>
    have hpending : p.pending + n < p.granularity := by simpa [isDue] using hdue
    refine ⟨?_, .inr hpending⟩
    dsimp only
    omega

/-- What is reported along the way falls due at the ends of the pieces. -/
theorem Balanced.fallDue_along (hp : p.Balanced) (hpositive : ∀ n ∈ sizes, 0 < n)
    {ends : List Nat}
    (hends : ∀ m, p.moved < m → (m ∈ ends ↔ m ∈ sizes.scanl (· + ·) p.moved)) :
    FallDue p.granularity ends p.notified (p.along sizes) := by
  -- Of the ends only those that are still to come matter, so all may stay the same throughout.
  induction sizes generalizing p with
  | nil =>
    refine .nothing fun m hm hlater => ?_
    have hsum := hp.notified_add_pending
    have hpassed : m ≤ p.moved := by
      by_contra hahead
      have := (hends m (by omega)).1 hm
      simp at this
      omega
    have := hp.pending_lt
    omega
  | cons n rest ih =>
    obtain ⟨hn, hpositive⟩ := List.forall_mem_cons.1 hpositive
    have hsum := hp.notified_add_pending
    have hpending := hp.pending_lt
    have hahead : ∀ m, (p.advance n).moved < m →
        (m ∈ ends ↔ m ∈ rest.scanl (· + ·) (p.advance n).moved) := by
      intro m hm
      rw [moved_advance] at hm ⊢
      rw [hends m (by omega), List.scanl_cons, List.mem_cons]
      exact or_iff_right (by omega)
    have hrest := ih (hp.advance n) hpositive hahead
    rw [granularity_advance] at hrest
    rw [along]
    cases hdue : p.isDue n with
    | false =>
      obtain ⟨hreported, hlast⟩ := advance_of_not_isDue hdue
      rw [hlast] at hrest
      rwa [hreported]
    | true =>
      obtain ⟨hreported, hlast⟩ := advance_of_isDue hdue
      have hreached : p.granularity ≤ p.pending + n := by simpa [isDue] using hdue
      rw [hlast] at hrest
      rw [hreported]
      refine .next ⟨⟨?_, by omega, by omega⟩, ?_⟩ hrest
      · rw [hends _ (by omega), List.scanl_cons]
        exact List.mem_cons_of_mem _ (by cases rest <;> simp)
      · rintro m ⟨hm, hlater, hfar⟩
        have hnew : p.moved < m := by omega
        rw [hends m hnew, List.scanl_cons, List.mem_cons] at hm
        exact (bounds_of_mem_scanl (hm.resolve_left (Nat.ne_of_gt hnew))).1

/-- The last report along the way is the one that is noted. -/
theorem notified_through (p : Pace) (sizes : List Nat) :
    (p.through sizes).notified = (p.along sizes).getLast?.getD p.notified := by
  induction sizes generalizing p with
  | nil => rfl
  | cons n rest ih =>
    have hrest := ih (p.advance n)
    rw [along]
    cases hdue : p.isDue n with
    | false =>
      obtain ⟨hreported, hlast⟩ := advance_of_not_isDue hdue
      rw [hlast] at hrest
      rw [hreported]
      exact hrest
    | true =>
      obtain ⟨hreported, hlast⟩ := advance_of_isDue hdue
      rw [hlast] at hrest
      rw [hreported, List.singleton_append, List.getLast?_cons]
      exact hrest

/-- With granularity zero there is a report at the end of every piece. -/
theorem along_eq_tail (hzero : p.granularity = 0) (sizes : List Nat) :
    p.along sizes = (sizes.scanl (· + ·) p.moved).tail := by
  induction sizes generalizing p with
  | nil => rfl
  | cons n rest ih =>
    have hdue : p.isDue n = true := by simp [isDue, hzero]
    rw [along, (advance_of_isDue hdue).1, ih (by rwa [granularity_advance]), moved_advance,
      List.scanl_cons, List.tail_cons]
    cases rest <;> simp

end Pace

/-! ## The law of reports -/

/-- How the counts go that a transfer reports when pieces of these sizes have moved; their partial
sums are the start and the ends of the pieces. Each report but a last one is at the first end of a
piece that is at least one granularity after the report before it, and no such end is left out. If
the transfer is completed, the last report tells all bytes, unless there are none or fewer than one
granularity; then there is no report. -/
structure KeepsPace (granularity : Nat) (sizes : List Nat) (completed : Bool) (counts : List Nat) :
    Prop where
  increasing : (0 :: counts).Pairwise (· < ·)
  partialSums : ∀ n ∈ counts, n ∈ sizes.partialSums
  due : (0 :: counts.dropLast).IsChain (IsNextDue granularity sizes.partialSums)
  none_left_out : ∀ last ∈ 0 :: counts, ∀ n,
    IsNextDue granularity sizes.partialSums last n → n ∈ counts
  each : granularity = 0 → counts = sizes.partialSums.tail
  silent : completed = true → sizes.sum < granularity ∨ sizes.sum = 0 → counts = []
  last : completed = true → granularity ≤ sizes.sum → 0 < sizes.sum →
    counts.getLast? = some sizes.sum ∧ counts.count sizes.sum = 1
  few : 1 ≤ granularity → counts.length ≤ sizes.sum / granularity + 1
  unclosed : completed = false →
    (0 :: counts).IsChain (IsNextDue granularity sizes.partialSums)

section

variable {granularity : Nat} {sizes due counts others : List Nat} {completed : Bool}

theorem sum_mem_partialSums (sizes : List Nat) : sizes.sum ∈ sizes.partialSums := by
  have hall : ∀ moved, moved + sizes.sum ∈ sizes.scanl (· + ·) moved := by
    induction sizes with
    | nil => simp
    | cons n rest ih =>
      intro moved
      rw [List.sum_cons, ← Nat.add_assoc, List.scanl_cons]
      exact List.mem_cons_of_mem _ (ih _)
  rw [← Nat.zero_add sizes.sum]
  exact hall 0

theorem le_sum_of_mem_partialSums {m : Nat} (hm : m ∈ sizes.partialSums) : m ≤ sizes.sum := by
  simpa using (bounds_of_mem_scanl hm).2

/-- The last that has fallen due is no further than the end. -/
theorem FallDue.last_le (hdue : FallDue granularity sizes.partialSums 0 due) :
    due.getLast?.getD 0 ≤ sizes.sum := by
  cases hlast : due.getLast? with
  | none => exact Nat.zero_le _
  | some m => exact le_sum_of_mem_partialSums (hdue.mem_ends m (List.mem_of_getLast? hlast))

/-- There are not more of them than times a granularity goes into the sum. -/
theorem FallDue.length_le (hdue : FallDue granularity sizes.partialSums 0 due)
    (hpositive : 1 ≤ granularity) : due.length ≤ sizes.sum / granularity := by
  have hlength := hdue.length_mul_le (Nat.zero_le _) fun _ => le_sum_of_mem_partialSums
  rwa [Nat.zero_add, ← Nat.le_div_iff_mul_le hpositive] at hlength

/-- From a count that is reported or the start on, what falls due is reported. -/
theorem KeepsPace.subset_of_isChain (hkeeps : KeepsPace granularity sizes completed counts)
    {last : Nat} (hlast : last ∈ 0 :: counts)
    (hchain : (last :: due).IsChain (IsNextDue granularity sizes.partialSums)) : due ⊆ counts := by
  induction due generalizing last with
  | nil => exact List.nil_subset _
  | cons n rest ih =>
    obtain ⟨hnext, hrest⟩ := List.isChain_cons_cons.1 hchain
    have hn := hkeeps.none_left_out last hlast n hnext
    exact List.cons_subset.2 ⟨hn, ih (List.mem_cons_of_mem _ hn) hrest⟩

theorem KeepsPace.subset (hkeeps : KeepsPace granularity sizes completed counts)
    (hothers : KeepsPace granularity sizes completed others) : counts ⊆ others := by
  have hstart : 0 ∈ 0 :: others := List.mem_cons_self
  cases completed with
  | false => exact hothers.subset_of_isChain hstart (hkeeps.unclosed rfl)
  | true =>
    by_cases hshort : sizes.sum < granularity ∨ sizes.sum = 0
    · rw [hkeeps.silent rfl hshort]
      exact List.nil_subset _
    · obtain ⟨hlong, hsome⟩ : granularity ≤ sizes.sum ∧ 0 < sizes.sum := by omega
      obtain ⟨hlast, -⟩ := hkeeps.last rfl hlong hsome
      obtain ⟨hend, -⟩ := hothers.last rfl hlong hsome
      rw [← List.dropLast_append_getLast? _ hlast]
      exact List.append_subset.2 ⟨hothers.subset_of_isChain hstart hkeeps.due,
        List.cons_subset.2 ⟨List.mem_of_getLast? hend, List.nil_subset _⟩⟩

/-- The law leaves no choice: it tells all counts that are reported. -/
theorem KeepsPace.unique (hkeeps : KeepsPace granularity sizes completed counts)
    (hothers : KeepsPace granularity sizes completed others) : counts = others :=
  (List.pairwise_cons.1 hkeeps.increasing).2.eq_of_mem_iff
    (List.pairwise_cons.1 hothers.increasing).2 fun _ =>
      ⟨fun hn => hkeeps.subset hothers hn, fun hn => hothers.subset hkeeps hn⟩

/-- What falls due is all that is reported unless the transfer is completed behind the last report
and is not smaller than one granularity. -/
theorem FallDue.keepsPace (hdue : FallDue granularity sizes.partialSums 0 due)
    (heach : granularity = 0 → due = sizes.partialSums.tail)
    (hend : completed = true → granularity ≤ sizes.sum → due.getLast?.getD 0 = sizes.sum) :
    KeepsPace granularity sizes completed due where
  increasing := hdue.pairwise
  partialSums := hdue.mem_ends
  due := by
    cases due with
    | nil => exact .singleton _
    | cons n rest => exact hdue.isChain.dropLast
  none_left_out _ hlast _ hnext := hdue.mem_of_isNextDue hlast hnext
  each := heach
  silent _ hshort := by
    cases hdue with
    | nothing => rfl
    | next hnext _ =>
      have := le_sum_of_mem_partialSums hnext.1.1
      have := hnext.1.2
      omega
  last hcompleted hlong hsome := by
    have hlast := hend hcompleted hlong
    cases hcount : due.getLast? with
    | none =>
      rw [hcount] at hlast
      exact absurd hlast (Nat.ne_of_lt hsome)
    | some m =>
      obtain rfl : m = sizes.sum := by rwa [hcount] at hlast
      have hdistinct : (0 :: due).Nodup := hdue.pairwise.imp Nat.ne_of_lt
      exact ⟨rfl, List.count_eq_one_of_mem hdistinct.of_cons (List.mem_of_getLast? hcount)⟩
  few hpositive := Nat.le_succ_of_le (hdue.length_le hpositive)
  unclosed _ := hdue.isChain

/-- Else the end is reported besides. -/
theorem FallDue.keepsPace_concat (hdue : FallDue granularity sizes.partialSums 0 due)
    (hlong : granularity ≤ sizes.sum) (hlast : due.getLast?.getD 0 ≠ sizes.sum) :
    KeepsPace granularity sizes true (due ++ [sizes.sum]) := by
  have hbehind : due.getLast?.getD 0 < sizes.sum := Nat.lt_of_le_of_ne hdue.last_le hlast
  have hincreasing : ((0 :: due) ++ [sizes.sum]).Pairwise (· < ·) := by
    refine (List.isChain_append.2 ⟨hdue.pairwise.isChain, .singleton _, ?_⟩).pairwise
    rintro m hm _ ⟨⟩
    rw [List.getLast?_cons] at hm
    cases hm
    exact hbehind
  have hwithin := hdue.getLast?_getD _ (sum_mem_partialSums sizes) hbehind
  exact {
    increasing := hincreasing
    partialSums := List.forall_mem_append.2
      ⟨hdue.mem_ends, List.forall_mem_singleton.2 (sum_mem_partialSums sizes)⟩
    due := by
      rw [List.dropLast_concat]
      exact hdue.isChain
    none_left_out := by
      intro last hlast n hnext
      rw [← List.cons_append] at hlast
      rcases List.mem_append.1 hlast with hlast | hlast
      · exact List.mem_append_left _ (hdue.mem_of_isNextDue hlast hnext)
      · obtain rfl := List.mem_singleton.1 hlast
        exact absurd (le_sum_of_mem_partialSums hnext.1.1) (Nat.not_le.2 hnext.1.2.1)
    each := by omega
    silent := by omega
    last := fun _ _ _ => by
      have hdistinct : (0 :: (due ++ [sizes.sum])).Nodup := hincreasing.imp Nat.ne_of_lt
      exact ⟨List.getLast?_concat, List.count_eq_one_of_mem hdistinct.of_cons (by simp)⟩
    few := by
      intro hpositive
      have := hdue.length_le hpositive
      simpa using this
    unclosed := nofun }

end

/-- At whatever pace pieces move, what is reported as they do, and at the end if it is reached,
keeps the law. -/
theorem Pace.keepsPace_along (granularity : Nat) {sizes : List Nat} (hpositive : ∀ n ∈ sizes, 0 < n)
    (completed : Bool) :
    KeepsPace granularity sizes completed ((start granularity).along sizes ++
      if completed then ((start granularity).through sizes).closing else []) := by
  have hdue : FallDue granularity sizes.partialSums 0 ((start granularity).along sizes) :=
    (balanced_start granularity).fallDue_along hpositive fun _ _ => Iff.rfl
  have heach : granularity = 0 → (start granularity).along sizes = sizes.partialSums.tail :=
    fun hzero => along_eq_tail hzero sizes
  have hmoved : ((start granularity).through sizes).moved = sizes.sum := by
    rw [moved_through]
    exact Nat.zero_add _
  have hnotified := notified_through (start granularity) sizes
  have hgranularity := granularity_through (start granularity) sizes
  unfold closing
  cases completed with
  | false =>
    rw [if_neg Bool.false_ne_true, List.append_nil]
    exact hdue.keepsPace heach nofun
  | true =>
    rw [if_pos rfl]
    split
    case isTrue hend =>
      rw [isDueAtEnd_iff, hmoved, hnotified, hgranularity] at hend
      rw [hmoved]
      exact hdue.keepsPace_concat hend.1 hend.2
    case isFalse hend =>
      rw [isDueAtEnd_iff, hmoved, hnotified, hgranularity] at hend
      rw [List.append_nil]
      exact hdue.keepsPace heach fun _ hlong => Classical.not_not.1 fun hnew => hend ⟨hlong, hnew⟩

/-- A second piece that ends behind the first granularity, and a third one that is not followed by
another. -/
example :
    let p := Pace.start 100
    p.along [60, 60, 30] = [120] ∧ (p.through [60, 60, 30]).closing = [150] := by decide

end KeyInjection
