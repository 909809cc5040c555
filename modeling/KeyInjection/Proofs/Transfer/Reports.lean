-- SUMMARY: The pieces that a record has moved, and the reports made on the way at a pace.
import KeyInjection.Proofs.Apdu.RoundTrip
import KeyInjection.Proofs.Device.Steps
import KeyInjection.Proofs.Transfer.Pace

/-!
# Moves and reports of a record

What has moved is read off the requests that were answered with success, as the terminal reads them:
`movesOf` are the sizes of these pieces, and `reportsOf` the events, each with the number of bytes
that had moved when it was published. `InPace` says that a record has the reports that are due at a
pace, each where it falls due; records of this kind are put together piece by piece.
-/

namespace KeyInjection

variable {ε φ : Type}

/-! ## Moves and reports of a record -/

/-- The size of the piece of a file that the request moves if it is answered with success: what a
read brings, of which no more counts than was asked for, if it brings something, and what a write
carries. -/
def Request.moved? (answer : Response) : Request → Option Nat
  | fileRead r =>
    if answer.body = [] then none else some (min r.length.toNat answer.body.length)
  | fileWrite r => some r.data.length
  | _ => none

def Step.moved? : Step ε → Option Nat
  | exchanged _ c (.ok answer) =>
    if answer.status.isSuccess then
      match Terminal.readCommand c with
      | .ok r => r.moved? answer
      | .error _ => none
    else none
  | _ => none

theorem Step.moved?_exchanged {i : Interface} {r : Request} {c : Command}
    (hcode : r.command = .ok c) (answer : Response) :
    (Step.exchanged i c (.ok answer) : Step ε).moved? =
      if answer.status.isSuccess then r.moved? answer else none := by
  simp only [moved?, Terminal.readCommand_command hcode]

/-- The sizes of the pieces that a record has moved, in order. -/
def movesOf (steps : List (Step ε)) : List Nat := steps.filterMap Step.moved?

@[simp] theorem movesOf_append (first second : List (Step ε)) :
    movesOf (first ++ second) = movesOf first ++ movesOf second := List.filterMap_append

/-- The events of a record, each with the number of bytes that have moved by then, if so many had
moved before. -/
def reportsAfter (moved : Nat) : List (Step ε) → List (Nat × ε)
  | [] => []
  | .published e :: rest => (moved, e) :: reportsAfter moved rest
  | step :: rest => reportsAfter (moved + step.moved?.getD 0) rest

/-- The events of a record, each with the number of bytes that have moved by then. -/
def reportsOf (steps : List (Step ε)) : List (Nat × ε) := reportsAfter 0 steps

theorem reportsAfter_append (moved : Nat) (first second : List (Step ε)) :
    reportsAfter moved (first ++ second) =
      reportsAfter moved first ++ reportsAfter (moved + (movesOf first).sum) second := by
  induction first generalizing moved with
  | nil => rfl
  | cons step rest ih =>
    have hmoves : movesOf (step :: rest) = step.moved?.toList ++ movesOf rest := by
      cases hstep : step.moved? <;> simp [movesOf, hstep]
    have hsum : moved + (movesOf (step :: rest)).sum =
        moved + step.moved?.getD 0 + (movesOf rest).sum := by
      rw [hmoves]
      cases step.moved? <;> simp [Nat.add_assoc]
    rw [hsum]
    cases step with
    | published e => exact congrArg ((moved, e) :: ·) (ih moved)
    | exchanged | posted => exact ih _

theorem map_snd_reportsAfter (moved : Nat) (steps : List (Step ε)) :
    (reportsAfter moved steps).map Prod.snd = eventsOf steps := by
  induction steps generalizing moved with
  | nil => rfl
  | cons step rest ih =>
    cases step with
    | published e => exact congrArg (e :: ·) (ih moved)
    | exchanged | posted => exact ih _

/-- A record without events has no reports. -/
theorem reportsAfter_of_quiet {moved : Nat} {steps : List (Step ε)} (hquiet : eventsOf steps = []) :
    reportsAfter moved steps = [] := by
  rw [← List.map_eq_nil_iff, map_snd_reportsAfter, hquiet]

/-- The steps that publish the reports of these counts. -/
def publishing (report : Nat → ε) (counts : List Nat) : List (Step ε) :=
  counts.map fun n => .published (report n)

theorem publishing_ite (report : Nat → ε) (c : Prop) [Decidable c] (n : Nat) :
    publishing report (if c then [n] else []) = if c then [.published (report n)] else [] := by
  split <;> rfl

/-- They move nothing. -/
@[simp] theorem movesOf_publishing (report : Nat → ε) (counts : List Nat) :
    movesOf (publishing report counts) = [] := by
  rw [movesOf, publishing, List.filterMap_map]
  exact List.filterMap_eq_nil_iff.2 fun _ _ => rfl

/-- So they are made at one count, which is the one they tell if nothing else is reported. -/
theorem reportsAfter_publishing (report : Nat → ε) {moved : Nat} {counts : List Nat}
    (hcounts : ∀ n ∈ counts, n = moved) :
    reportsAfter moved (publishing report counts) = counts.map fun n => (n, report n) := by
  induction counts with
  | nil => rfl
  | cons n rest ih =>
    obtain ⟨rfl, hrest⟩ := List.forall_mem_cons.1 hcounts
    exact congrArg ((n, report n) :: ·) (ih hrest)

/-! ## Quiet parts of a record -/

/-- An attempt that only talks publishes nothing. -/
theorem Only.eventsOf_eq_nil {a : Attempt ε φ α} (hquiet : Only (fun step => step.isTalk = true) a)
    {steps : List (Step ε)} {r : Except φ α} (hrecords : Records a steps r) :
    eventsOf steps = [] := by
  refine List.filterMap_eq_nil_iff.2 fun step hstep => ?_
  have htalk := hquiet steps r hrecords step hstep
  cases step with
  | exchanged | posted => rfl
  | published => cases htalk

/-- Exchanges are talk. -/
theorem Request.exchanged_isTalk (i : Interface) (r : Request) :
    r.Exchanged (fun step : Step ε => step.isTalk = true) i := fun _ _ _ => rfl

/-- An attempt of which no step moves a piece moves none. -/
theorem Only.movesOf_eq_nil {a : Attempt ε φ α} (hidle : Only (fun step => step.moved? = none) a)
    {steps : List (Step ε)} {r : Except φ α} (hrecords : Records a steps r) : movesOf steps = [] :=
  List.filterMap_eq_nil_iff.2 (hidle steps r hrecords)

/-- A request that asks for no piece moves none. -/
theorem Request.exchanged_idle {r : Request} (hidle : ∀ answer, r.moved? answer = none)
    (i : Interface) : r.Exchanged (fun step : Step ε => step.moved? = none) i := by
  intro c answer hcode
  cases answer with
  | error e => rfl
  | ok answer =>
    rw [Step.moved?_exchanged hcode, hidle]
    split <;> rfl

/-! ## Records at a pace -/

/-- With this record a transfer goes from one pace to another: the pieces that it moves are not
empty, and each is followed by the report that is due, before anything else moves. -/
structure Paces (report : Nat → ε) (p : Pace) (steps : List (Step ε)) (q : Pace) : Prop where
  positive : ∀ n ∈ movesOf steps, 0 < n
  through_eq : p.through (movesOf steps) = q
  reports_eq : reportsAfter p.moved steps = (p.along (movesOf steps)).map fun n => (n, report n)

namespace Paces

variable {report : Nat → ε} {p q r : Pace} {first rest steps : List (Step ε)} {n : Nat}

/-- Without moves and events the pace stays as it is. -/
theorem quiet (hquiet : eventsOf steps = []) (hmoves : movesOf steps = []) :
    Paces report p steps p where
  positive := by simp [hmoves]
  through_eq := by
    rw [hmoves]
    rfl
  reports_eq := by
    rw [hmoves, reportsAfter_of_quiet hquiet]
    rfl

theorem append (hfirst : Paces report p first q) (hrest : Paces report q rest r) :
    Paces report p (first ++ rest) r where
  positive := by
    rw [movesOf_append]
    exact List.forall_mem_append.2 ⟨hfirst.positive, hrest.positive⟩
  through_eq := by
    rw [movesOf_append, Pace.through_append, hfirst.through_eq, hrest.through_eq]
  reports_eq := by
    have hmoved : p.moved + (movesOf first).sum = q.moved := by
      rw [← hfirst.through_eq, Pace.moved_through]
    rw [reportsAfter_append, hmoved, hfirst.reports_eq, hrest.reports_eq, movesOf_append,
      Pace.along_append, hfirst.through_eq, List.map_append]

/-- A piece is moved, and what is then due is reported. -/
theorem single (hquiet : eventsOf first = []) (hmoves : movesOf first = [n]) (hn : 0 < n) :
    Paces report p (first ++ publishing report (p.reported n)) (p.advance n) where
  positive := by simp [hmoves, hn]
  through_eq := by
    rw [movesOf_append, hmoves, movesOf_publishing]
    rfl
  reports_eq := by
    have hat : ∀ m ∈ p.reported n, m = p.moved + n := by
      unfold Pace.reported
      split <;> simp
    have hsum : p.moved + (movesOf first).sum = p.moved + n := by simp [hmoves]
    rw [reportsAfter_append, reportsAfter_of_quiet hquiet, hsum, reportsAfter_publishing report hat,
      movesOf_append, hmoves, movesOf_publishing]
    simp [Pace.along]

theorem eventsOf_eq (hpaces : Paces report p steps q) :
    eventsOf steps = (p.along (movesOf steps)).map report := by
  rw [← map_snd_reportsAfter p.moved, hpaces.reports_eq, List.map_map]
  rfl

end Paces

/-- The record of a transfer that goes from one pace to another; if it is completed, the report that
is due at the end closes it. -/
def InPace (report : Nat → ε) (p q : Pace) (completed : Bool) (steps : List (Step ε)) : Prop :=
  ∃ moving, Paces report p moving q ∧
    steps = moving ++ publishing report (if completed then q.closing else [])

namespace InPace

variable {report : Nat → ε} {p q r : Pace} {completed : Bool} {first steps : List (Step ε)}

/-- A transfer that fails is not closed. -/
theorem stopped (hpaces : Paces report p steps q) : InPace report p q false steps :=
  ⟨steps, hpaces, (List.append_nil steps).symm⟩

/-- One that is completed is. -/
theorem closed (hpaces : Paces report p steps q) :
    InPace report p q true (steps ++ publishing report q.closing) := ⟨steps, hpaces, rfl⟩

theorem append (hfirst : Paces report p first q) (hrest : InPace report q r completed steps) :
    InPace report p r completed (first ++ steps) := by
  obtain ⟨moving, hpaces, rfl⟩ := hrest
  exact ⟨first ++ moving, hfirst.append hpaces, (List.append_assoc ..).symm⟩

theorem positive (hpace : InPace report p q completed steps) : ∀ n ∈ movesOf steps, 0 < n := by
  obtain ⟨moving, hpaces, rfl⟩ := hpace
  rw [movesOf_append, movesOf_publishing, List.append_nil]
  exact hpaces.positive

theorem through_eq (hpace : InPace report p q completed steps) : p.through (movesOf steps) = q := by
  obtain ⟨moving, hpaces, rfl⟩ := hpace
  rw [movesOf_append, movesOf_publishing, List.append_nil]
  exact hpaces.through_eq

/-- The last pace tells how much has moved. -/
theorem moved_eq (hpace : InPace report p q completed steps) :
    q.moved = p.moved + (movesOf steps).sum := by
  rw [← hpace.through_eq, Pace.moved_through]

/-- From the start on that is the sum of all pieces. -/
theorem sum_movesOf {granularity : Nat}
    (hpace : InPace report (.start granularity) q completed steps) :
    (movesOf steps).sum = q.moved := (hpace.moved_eq.trans (Nat.zero_add _)).symm

/-- The reports are those that are due as the pieces move, and at the end. -/
theorem reports_eq (hpace : InPace report p q completed steps) :
    reportsAfter p.moved steps =
      (p.along (movesOf steps) ++ if completed then q.closing else []).map
        fun n => (n, report n) := by
  have hmoved := hpace.moved_eq
  obtain ⟨moving, hpaces, rfl⟩ := hpace
  rw [movesOf_append, movesOf_publishing, List.append_nil] at hmoved ⊢
  have hat : ∀ n ∈ (if completed then q.closing else []), n = q.moved := by
    unfold Pace.closing
    split
    · split <;> simp
    · simp
  rw [reportsAfter_append, hpaces.reports_eq, ← hmoved, reportsAfter_publishing report hat,
    List.map_append]

end InPace

end KeyInjection
