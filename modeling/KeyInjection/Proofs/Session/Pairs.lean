-- SUMMARY: Two attempts next to each other, each in its own surroundings.
import KeyInjection.Proofs.Device.Steps
import KeyInjection.Proofs.Session.Runs
import Mathlib.Data.List.Forall2

/-!
# Attempts in pairs

`Paired w v R S Q a b` compares the attempt `a` in the surroundings `w` with `b` in `v`: from states
related by `R` both end in related states, leave records related by `S`, and end well with values
related by `Q` or fail in the same way. The rules follow the way attempts are put together; for an
attempt next to itself, `Paired.same` asks only that the surroundings answer alike in the steps that
it can take.
-/

namespace KeyInjection

variable {ε φ σ τ : Type}

/-- Both have ended well, with related values, or failed in the same way. -/
inductive Agree (Q : α → β → Prop) : Except φ α → Except φ β → Prop where
  | ok {a : α} {b : β} (hvalue : Q a b) : Agree Q (.ok a) (.ok b)
  | error (e : φ) : Agree Q (.error e) (.error e)

theorem agree_eq_iff {x y : Except φ α} : Agree Eq x y ↔ x = y := by
  constructor
  · rintro (⟨rfl⟩ | _) <;> rfl
  · rintro rfl
    cases x with
    | ok a => exact .ok rfl
    | error e => exact .error e

/-- Records are related piece by piece. -/
structure Composes (S : List (Step ε) → List (Step ε) → Prop) : Prop where
  nil : S [] []
  append {first first' second second' : List (Step ε)} (hfirst : S first first')
    (hsecond : S second second') : S (first ++ second) (first' ++ second')

/-- From related states both attempts end alike, and leave related records and states. -/
def Paired (w : Surroundings σ) (v : Surroundings τ) (R : σ → τ → Prop)
    (S : List (Step ε) → List (Step ε) → Prop) (Q : α → β → Prop) (a : Attempt ε φ α)
    (b : Attempt ε φ β) : Prop :=
  ∀ s t, R s t → Agree Q (a.run.run w s).value (b.run.run v t).value ∧
    S (a.run.run w s).steps (b.run.run v t).steps ∧
    R (a.run.run w s).state (b.run.run v t).state

namespace Paired

variable {w : Surroundings σ} {v : Surroundings τ} {R : σ → τ → Prop}
variable {S : List (Step ε) → List (Step ε) → Prop}

theorem pure (hS : Composes S) {Q : α → β → Prop} {a : α} {b : β} (hvalue : Q a b) :
    Paired w v R S Q (Pure.pure a : Attempt ε φ α) (Pure.pure b) :=
  fun _ _ hrel => ⟨.ok hvalue, hS.nil, hrel⟩

theorem throw (hS : Composes S) {Q : α → β → Prop} (e : φ) :
    Paired w v R S Q (throw e : Attempt ε φ α) (throw e : Attempt ε φ β) :=
  fun _ _ hrel => ⟨.error e, hS.nil, hrel⟩

theorem emit {e : ε} (hevent : S [.published e] [.published e]) :
    Paired w v R S Eq (ExceptT.lift (Session.emit e) : Attempt ε φ Unit)
      (ExceptT.lift (Session.emit e)) :=
  fun _ _ hrel => ⟨.ok rfl, hevent, hrel⟩

/-- Requests that may differ, but are answered alike. -/
theorem exchange {i : Interface} {r r' : Request} {c c' : Command} (hcode : r.command = .ok c)
    (hcode' : r'.command = .ok c')
    (hexchange : ∀ s t, R s t → (w.exchange i c s).1 = (v.exchange i c' t).1 ∧
      R (w.exchange i c s).2 (v.exchange i c' t).2)
    (hstep : ∀ answer, S [.exchanged i c answer] [.exchanged i c' answer]) :
    Paired w v R S Eq (Device.exchange i r : Attempt ε Error Response) (Device.exchange i r') := by
  intro s t hrel
  obtain ⟨hanswer, hrel⟩ := hexchange s t hrel
  rw [Device.exchange, hcode, Device.exchange, hcode']
  refine ⟨agree_eq_iff.2 hanswer, ?_, hrel⟩
  show S [.exchanged i c (w.exchange i c s).1] [.exchanged i c' (v.exchange i c' t).1]
  rw [← hanswer]
  exact hstep _

theorem bind (hS : Composes S) {Q : α → β → Prop} {Q' : γ → δ → Prop} {a : Attempt ε φ α}
    {b : Attempt ε φ β} {k : α → Attempt ε φ γ} {l : β → Attempt ε φ δ}
    (hfirst : Paired w v R S Q a b) (hsecond : ∀ x y, Q x y → Paired w v R S Q' (k x) (l y)) :
    Paired w v R S Q' (a >>= k) (b >>= l) := by
  intro s t hrel
  obtain ⟨hvalue, hsteps, hstate⟩ := hfirst s t hrel
  rw [Session.run_attempt_bind w a k, Session.run_attempt_bind v b l]
  dsimp only
  generalize (a.run.run w s).value = x at hvalue
  generalize (b.run.run v t).value = y at hvalue
  cases hvalue with
  | ok hvalue =>
    obtain ⟨hvalue, hlater, hstate⟩ := hsecond _ _ hvalue _ _ hstate
    exact ⟨hvalue, hS.append hsteps hlater, hstate⟩
  | error e => exact ⟨.error e, hS.append hsteps hS.nil, hstate⟩

theorem report (hS : Composes S) {Q : α → β → Prop} {c : Prop} [Decidable c] {e : ε}
    {a : Attempt ε φ α} {b : Attempt ε φ β} (hevent : S [.published e] [.published e])
    (hab : Paired w v R S Q a b) :
    Paired w v R S Q
      (if c then (ExceptT.lift (Session.emit e) : Attempt ε φ Unit) >>= fun _ => a else a)
      (if c then (ExceptT.lift (Session.emit e) : Attempt ε φ Unit) >>= fun _ => b else b) := by
  split
  · exact (emit hevent).bind hS fun _ _ _ => hab
  · exact hab

/-- A check that ends both or none. -/
theorem check (hS : Composes S) {Q : α → β → Prop} {c : Prop} [Decidable c] {e : φ}
    {k : Unit → Attempt ε φ α} {l : Unit → Attempt ε φ β} (hkl : Paired w v R S Q (k ()) (l ())) :
    Paired w v R S Q (if c then (MonadExcept.throw e : Attempt ε φ Unit) >>= k else k ())
      (if c then (MonadExcept.throw e : Attempt ε φ Unit) >>= l else l ()) := by
  split
  · exact throw hS e
  · exact hkl

/-- An attempt goes alike in surroundings that answer alike in the steps that it can take. -/
theorem same {P : Step ε → Prop} {a : Attempt ε φ α} (honly : Only P a)
    (hexchange : ∀ i c s t, R s t → P (.exchanged i c (w.exchange i c s).1) →
      (w.exchange i c s).1 = (v.exchange i c t).1 ∧ R (w.exchange i c s).2 (v.exchange i c t).2)
    (hpost : ∀ url body s t, R s t → P (.posted url body (w.post url body s).1) →
      (w.post url body s).1 = (v.post url body t).1 ∧ R (w.post url body s).2 (v.post url body t).2)
    (hrefl : ∀ steps, (∀ step ∈ steps, P step) → S steps steps) : Paired w v R S Eq a a := by
  intro s t hrel
  obtain ⟨hvalue, hsteps, hstate⟩ :=
    Session.run_simulates_of_steps hexchange hpost a.run hrel (honly.run w s)
  exact ⟨agree_eq_iff.2 hvalue, hsteps ▸ hrefl _ (honly.run w s), hstate⟩

/-- Loops over related lists. -/
theorem forM (hS : Composes S) {f : α → Attempt ε φ Unit} {g : β → Attempt ε φ Unit} {l : List α}
    {l' : List β} (hbodies : List.Forall₂ (fun x y => Paired w v R S Eq (f x) (g y)) l l') :
    Paired w v R S Eq (l.forM f) (l'.forM g) := by
  induction hbodies with
  | nil => exact pure hS rfl
  | cons hbody _ ih =>
    rw [List.forM_eq_forM, List.forM_cons, List.forM_eq_forM, List.forM_cons]
    exact hbody.bind hS fun _ _ _ => ih

end Paired

end KeyInjection
