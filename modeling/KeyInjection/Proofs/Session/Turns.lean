-- SUMMARY: Clients of one terminal that take turns, step by step.
import KeyInjection.Proofs.Session.Runs
import Mathlib.Logic.Function.Basic

/-!
# Clients taking turns

A client has the terminal to itself for one exchange at a time. So clients with a session each, one
for each interface, may be interleaved in any way, step by step; `takeTurns` plays their sessions
in the order that a list of turns gives.

Next to such a play one may follow each client in a run of its own. `Follows` says that steps keep
the two in line, and `Follows.takeTurns` that then, whatever the turns, each client gets out of
the play what it gets out of its own run.
-/

namespace KeyInjection

variable {ε σ τ : Type}

namespace Session

/-! ## Turns -/

/-- One step of a session, unless it has ended; the value is what is left of the session. -/
def advance (w : Surroundings σ) : Session ε α → σ → Outcome ε σ (Session ε α)
  | done a, s => ⟨done a, s, []⟩
  | exchange i c next, s =>
    let answer := w.exchange i c s
    ⟨next answer.1, answer.2, [.exchanged i c answer.1]⟩
  | post url body next, s =>
    let answer := w.post url body s
    ⟨next answer.1, answer.2, [.posted url body answer.1]⟩
  | publish e next, s => ⟨next, s, [.published e]⟩

/-- Clients on both interfaces take turns, each of which is a step of the client whose turn it is.
After the last turn the client on the primary interface goes on to its end, and then the other. The
outcome has the value and the record of each client, and the state that they leave. -/
def takeTurns (w : Surroundings σ) :
    List Interface → (Interface → Session ε α) → σ → (Interface → α × List (Step ε)) × σ
  | [], clients, s =>
    let first := (clients .primary).run w s
    let second := (clients .secondary).run w first.state
    let outcome
      | Interface.primary => (first.value, first.steps)
      | Interface.secondary => (second.value, second.steps)
    (outcome, second.state)
  | i :: turns, clients, s =>
    let moved := (clients i).advance w s
    let later := takeTurns w turns (Function.update clients i moved.value) moved.state
    (Function.update later.1 i ((later.1 i).1, moved.steps ++ (later.1 i).2), later.2)

/-- A run is a step and a run of what is left. -/
theorem run_advance (w : Surroundings σ) (p : Session ε α) (s : σ) :
    p.run w s =
      let moved := p.advance w s
      let later := moved.value.run w moved.state
      { later with steps := moved.steps ++ later.steps } := by
  cases p with
  | done a => rfl
  | exchange i c next => exact run_exchange w i c next s
  | post url body next => exact run_post w url body next s
  | publish e next => exact run_publish w e next s

/-! ## Following each client -/

/-- A step of a client takes what is common and its own state along in the same way. `R` relates the
common state to the states of all clients' own runs, `Q` what is left of a client to the state of
its own run. -/
structure Follows (w : Surroundings σ) (v : Surroundings τ) (R : σ → (Interface → τ) → Prop)
    (Q : Interface → Session ε α → τ → Prop) : Prop where
  advance {i : Interface} {p : Session ε α} {s : σ} {own : Interface → τ} (hrel : R s own)
    (hp : Q i p (own i)) :
    (p.advance w s).value = (p.advance v (own i)).value ∧
      (p.advance w s).steps = (p.advance v (own i)).steps ∧
      R (p.advance w s).state (Function.update own i (p.advance v (own i)).state) ∧
      Q i (p.advance v (own i)).value (p.advance v (own i)).state

namespace Follows

variable {w : Surroundings σ} {v : Surroundings τ} {R : σ → (Interface → τ) → Prop}
variable {Q : Interface → Session ε α → τ → Prop} {i : Interface} {s : σ} {own : Interface → τ}

/-- The session goes as in its own run, and what it leaves is in line with that. -/
def AsAlone (w : Surroundings σ) (v : Surroundings τ) (R : σ → (Interface → τ) → Prop)
    (i : Interface) (p : Session ε α) (s : σ) (own : Interface → τ) : Prop :=
  (p.run w s).value = (p.run v (own i)).value ∧ (p.run w s).steps = (p.run v (own i)).steps ∧
    R (p.run w s).state (Function.update own i (p.run v (own i)).state)

/-- A session goes as in its own run if what a step leaves of it does. -/
theorem asAlone_of_advance (hfollows : Follows w v R Q) {p : Session ε α} (hrel : R s own)
    (hp : Q i p (own i))
    (hlater : ∀ s' own', R s' own' → Q i (p.advance w s).value (own' i) →
      AsAlone w v R i (p.advance w s).value s' own') : AsAlone w v R i p s own := by
  obtain ⟨hvalue, hsteps, hmoved, hleft⟩ := hfollows.advance hrel hp
  rw [← hvalue] at hleft
  obtain ⟨hends, hrecord, hfinal⟩ := hlater _ _ hmoved (by rwa [Function.update_self])
  rw [Function.update_self] at hends hrecord hfinal
  rw [Function.update_idem] at hfinal
  rw [AsAlone, run_advance w p s, run_advance v p (own i)]
  dsimp only
  rw [← hvalue, ← hsteps, hrecord]
  exact ⟨hends, rfl, hfinal⟩

/-- A client that goes on to its end goes as in its own run. -/
theorem run (hfollows : Follows w v R Q) (p : Session ε α) (hrel : R s own) (hp : Q i p (own i)) :
    AsAlone w v R i p s own := by
  induction p generalizing s own with
  | done a =>
    refine ⟨rfl, rfl, ?_⟩
    rw [run_done, run_done, Function.update_eq_self]
    exact hrel
  | exchange j c next ih =>
    exact hfollows.asAlone_of_advance hrel hp fun _ _ hrel hp => ih _ hrel hp
  | post url body next ih =>
    exact hfollows.asAlone_of_advance hrel hp fun _ _ hrel hp => ih _ hrel hp
  | publish e next ih =>
    exact hfollows.asAlone_of_advance hrel hp fun _ _ hrel hp => ih hrel hp

/-- Whatever the turns, each client has the value and the record of its own run. -/
theorem takeTurns (hfollows : Follows w v R Q) (turns : List Interface)
    {clients : Interface → Session ε α} (hrel : R s own)
    (hclients : ∀ i, Q i (clients i) (own i)) :
    let together := Session.takeTurns w turns clients s
    let alone := fun i => (clients i).run v (own i)
    (∀ i, together.1 i = ((alone i).value, (alone i).steps)) ∧
      R together.2 fun i => (alone i).state := by
  induction turns generalizing clients s own with
  | nil =>
    intro together alone
    obtain ⟨hvalue, hsteps, hfirst⟩ := hfollows.run _ hrel (hclients .primary)
    have hsecond : Q .secondary (clients .secondary)
        (Function.update own .primary (alone .primary).state .secondary) := by
      rw [Function.update_of_ne (by decide)]
      exact hclients .secondary
    obtain ⟨hvalue', hsteps', hfinal⟩ := hfollows.run _ hfirst hsecond
    rw [Function.update_of_ne (by decide)] at hvalue' hsteps' hfinal
    constructor
    · intro i
      cases i with
      | primary => exact Prod.ext hvalue hsteps
      | secondary => exact Prod.ext hvalue' hsteps'
    · have hstates : Function.update (Function.update own .primary (alone .primary).state)
          .secondary (alone .secondary).state = fun i => (alone i).state := by
        funext i
        cases i <;> rfl
      rw [← hstates]
      exact hfinal
  | cons i turns ih =>
    intro together alone
    obtain ⟨hvalue, hsteps, hmoved, hleft⟩ := hfollows.advance hrel (hclients i)
    have hnext : ∀ j, Q j (Function.update clients i ((clients i).advance w s).value j)
        (Function.update own i ((clients i).advance v (own i)).state j) := by
      intro j
      by_cases hj : j = i
      · subst hj
        rw [Function.update_self, Function.update_self, hvalue]
        exact hleft
      · rw [Function.update_of_ne hj, Function.update_of_ne hj]
        exact hclients j
    -- What is left of a client leads from where its own run has come to where that run ends.
    have hahead : ∀ j, alone j =
        let left := (Function.update clients i ((clients i).advance w s).value j).run v
          (Function.update own i ((clients i).advance v (own i)).state j)
        { left with
          steps := (if j = i then ((clients i).advance w s).steps else []) ++ left.steps } := by
      intro j
      by_cases hj : j = i
      · subst hj
        rw [Function.update_self, Function.update_self, hvalue, hsteps, if_pos rfl]
        exact run_advance v (clients j) (own j)
      · rw [Function.update_of_ne hj, Function.update_of_ne hj, if_neg hj]
        rfl
    obtain ⟨hlater, hfinal⟩ := ih hmoved hnext
    constructor
    · intro j
      rw [hahead j]
      show Function.update _ i _ j = _
      by_cases hj : j = i
      · subst hj
        rw [Function.update_self, hlater j, if_pos rfl]
      · rw [Function.update_of_ne hj, hlater j, if_neg hj]
        rfl
    · have hstates : (fun j => (alone j).state) = _ :=
        funext fun j => congrArg Outcome.state (hahead j)
      rw [hstates]
      exact hfinal

end Follows

end Session

end KeyInjection
