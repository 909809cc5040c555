-- SUMMARY: Sessions of a client with a terminal and a key host, their runs and their transcripts.
import KeyInjection.Channel

/-!
# Sessions

What a client does is a `Session`: a tree that either ends in a value or takes one step and goes on
by what the step brought back. The steps are an exchange with the terminal, a request to the key
host, and the publication of an event; a session does nothing else, so two sessions that are equal
as trees cannot be told apart.

`Session.run` plays a session in given `Surroundings` and records every step with its outcome.
`Session.Generates` relates a session to the records it can leave, whatever its surroundings do;
`generates_run` says that runs leave only those.
-/

namespace KeyInjection

/-- What a client does, publishing events `ε` and ending in a value `α`. -/
inductive Session (ε α : Type) where
  | done (value : α)
  | exchange (interface : Interface) (command : Command)
      (next : Except Error Response → Session ε α)
  | post (url body : String) (next : Except Error Bytes → Session ε α)
  | publish (event : ε) (next : Session ε α)

/-- A step that a session took, with what it brought back. -/
inductive Step (ε : Type) where
  | exchanged (interface : Interface) (command : Command) (answer : Except Error Response)
  | posted (url body : String) (answer : Except Error Bytes)
  | published (event : ε)

namespace Session

-- ---------------------------------------------------------------------------
-- Sequencing
-- ---------------------------------------------------------------------------

def bind : Session ε α → (α → Session ε β) → Session ε β
  | done a, k => k a
  | exchange i c next, k => exchange i c fun r => (next r).bind k
  | post url body next, k => post url body fun r => (next r).bind k
  | publish e next, k => publish e (next.bind k)

instance : Monad (Session ε) where
  pure := done
  bind := bind

theorem bind_done (s : Session ε α) : s.bind done = s := by
  induction s with
  | done a => rfl
  | exchange i c next ih => simp [bind, ih]
  | post url body next ih => simp [bind, ih]
  | publish e next ih => simp [bind, ih]

theorem bind_assoc (s : Session ε α) (f : α → Session ε β) (g : β → Session ε γ) :
    (s.bind f).bind g = s.bind fun a => (f a).bind g := by
  induction s with
  | done a => rfl
  | exchange i c next ih => simp [bind, ih]
  | post url body next ih => simp [bind, ih]
  | publish e next ih => simp [bind, ih]

instance : LawfulMonad (Session ε) := LawfulMonad.mk' _ bind_done (fun _ _ => rfl) bind_assoc

def emit (e : ε) : Session ε Unit := publish e (done ())

def mapEvents (f : ε → δ) : Session ε α → Session δ α
  | done a => done a
  | exchange i c next => exchange i c fun r => (next r).mapEvents f
  | post url body next => post url body fun r => (next r).mapEvents f
  | publish e next => publish (f e) (next.mapEvents f)

end Session

-- ---------------------------------------------------------------------------
-- Runs
-- ---------------------------------------------------------------------------

/-- What a session meets: a terminal and a key host, with a common state. -/
structure Surroundings (σ : Type) where
  exchange : Interface → Command → σ → Except Error Response × σ
  post : String → String → σ → Except Error Bytes × σ

/-- The outcome of a run: the value, the state left behind, and the steps taken. -/
structure Outcome (ε σ α : Type) where
  value : α
  state : σ
  steps : List (Step ε)

namespace Session

/-- Plays a session on, given the steps taken before, the latest first. -/
def runAfter (w : Surroundings σ) : Session ε α → σ → List (Step ε) → Outcome ε σ α
  | done a, s, past => ⟨a, s, past.reverse⟩
  | exchange i c next, s, past =>
    let (r, s) := w.exchange i c s
    (next r).runAfter w s (.exchanged i c r :: past)
  | post url body next, s, past =>
    let (r, s) := w.post url body s
    (next r).runAfter w s (.posted url body r :: past)
  | publish e next, s, past => next.runAfter w s (.published e :: past)

def run (w : Surroundings σ) (p : Session ε α) (s : σ) : Outcome ε σ α := p.runAfter w s []

/-- The records that a session can leave, with the value it then ends in. -/
inductive Generates : Session ε α → List (Step ε) → α → Prop where
  | done {a : α} : Generates (done a) [] a
  | exchange {i : Interface} {c : Command} {next : Except Error Response → Session ε α}
      {r : Except Error Response} {steps : List (Step ε)} {a : α} :
      Generates (next r) steps a → Generates (exchange i c next) (.exchanged i c r :: steps) a
  | post {url body : String} {next : Except Error Bytes → Session ε α}
      {r : Except Error Bytes} {steps : List (Step ε)} {a : α} :
      Generates (next r) steps a → Generates (post url body next) (.posted url body r :: steps) a
  | publish {e : ε} {next : Session ε α} {steps : List (Step ε)} {a : α} :
      Generates next steps a → Generates (publish e next) (.published e :: steps) a

theorem runAfter_steps (w : Surroundings σ) (p : Session ε α) (s : σ) (past : List (Step ε)) :
    p.runAfter w s past =
      { p.run w s with steps := past.reverse ++ (p.run w s).steps } := by
  induction p generalizing s past with
  | done a => simp [runAfter, run]
  | exchange i c next ih =>
    simp only [runAfter, run]
    rw [ih, ih _ _ [_]]
    simp
  | post url body next ih =>
    simp only [runAfter, run]
    rw [ih, ih _ _ [_]]
    simp
  | publish e next ih =>
    simp only [runAfter, run]
    rw [ih, ih _ [_]]
    simp

/-- A run leaves a record that the session can leave. -/
theorem generates_run (w : Surroundings σ) (p : Session ε α) (s : σ) :
    Generates p (p.run w s).steps (p.run w s).value := by
  induction p generalizing s with
  | done a => exact .done
  | exchange i c next ih =>
    simp only [run, runAfter]
    rw [runAfter_steps]
    exact .exchange (ih _ _)
  | post url body next ih =>
    simp only [run, runAfter]
    rw [runAfter_steps]
    exact .post (ih _ _)
  | publish e next ih =>
    simp only [run, runAfter]
    rw [runAfter_steps]
    exact .publish (ih _)

end Session

-- ---------------------------------------------------------------------------
-- Views of a record
-- ---------------------------------------------------------------------------

namespace Step

def command? : Step ε → Option (Interface × Command)
  | exchanged i c _ => some (i, c)
  | _ => none

def posted? : Step ε → Option (String × String)
  | posted url body _ => some (url, body)
  | _ => none

def event? : Step ε → Option ε
  | published e => some e
  | _ => none

end Step

/-- The commands of a record, in order. -/
def commandsOf (steps : List (Step ε)) : List (Interface × Command) := steps.filterMap Step.command?

def postsOf (steps : List (Step ε)) : List (String × String) := steps.filterMap Step.posted?

def eventsOf (steps : List (Step ε)) : List ε := steps.filterMap Step.event?

end KeyInjection
