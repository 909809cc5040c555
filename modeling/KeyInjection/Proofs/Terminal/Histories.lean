-- SUMMARY: Commands that come one after the other to a terminal whose faults may change in between.
import KeyInjection.Proofs.Terminal.Handling
import Mathlib.Data.List.Induction

/-!
# Histories

The faults of a terminal can be changed at any time, so each command comes with the faults that the
terminal has by then: a `Call`. What was called for and what was answered is the `history` of the
terminal, all that is seen of it from outside. What is said of a terminal after any calls is shown
by what one call does (`handleCall_cases`), and what has come about over some calls has come about
at one of them (`exists_becomes`).
-/

namespace KeyInjection

/-- A command on an interface, and the faults that the terminal has when it comes. -/
structure Call where
  faults : Faults
  interface : Interface
  command : Command
  deriving DecidableEq, Repr

/-- A call, and the answer unless there was none. -/
structure Called extends Call where
  answer : Option Response
  deriving DecidableEq, Repr

namespace Called

/-- The request that was executed, if one was. -/
def executed? (x : Called) : Option Request :=
  x.answer.bind fun _ => (Terminal.readCommand x.command).toOption

/-- Whether the answer is one of success. -/
def isGranted (x : Called) : Bool := x.answer.any (·.status.isSuccess)

end Called

namespace Terminal

variable {t : Terminal} {calls : List Call}

def withFaults (t : Terminal) (faults : Faults) : Terminal := { t with faults }

/-- Handles the command of a call, with the faults of the call. -/
def handleCall (t : Terminal) (x : Call) : Option Response × Terminal :=
  (t.withFaults x.faults).handle x.interface x.command

/-- A call as it is seen from outside. -/
def called (t : Terminal) (x : Call) : Called := { x with answer := (t.handleCall x).1 }

/-- The terminal after calls that came one after the other. -/
def handleCalls (t : Terminal) (calls : List Call) : Terminal :=
  calls.foldl (fun t x => (t.handleCall x).2) t

def history (t : Terminal) : List Call → List Called
  | [] => []
  | x :: rest => t.called x :: (t.handleCall x).2.history rest

@[simp] theorem handleCalls_nil : t.handleCalls [] = t := rfl

@[simp] theorem handleCalls_concat (calls : List Call) (x : Call) :
    t.handleCalls (calls ++ [x]) = ((t.handleCalls calls).handleCall x).2 := by
  simp [handleCalls]

@[simp] theorem history_nil : t.history [] = [] := rfl

@[simp] theorem history_concat (calls : List Call) (x : Call) :
    t.history (calls ++ [x]) = t.history calls ++ [(t.handleCalls calls).called x] := by
  induction calls generalizing t with
  | nil => rfl
  | cons y rest ih =>
    rw [List.cons_append, history, ih]
    rfl

/-- A call is ignored, or its command obeyed and logged. -/
theorem handleCall_cases (t : Terminal) (x : Call) :
    t.handleCall x = (none, t.withFaults x.faults) ∨
      ∃ answer after log, Obeyed (t.withFaults x.faults) x.interface x.command answer after ∧
        t.handleCall x = (some answer, { after with commands := log }) := by
  obtain hignored | ⟨answer, after, hobeyed, hhandled⟩ :=
    handle_cases (t.withFaults x.faults) x.interface x.command
  · exact .inl hignored
  · exact .inr ⟨answer, after, _, hobeyed, hhandled⟩

/-- A request that is answered has one of its outcomes. -/
theorem outcome_handleCall {x : Call} {r : Request} (hread : readCommand x.command = .ok r)
    {answer : Response} (hanswer : (t.handleCall x).1 = some answer) :
    ∃ after log, Outcome (t.withFaults x.faults) x.interface r answer after ∧
      t.handleCall x = (some answer, { after with commands := log }) := by
  obtain hignored | ⟨answer', after, log, hobeyed, hhandled⟩ := handleCall_cases t x
  · rw [hignored] at hanswer
    cases hanswer
  rw [hhandled] at hanswer
  obtain rfl : answer' = answer := Option.some.inj hanswer
  cases hobeyed with
  | unread hunread =>
    rw [hread] at hunread
    cases hunread
  | executed hexecuted houtcome =>
    obtain rfl : r = _ := Except.ok.inj (hread.symm.trans hexecuted)
    exact ⟨after, log, houtcome, hhandled⟩

/-- A call at which no request is executed leaves files and selections as they are; else it has one
of the outcomes of the request. -/
theorem called_cases (t : Terminal) (x : Call) :
    ((t.called x).executed? = none ∧ (t.handleCall x).2.files = t.files ∧
        (t.handleCall x).2.selected = t.selected) ∨
      ∃ r answer after log, readCommand x.command = .ok r ∧ (t.called x).executed? = some r ∧
        Outcome (t.withFaults x.faults) x.interface r answer after ∧
        t.handleCall x = (some answer, { after with commands := log }) := by
  obtain hignored | ⟨answer, after, log, hobeyed, hhandled⟩ := handleCall_cases t x
  · refine .inl ⟨?_, congrArg (·.2.files) hignored, congrArg (·.2.selected) hignored⟩
    simp [Called.executed?, called, hignored]
  · cases hobeyed with
    | unread hread =>
      refine .inl ⟨?_, congrArg (·.2.files) hhandled, congrArg (·.2.selected) hhandled⟩
      simp [Called.executed?, called, hread, Except.toOption]
    | executed hread houtcome =>
      refine .inr ⟨_, answer, after, log, hread, ?_, houtcome, hhandled⟩
      simp [Called.executed?, called, hhandled, hread, Except.toOption]

/-- What was not the case at first and is in the end has become so at one of the calls. -/
theorem exists_becomes {P : Terminal → Prop} (hfirst : ¬ P t) (hlast : P (t.handleCalls calls)) :
    ∃ before x after, calls = before ++ x :: after ∧ ¬ P (t.handleCalls before) ∧
      P ((t.handleCalls before).handleCall x).2 := by
  induction calls using List.reverseRecOn with
  | nil => exact absurd hlast hfirst
  | append_singleton calls x ih =>
    by_cases hearlier : P (t.handleCalls calls)
    · obtain ⟨before, y, after, rfl, hbefore, hafter⟩ := ih hearlier
      exact ⟨before, y, after ++ [x], by simp, hbefore, hafter⟩
    · rw [handleCalls_concat] at hlast
      exact ⟨calls, x, [], rfl, hearlier, hlast⟩

/-- What every call preserves, any calls preserve. -/
theorem handleCalls_preserves {P : Terminal → Prop} (hstart : P t)
    (hstep : ∀ t x, x ∈ calls → P t → P (t.handleCall x).2) : P (t.handleCalls calls) := by
  induction calls using List.reverseRecOn with
  | nil => exact hstart
  | append_singleton calls x ih =>
    rw [handleCalls_concat]
    exact hstep _ x (by simp) (ih fun t y hy => hstep t y (by simp [hy]))

end Terminal

end KeyInjection
