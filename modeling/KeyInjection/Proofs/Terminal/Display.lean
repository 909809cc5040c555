-- SUMMARY: Prompts leave no trace in a terminal but on its display and in its log.
import KeyInjection.Proofs.Apdu.RoundTrip
import KeyInjection.Proofs.Terminal.Interruption

/-!
# Prompts

What a terminal shows, and what it is kept from showing, has no influence on anything but prompts;
and a prompt, shown or not, changes nothing but the display and the log. `Terminal.unprompted`
forgets all of that: a command that shows a prompt leaves it as it is, and any other command does
the same to it as to the terminal.
-/

namespace KeyInjection

variable {ε η : Type}

namespace Terminal

variable {t t' : Terminal} {i : Interface} {c : Command} {text : String}

/-- The terminal without what prompts leave, and with nothing that keeps them from being shown. -/
def unprompted (t : Terminal) : Terminal :=
  t.withAside #[] none (t.commands.filter (·.ins ≠ Instruction.display.code))
    t.faults.dropResponsesAfter

/-! ## Other commands -/

theorem recordOf_ins : (t.recordOf i c).ins = c.header.ins := by
  unfold recordOf
  dsimp only
  split <;> rfl

/-- What any other command answers and does is the same whatever was shown and can be. -/
theorem obey_withAside (hother : c.header.ins ≠ Instruction.display.code) (display : Array String)
    (failDisplay : Option String) (log : Array CommandRecord) (limit : Option Nat) :
    (t.withAside display failDisplay log limit).obey i c =
      ((t.obey i c).1, (t.obey i c).2.withAside display failDisplay log limit) := by
  unfold obey
  cases hread : readCommand c with
  | error s => rfl
  | ok r =>
    refine execute_withAside t display failDisplay log limit i fun hdisplay => hother ?_
    rw [← code_of_readCommand hread, hdisplay]

theorem handle_unprompted (hunlimited : t.faults.dropResponsesAfter = none)
    (hother : c.header.ins ≠ Instruction.display.code) :
    t.unprompted.handle i c = ((t.handle i c).1, (t.handle i c).2.unprompted) := by
  have hunlimited' : t.unprompted.faults.dropResponsesAfter = none := hunlimited
  have hobey : t.unprompted.obey i c = _ := obey_withAside hother _ _ _ _
  have hrecord : t.unprompted.recordOf i c = t.recordOf i c := rfl
  rw [handle_of_responds (isSilent_of_unlimited hunlimited'), hobey, hrecord,
    handle_of_responds (isSilent_of_unlimited hunlimited)]
  have hlog : ((t.obey i c).2.commands.push (t.recordOf i c)).filter
      (·.ins ≠ Instruction.display.code) =
        (t.commands.filter (·.ins ≠ Instruction.display.code)).push (t.recordOf i c) := by
    rw [obey_commands]
    exact Array.filter_push_of_pos (by simpa [recordOf_ins] using hother) (Array.size_push _)
  simp only [unprompted, withAside, obey_faults]
  rw [hlog]

/-! ## Prompts -/

def showing (t : Terminal) (text : String) : Except Error Unit :=
  if DisplayRequest.maxText < (textBytes text).length then .error (.apdu .invalidLength)
  else if t.cannotShow text then .error (.status .executionError)
  else .ok ()

theorem showing_of_faults_eq (hfaults : t.faults = t'.faults) :
    t.showing text = t'.showing text := by
  rw [showing, showing, cannotShow, cannotShow, hfaults]

/-- A prompt, shown or not, changes nothing but the display. -/
theorem Obeyed.exists_display {answer : Response} {after : Terminal} (h : Obeyed t i c answer after)
    (hdisplay : c.header.ins = Instruction.display.code) :
    ∃ shown, after = { t with display := shown } := by
  cases h with
  | unread => exact ⟨t.display, rfl⟩
  | executed hread houtcome =>
    have hcode := (code_of_readCommand hread).trans hdisplay
    cases houtcome with
    | shown => exact ⟨_, rfl⟩
    | notShown => exact ⟨t.display, rfl⟩
    | _ => cases hcode

/-- A prompt leaves what is no prompt's as it is. -/
theorem unprompted_handle_of_display (hunlimited : t.faults.dropResponsesAfter = none)
    (hdisplay : c.header.ins = Instruction.display.code) :
    (t.handle i c).2.unprompted = t.unprompted := by
  obtain ⟨shown, hobey⟩ := (obeyed_obey t i c).exists_display hdisplay
  rw [handle_of_responds (isSilent_of_unlimited hunlimited), hobey]
  have hlog : (t.commands.push (t.recordOf i c)).filter (·.ins ≠ Instruction.display.code) =
      t.commands.filter (·.ins ≠ Instruction.display.code) :=
    Array.filter_push_of_neg (by simpa [recordOf_ins] using hdisplay) (Array.size_push _)
  simp only [unprompted, withAside]
  rw [hlog]

/-- The steps of a prompt: none if it is too long. -/
def displaySteps (t : Terminal) (i : Interface) (text : String) : List (Step ε) :=
  match (Request.display (.prompt text)).command with
  | .ok c => [.exchanged i c (.ok (t.prompt text).1)]
  | .error _ => []

theorem displaySteps_of_faults_eq (hfaults : t.faults = t'.faults) :
    (t.displaySteps i text : List (Step ε)) = t'.displaySteps i text := by
  have hanswer : (t.prompt text).1 = (t'.prompt text).1 := by
    have hcannot : t.cannotShow text = t'.cannotShow text := by
      rw [cannotShow, cannotShow, hfaults]
    rw [prompt, prompt, hcannot]
    split <;> rfl
  rw [displaySteps, displaySteps, hanswer]

end Terminal

/-- A terminal that responds shows the prompt or does not, and nothing else comes of it. -/
theorem Device.run_display (h : KeyHost η) {t : Terminal}
    (hunlimited : t.faults.dropResponsesAfter = none) (k : η) (i : Interface) (text : String) :
    let out := (display i text : Attempt ε Error Unit).run.run (.handling h) (t, k)
    out.value = t.showing text ∧ out.steps = t.displaySteps i text ∧
      out.state.1.unprompted = t.unprompted ∧ out.state.1.faults = t.faults ∧ out.state.2 = k := by
  by_cases hlong : DisplayRequest.maxText < (textBytes text).length
  · have hrefused : (Request.display (.prompt text)).command = .error .invalidLength := by
      have hpayload : (Request.display (.prompt text)).payload = .error .invalidLength :=
        if_pos hlong
      rw [Request.command, hpayload]
      rfl
    have hsession : (display i text : Attempt ε Error Unit).run =
        .done (.error (.apdu .invalidLength)) := by
      rw [display, command, exchange, hrefused]
      rfl
    rw [hsession, Session.run_done, Terminal.showing, if_pos hlong, Terminal.displaySteps, hrefused]
    exact ⟨rfl, rfl, rfl, rfl, rfl⟩
  · obtain ⟨c, hcode⟩ := exists_command_prompt_iff.2 (Nat.le_of_not_lt hlong)
    have hread := Terminal.readCommand_command hcode
    have hdisplay : c.header.ins = Instruction.display.code :=
      (Terminal.code_of_readCommand hread).symm
    have hanswer : ofReceived (.ok (t.handle i c).1) = .ok (t.prompt text).1 := by
      rw [Terminal.handle_of_responds (Terminal.isSilent_of_unlimited hunlimited), Terminal.obey,
        hread]
      rfl
    have hsession : (display i text : Attempt ε Error Unit).run =
        .exchange i c (ExceptT.bindCont check) := by
      rw [display, command, exchange, hcode]
      rfl
    rw [hsession, Session.run_handling_exchange, hanswer, Terminal.showing, if_neg hlong,
      Terminal.displaySteps, hcode]
    have hcheck : (ExceptT.bindCont check (.ok (t.prompt text).1) : Session ε _) =
        .done (if t.cannotShow text then .error (.status .executionError) else .ok ()) := by
      rw [Terminal.prompt]
      split <;> rfl
    dsimp only
    rw [hcheck]
    exact ⟨rfl, rfl, Terminal.unprompted_handle_of_display hunlimited hdisplay,
      Terminal.handle_faults .., rfl⟩

end KeyInjection
