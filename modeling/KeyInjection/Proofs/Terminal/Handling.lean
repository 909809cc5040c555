-- SUMMARY: Commands handled one after the other, and sessions with a terminal in the same process.
import KeyInjection.KeyHost.Client
import KeyInjection.Proofs.Channel.Exchange
import KeyInjection.Proofs.Session.Runs
import KeyInjection.Proofs.Terminal.Outcomes
import KeyInjection.Terminal.Link

/-!
# Handling commands

A channel in the same process adds nothing to what the terminal does: an exchange over it is one
command handled (`run_inProcess_handling`). So a session leaves the terminal in the state it comes
to by handling the commands of the record one after the other (`terminal_of_run_handling`),
whatever its faults.
-/

namespace KeyInjection

variable {ε η : Type}

namespace Terminal

variable {t : Terminal}

/-- The terminal after commands that it was handed one after the other. -/
def handleAll (t : Terminal) (commands : List (Interface × Command)) : Terminal :=
  commands.foldl (fun t x => (t.handle x.1 x.2).2) t

@[simp] theorem handleAll_nil : t.handleAll [] = t := rfl

@[simp] theorem handleAll_cons (x : Interface × Command) (rest : List (Interface × Command)) :
    t.handleAll (x :: rest) = (t.handle x.1 x.2).2.handleAll rest := rfl

@[simp] theorem handleAll_append (first second : List (Interface × Command)) :
    t.handleAll (first ++ second) = (t.handleAll first).handleAll second := List.foldl_append

/-- A terminal that has stopped responding ignores commands. -/
theorem handle_of_isSilent (hsilent : t.isSilent = true) (i : Interface) (c : Command) :
    t.handle i c = (none, t) := if_pos hsilent

theorem handleAll_of_isSilent (hsilent : t.isSilent = true)
    (commands : List (Interface × Command)) : t.handleAll commands = t := by
  induction commands with
  | nil => rfl
  | cons x rest ih => rw [handleAll_cons, handle_of_isSilent hsilent, ih]

/-- Any other terminal answers, obeys, and logs the command. -/
theorem handle_of_responds (hresponds : t.isSilent = false) (i : Interface) (c : Command) :
    t.handle i c =
      (some (t.obey i c).1, { (t.obey i c).2 with
        commands := (t.obey i c).2.commands.push (t.recordOf i c) }) := by
  rw [handle, hresponds]
  rfl

/-- A command is ignored, or obeyed and logged. -/
theorem handle_cases (t : Terminal) (i : Interface) (c : Command) :
    t.handle i c = (none, t) ∨
      ∃ answer after, Obeyed t i c answer after ∧
        t.handle i c =
          (some answer, { after with commands := t.commands.push (t.recordOf i c) }) := by
  cases hsilent : t.isSilent with
  | true => exact .inl (handle_of_isSilent hsilent i c)
  | false =>
    have hobeyed := obeyed_obey t i c
    refine .inr ⟨_, _, hobeyed, ?_⟩
    rw [handle_of_responds hsilent, hobeyed.commands_eq]

theorem isSilent_of_unlimited (hunlimited : t.faults.dropResponsesAfter = none) :
    t.isSilent = false := by
  rw [isSilent, hunlimited]

end Terminal

/-! ## Sessions over a channel in the same process -/

/-- A terminal that handles commands, and a key host. -/
def Surroundings.handling (h : KeyHost η) : Surroundings (Terminal × η) where
  exchange i c s := (ofReceived (.ok (s.1.handle i c).1), ((s.1.handle i c).2, s.2))
  post url body s := let (r, k) := h.post url body s.2; (r, (s.1, k))

/-- Over an open channel an exchange is one command handled. -/
theorem TerminalLink.exchange_handling {l : TerminalLink} (hopen : l.closed = false)
    (i : Interface) (c : Command) :
    (Channel.inProcess.exchange i c l).1 = ofReceived (.ok (l.terminal.handle i c).1) ∧
      (Channel.inProcess.exchange i c l).2.terminal = (l.terminal.handle i c).2 ∧
      (Channel.inProcess.exchange i c l).2.closed = false := by
  let sent : TerminalLink :=
    { l with
      terminal := (l.terminal.handle i c).2
      pending := l.pending.set i (some (l.terminal.handle i c).1) }
  have hsend : Channel.inProcess.send i c l = (.ok (), sent) := by
    show l.send i c = _
    rw [send, if_neg (by simp [hopen])]
  have hreceive : Channel.inProcess.receive i sent =
      (.ok (l.terminal.handle i c).1, { sent with pending := sent.pending.set i none }) := by
    show sent.receive i = _
    have hpending : sent.pending.get i = some (l.terminal.handle i c).1 := by simp [sent]
    rw [receive, if_neg (by simp [sent, hopen]), hpending]
  rw [Channel.exchange_of_send_ok hsend, hreceive]
  exact ⟨rfl, rfl, hopen⟩

namespace Session

theorem run_handling_exchange (h : KeyHost η) (i : Interface) (c : Command)
    (next : Except Error Response → Session ε α) (t : Terminal) (k : η) :
    (exchange i c next).run (.handling h) (t, k) =
      let answer := ofReceived (.ok (t.handle i c).1)
      let out := (next answer).run (.handling h) ((t.handle i c).2, k)
      { out with steps := .exchanged i c answer :: out.steps } :=
  run_exchange ..

theorem run_handling_post (h : KeyHost η) (url body : String)
    (next : Except Error Bytes → Session ε α) (t : Terminal) (k : η) :
    (post url body next).run (.handling h) (t, k) =
      let answer := h.post url body k
      let out := (next answer.1).run (.handling h) (t, answer.2)
      { out with steps := .posted url body answer.1 :: out.steps } :=
  run_post ..

/-- A session over an open channel in the same process goes as with the terminal itself. -/
theorem run_inProcess_handling (p : Session ε α) (h : KeyHost η) {l : TerminalLink}
    (hopen : l.closed = false) (k : η) :
    let out := p.run (.of .inProcess h) (l, k)
    let direct := p.run (.handling h) (l.terminal, k)
    out.value = direct.value ∧ out.steps = direct.steps ∧
      (out.state.1.closed = false ∧ out.state.1.terminal = direct.state.1) ∧
      out.state.2 = direct.state.2 := by
  refine run_simulates (w := .of .inProcess h) (v := .handling h)
    (R := fun s u => (s.1.closed = false ∧ s.1.terminal = u.1) ∧ s.2 = u.2)
    ?_ ?_ p ⟨⟨hopen, rfl⟩, rfl⟩
  · rintro i c ⟨l, k⟩ ⟨t, k'⟩ ⟨⟨hopen, rfl⟩, rfl⟩
    obtain ⟨hanswer, hterminal, hopen⟩ := TerminalLink.exchange_handling hopen i c
    exact ⟨hanswer, ⟨hopen, hterminal⟩, rfl⟩
  · rintro url body ⟨l, k⟩ ⟨t, k'⟩ ⟨hlink, rfl⟩
    exact ⟨rfl, hlink, rfl⟩

/-- A session leaves the terminal as the commands of the record make it. -/
theorem terminal_of_run_handling (p : Session ε α) (h : KeyHost η) (t : Terminal) (k : η) :
    let out := p.run (.handling h) (t, k)
    out.state.1 = t.handleAll (commandsOf out.steps) := by
  induction p generalizing t k with
  | done a => rfl
  | exchange i c next ih =>
    rw [run_exchange]
    exact ih _ _ _
  | post url body next ih =>
    rw [run_post]
    exact ih _ _ _
  | publish e next ih =>
    rw [run_publish]
    exact ih _ _

theorem terminal_of_run_inProcess (p : Session ε α) (h : KeyHost η) {l : TerminalLink}
    (hopen : l.closed = false) (k : η) :
    let out := p.run (.of .inProcess h) (l, k)
    out.state.1.terminal = l.terminal.handleAll (commandsOf out.steps) := by
  obtain ⟨-, hsteps, ⟨-, hterminal⟩, -⟩ := run_inProcess_handling p h hopen k
  dsimp only
  rw [hterminal, hsteps]
  exact terminal_of_run_handling p h l.terminal k

end Session

end KeyInjection
