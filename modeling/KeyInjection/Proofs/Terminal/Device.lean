-- SUMMARY: What device commands do to a terminal that obeys.
import KeyInjection.Proofs.Apdu.RoundTrip
import KeyInjection.Proofs.Session.Gives
import KeyInjection.Proofs.Terminal.Obeying

/-!
# Device commands to a terminal

What a client gets from a device command is what the terminal makes of the request, as both encode
and decode alike. Where an attempt leads with a terminal that obeys, it leads with one that handles
commands and does not stop responding (`Gives.run_handling`, `Gives.run_inProcess`).
-/

namespace KeyInjection.Gives

variable {ε φ η : Type} {h : KeyHost η} {t : Terminal} {k k' : η} {i : Interface}
variable {a : Attempt ε φ α} {rs : List Request} {r : Except φ α}

/-! ## Terminals that handle commands -/

/-- With a terminal without a limit the attempt leads to the same, but for the log. -/
theorem run_handling {s : Terminal} (hgives : Gives (.obeying h) i (t, k) a rs r (s, k'))
    (hunlimited : t.faults.dropResponsesAfter = none) :
    let out := a.run.run (.handling h) (t, k)
    out.value = r ∧ commandsOf out.steps = submissions i rs ∧
      ∃ log, out.state.1 = s.withLog log := by
  obtain ⟨hvalue, hsteps, ⟨-, log, hlog⟩, -⟩ :=
    Session.run_handling a.run h hunlimited ⟨t.commands, rfl⟩ k
  rw [hgives.state_eq] at hlog
  exact ⟨hvalue.trans hgives.value_eq, (congrArg commandsOf hsteps).trans hgives.commands_eq,
    log, hlog⟩

/-- So it does over a channel in the same process. -/
theorem run_inProcess {l : TerminalLink} {s : Terminal}
    (hgives : Gives (.obeying h) i (l.terminal, k) a rs r (s, k')) (hopen : l.closed = false)
    (hunlimited : l.terminal.faults.dropResponsesAfter = none) :
    let out := a.run.run (.of .inProcess h) (l, k)
    out.value = r ∧ commandsOf out.steps = submissions i rs ∧
      ∃ log, out.state.1.terminal = s.withLog log := by
  obtain ⟨hvalue, hsteps, ⟨-, hleft⟩, -⟩ := Session.run_inProcess_handling a.run h hopen k
  obtain ⟨hvalue', hsent, log, hlog⟩ := hgives.run_handling hunlimited
  exact ⟨hvalue.trans hvalue', (congrArg commandsOf hsteps).trans hsent, log, hleft.trans hlog⟩

/-- Its commands alone make the same of the terminal. -/
theorem handleAll {s : Terminal} (hgives : Gives (.obeying h) i (t, k) a rs r (s, k'))
    (hunlimited : t.faults.dropResponsesAfter = none) :
    ∃ log, t.handleAll (submissions i rs) = s.withLog log := by
  obtain ⟨-, hsent, log, hlog⟩ := hgives.run_handling hunlimited
  have hleft := Session.terminal_of_run_handling a.run h t k
  dsimp only at hleft
  rw [hsent, hlog] at hleft
  exact ⟨log, hleft.symm⟩

end KeyInjection.Gives

namespace KeyInjection

/-- No faults but that these files cannot be written; without names there are none. -/
def Faults.unwritable (names : List String) : Faults := { failWrite := names }

end KeyInjection

namespace KeyInjection.Device

variable {ε η : Type} {h : KeyHost η} {t : Terminal} {k : η} {i : Interface}
variable {unwritable : List String}

theorem gives_exchange {r : Request} {c : Command} (hcode : r.command = .ok c) :
    Gives (.obeying h) i (t, k) (exchange i r : Attempt ε Error Response) [r]
      (.ok (t.execute i r).1) ((t.execute i r).2, k) := by
  have hobey : t.obey i c = t.execute i r := by
    rw [Terminal.obey, Terminal.readCommand_command hcode]
  rw [← hobey]
  exact .exchange hcode

theorem gives_check {answer : Response} (hstatus : answer.status.isSuccess = true) :
    Gives (.obeying h) i (t, k) (check answer : Attempt ε Error Unit) [] (.ok ()) (t, k) := by
  rw [check, if_pos hstatus]
  exact .pure ()

theorem gives_readBody {decode : Bytes → Except CodecError (α × Nat)} {answer : Response} {v : α}
    {n : Nat} (hbody : decode answer.body = .ok (v, n)) :
    Gives (.obeying h) i (t, k) (readBody decode answer : Attempt ε Error α) [] (.ok v) (t, k) := by
  rw [readBody, hbody]
  exact .pure v

theorem gives_command {r : Request} {c : Command} (hcode : r.command = .ok c)
    (hstatus : (t.execute i r).1.status.isSuccess = true) :
    Gives (.obeying h) i (t, k) (command i r : Attempt ε Error Unit) [r] (.ok ())
      ((t.execute i r).2, k) :=
  (gives_exchange hcode).bind (gives_check hstatus)

theorem gives_request {r : Request} {c : Command} {decode : Bytes → Except CodecError (α × Nat)}
    {v : α} {n : Nat} (hcode : r.command = .ok c)
    (hstatus : (t.execute i r).1.status.isSuccess = true)
    (hbody : decode (t.execute i r).1.body = .ok (v, n)) :
    Gives (.obeying h) i (t, k) (request i r decode : Attempt ε Error α) [r] (.ok v)
      ((t.execute i r).2, k) :=
  (gives_exchange hcode).bind ((gives_check hstatus).bind (gives_readBody hbody))

/-! ## Without faults but for files -/

/-- A prompt that is not too long is shown. -/
theorem gives_display (hfaults : t.faults = .unwritable unwritable) {text : String}
    (hlength : (textBytes text).length ≤ DisplayRequest.maxText) :
    Gives (.obeying h) i (t, k) (display i text : Attempt ε Error Unit) [.display (.prompt text)]
      (.ok ()) ({ t with display := t.display.push text }, k) := by
  obtain ⟨c, hcode⟩ := exists_command_prompt_iff.2 hlength
  have hshown : t.execute i (.display (.prompt text)) =
      (Terminal.bare .success, { t with display := t.display.push text }) := by
    show t.prompt text = _
    have hcan : t.cannotShow text = false := by
      rw [Terminal.cannotShow, hfaults]
      rfl
    rw [Terminal.prompt, hcan]
    rfl
  have hcommand := gives_command (ε := ε) (h := h) (t := t) (k := k) (i := i) hcode
    (by rw [hshown]; rfl)
  rwa [hshown] at hcommand

/-- Key injection mode is started, and earlier keys are gone. -/
theorem gives_secureInit (hfaults : t.faults = .unwritable unwritable) :
    Gives (.obeying h) i (t, k) (secureInit i : Attempt ε Error Unit) [.secureInit] (.ok ())
      ({ t with secure := ⟨true, false, false⟩ }, k) := by
  have hstarted : t.execute i .secureInit =
      (Terminal.bare .success, { t with secure := ⟨true, false, false⟩ }) := by
    show t.secureInit = _
    rw [Terminal.secureInit, hfaults]
    rfl
  have hcommand : Gives (.obeying h) i (t, k) (secureInit i : Attempt ε Error Unit) [.secureInit]
      (.ok ()) ((t.execute i .secureInit).2, k) :=
    gives_command rfl (by rw [hstarted]; rfl)
  rwa [hstarted] at hcommand

/-- The state is told as it is. -/
theorem gives_secureState :
    Gives (.obeying h) i (t, k) (secureState i : Attempt ε Error SecureState) [.secureState]
      (.ok t.secure) (t, k) :=
  gives_request rfl rfl (SecureState.decode_bytes t.secure)

/-- In key injection mode, and with all key files there, an import puts both keys in place. -/
theorem gives_keyImport (hfaults : t.faults = .none) (hmode : t.secure.initialised = true)
    (hfiles : t.hasKeyFiles = true) :
    Gives (.obeying h) i (t, k) (keyImport i : Attempt ε Error Unit) [.keyImport] (.ok ())
      ({ t with secure := .provisioned }, k) := by
  have himported : t.imported = .provisioned := by
    simp [Terminal.imported, hfaults, Faults.none, SecureState.provisioned]
  have hdone : t.execute i .keyImport =
      (Terminal.answering .success (.imported ⟨0⟩), { t with secure := .provisioned }) := by
    have hcode : t.keyImport = (ImportReply.noError, { t with secure := .provisioned }) := by
      rw [Terminal.keyImport, hfaults, hmode, hfiles, himported]
      rfl
    rw [Terminal.execute, hcode]
    rfl
  have hrequest : Gives (.obeying h) i (t, k)
      (request i .keyImport ImportReply.decode : Attempt ε Error ImportReply) [.keyImport]
      (.ok ⟨0⟩) ((t.execute i .keyImport).2, k) :=
    gives_request rfl (by rw [hdone]; rfl) (by rw [hdone]; exact ImportReply.decode_bytes ⟨0⟩)
  rw [hdone] at hrequest
  exact hrequest.bind (.pure ())

end KeyInjection.Device
