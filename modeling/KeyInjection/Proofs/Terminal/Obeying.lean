-- SUMMARY: A terminal that never stops responding obeys every command, whatever is in its log.
import KeyInjection.Proofs.Terminal.Handling

/-!
# Terminals that never stop responding

The log of a terminal, and how many commands it handles, have no influence on what it answers while
it does; and a terminal without a limit never stops responding. So a session with such a terminal
goes as if it were with the bare functions that say what a command answers and does
(`run_handling`), and with one without faults also over a channel in the same process
(`run_inProcess`).
-/

namespace KeyInjection

variable {ε η : Type}

namespace Terminal

def withLog (t : Terminal) (log : Array CommandRecord) : Terminal := { t with commands := log }

/-- The terminal with another log, and told to stop responding after other many commands. -/
def withLogAndLimit (t : Terminal) (log : Array CommandRecord) (limit : Option Nat) : Terminal :=
  { t with commands := log, faults := { t.faults with dropResponsesAfter := limit } }

/-- The terminal with another content of all that at most prompts look at: what was shown and what
cannot be, the log and the limit. -/
def withAside (t : Terminal) (display : Array String) (failDisplay : Option String)
    (log : Array CommandRecord) (limit : Option Nat) : Terminal :=
  { t with
    display
    commands := log
    faults := { t.faults with failDisplay, dropResponsesAfter := limit } }

theorem withLogAndLimit_eq (t : Terminal) (log : Array CommandRecord) (limit : Option Nat) :
    t.withLogAndLimit log limit = t.withAside t.display t.faults.failDisplay log limit := rfl

/-! ## What has no influence on what is executed -/

section Aside

variable (t : Terminal) (display : Array String) (failDisplay : Option String)
variable (log : Array CommandRecord) (limit : Option Nat) (i : Interface)

theorem secureInit_withAside :
    (t.withAside display failDisplay log limit).secureInit =
      (t.secureInit.1, t.secureInit.2.withAside display failDisplay log limit) := by
  have hfail :
      (t.withAside display failDisplay log limit).faults.failInit = t.faults.failInit := rfl
  have happlied : (t.withAside display failDisplay log limit).faults.initNotApplied =
      t.faults.initNotApplied := rfl
  unfold secureInit
  rw [hfail, happlied]
  split
  · rfl
  · split <;> rfl

theorem keyImport_withAside :
    (t.withAside display failDisplay log limit).keyImport =
      (t.keyImport.1, t.keyImport.2.withAside display failDisplay log limit) := by
  have hcode :
      (t.withAside display failDisplay log limit).faults.importError = t.faults.importError := rfl
  have hready : ((t.withAside display failDisplay log limit).secure.initialised &&
      (t.withAside display failDisplay log limit).hasKeyFiles) =
        (t.secure.initialised && t.hasKeyFiles) := rfl
  unfold keyImport
  rw [hcode, hready]
  split
  · rfl
  · split <;> rfl

theorem select_withAside (r : SelectRequest) :
    (t.withAside display failDisplay log limit).select i r =
      ((t.select i r).1, (t.select i r).2.withAside display failDisplay log limit) := by
  have hfaults : ((t.withAside display failDisplay log limit).deselect i).faults.failSelect =
      (t.deselect i).faults.failSelect := rfl
  have hfiles : ((t.withAside display failDisplay log limit).deselect i).files =
      (t.deselect i).files := rfl
  unfold select
  dsimp only
  rw [hfaults, hfiles]
  split
  · rfl
  · cases r.mode with
    | truncate => rfl
    | read => cases (t.deselect i).files.get? r.name <;> rfl

theorem write_withAside (r : WriteRequest) :
    (t.withAside display failDisplay log limit).write i r =
      ((t.write i r).1, (t.write i r).2.withAside display failDisplay log limit) := by
  have hfaults :
      (t.withAside display failDisplay log limit).faults.failWrite = t.faults.failWrite := rfl
  have hfiles : (t.withAside display failDisplay log limit).files = t.files := rfl
  have hselected : (t.withAside display failDisplay log limit).selected = t.selected := rfl
  unfold write
  rw [hselected]
  cases t.selected.get i with
  | none => rfl
  | some name =>
    dsimp only
    rw [hfaults, hfiles]
    split
    · rfl
    · cases t.files.get? name with
      | none => rfl
      | some content =>
        dsimp only
        split <;> rfl

/-- Prompts aside, what a request answers and does is the same whatever was shown and can be. -/
theorem execute_withAside {r : Request} (hquiet : r.instruction ≠ .display) :
    (t.withAside display failDisplay log limit).execute i r =
      ((t.execute i r).1, (t.execute i r).2.withAside display failDisplay log limit) := by
  cases r with
  | display r => exact absurd rfl hquiet
  | secureInit => exact secureInit_withAside t display failDisplay log limit
  | secureState => rfl
  | keyImport =>
    unfold execute
    rw [keyImport_withAside]
  | fileSelect r => exact select_withAside t display failDisplay log limit i r
  | fileRead r => rfl
  | fileWrite r => exact write_withAside t display failDisplay log limit i r

end Aside

section Obey

variable (t : Terminal) (log : Array CommandRecord) (limit : Option Nat) (i : Interface)

theorem prompt_withLogAndLimit (text : String) :
    (t.withLogAndLimit log limit).prompt text =
      ((t.prompt text).1, (t.prompt text).2.withLogAndLimit log limit) := by
  have hcannot : (t.withLogAndLimit log limit).cannotShow text = t.cannotShow text := rfl
  unfold prompt
  rw [hcannot]
  split <;> rfl

theorem execute_withLogAndLimit (r : Request) :
    (t.withLogAndLimit log limit).execute i r =
      ((t.execute i r).1, (t.execute i r).2.withLogAndLimit log limit) := by
  by_cases hquiet : r.instruction = .display
  · cases r with
    | display r => exact prompt_withLogAndLimit t log limit r.text
    | _ => cases hquiet
  · have hkept := execute_withAside t t.display t.faults.failDisplay t.commands
      t.faults.dropResponsesAfter i hquiet
    have hdisplay : (t.execute i r).2.display = t.display := congrArg (·.2.display) hkept
    have hfail : (t.execute i r).2.faults.failDisplay = t.faults.failDisplay :=
      congrArg (·.2.faults.failDisplay) hkept
    rw [withLogAndLimit_eq, withLogAndLimit_eq, hdisplay, hfail]
    exact execute_withAside t t.display t.faults.failDisplay log limit i hquiet

/-- What a command answers and does is the same whatever the log and the limit. -/
theorem obey_withLogAndLimit (c : Command) :
    (t.withLogAndLimit log limit).obey i c =
      ((t.obey i c).1, (t.obey i c).2.withLogAndLimit log limit) := by
  unfold obey
  cases readCommand c with
  | ok r => exact execute_withLogAndLimit t log limit i r
  | error s => rfl

/-- Obeying leaves the log as it is. -/
theorem obey_commands (c : Command) : (t.obey i c).2.commands = t.commands :=
  (obeyed_obey t i c).commands_eq

theorem obey_faults (c : Command) : (t.obey i c).2.faults = t.faults :=
  (obeyed_obey t i c).faults_eq

/-- Handling a command leaves the faults as they are. -/
@[simp] theorem handle_faults (c : Command) :
    (t.handle i c).2.faults = t.faults := by
  cases hsilent : t.isSilent with
  | true => rw [handle_of_isSilent hsilent]
  | false =>
    rw [handle_of_responds hsilent]
    exact obey_faults t i c

@[simp] theorem handleAll_faults (t : Terminal) (commands : List (Interface × Command)) :
    (t.handleAll commands).faults = t.faults := by
  induction commands generalizing t with
  | nil => rfl
  | cons x rest ih => rw [handleAll_cons, ih, handle_faults]

/-- What a command answers and does is the same whatever the log. -/
theorem obey_withLog (c : Command) :
    (t.withLog log).obey i c = ((t.obey i c).1, (t.obey i c).2.withLog log) := by
  have hlimit : (t.obey i c).2.withLogAndLimit log t.faults.dropResponsesAfter =
      (t.obey i c).2.withLog log := by
    rw [← obey_faults t i c]
    rfl
  rw [← hlimit]
  exact obey_withLogAndLimit t log t.faults.dropResponsesAfter i c

/-- A terminal without a limit handles every command: it answers, obeys and logs it. -/
theorem handle_withLog (hunlimited : t.faults.dropResponsesAfter = none) (c : Command) :
    ∃ log', (t.withLog log).handle i c = (some (t.obey i c).1, (t.obey i c).2.withLog log') := by
  have hunlimited : (t.withLog log).faults.dropResponsesAfter = none := hunlimited
  refine ⟨log.push ((t.withLog log).recordOf i c), ?_⟩
  rw [handle_of_responds (isSilent_of_unlimited hunlimited), obey_withLog]
  rfl

end Obey

end Terminal

/-! ## Sessions over a channel in the same process -/

/-- A terminal that obeys, and a key host. -/
def Surroundings.obeying (h : KeyHost η) : Surroundings (Terminal × η) where
  exchange i c s := (.ok (s.1.obey i c).1, ((s.1.obey i c).2, s.2))
  post url body s := let (r, k) := h.post url body s.2; (r, (s.1, k))

/-- A session with a terminal without a limit goes as with one that obeys. -/
theorem Session.run_handling (p : Session ε α) (h : KeyHost η) {t t' : Terminal}
    (hunlimited : t'.faults.dropResponsesAfter = none) (hlog : ∃ log, t = t'.withLog log) (k : η) :
    let out := p.run (.handling h) (t, k)
    let direct := p.run (.obeying h) (t', k)
    out.value = direct.value ∧ out.steps = direct.steps ∧
      (direct.state.1.faults = t'.faults ∧ ∃ log, out.state.1 = direct.state.1.withLog log) ∧
      out.state.2 = direct.state.2 := by
  refine run_simulates (w := .handling h) (v := .obeying h)
    (R := fun s u => (u.1.faults = t'.faults ∧ ∃ log, s.1 = u.1.withLog log) ∧ s.2 = u.2)
    ?_ ?_ p (s := (t, k)) (t := (t', k)) ⟨⟨rfl, hlog⟩, rfl⟩
  · intro i c s u hrel
    obtain ⟨⟨hfaults, log, hterminal⟩, hhost⟩ := hrel
    obtain ⟨log', hhandle⟩ := u.1.handle_withLog log i (by rw [hfaults, hunlimited]) c
    rw [← hterminal] at hhandle
    refine ⟨?_, ⟨(u.1.obey_faults i c).trans hfaults, log', ?_⟩, hhost⟩
    · exact congrArg (fun x => ofReceived (.ok x.1)) hhandle
    · exact congrArg Prod.snd hhandle
  · rintro url body ⟨t, k⟩ ⟨t', k'⟩ ⟨hterminal, rfl⟩
    exact ⟨rfl, hterminal, rfl⟩

/-- The terminal behind the link is the given one but for its log. -/
def TerminalLink.IsTo (l : TerminalLink) (t : Terminal) : Prop :=
  l.closed = false ∧ t.faults = .none ∧ ∃ log, l.terminal = t.withLog log

/-- A session with a terminal without faults, over a channel in the same process, goes as with one
that obeys. -/
theorem Session.run_inProcess (p : Session ε α) (h : KeyHost η) {l : TerminalLink} {t : Terminal}
    (hl : l.IsTo t) (k : η) :
    let out := p.run (.of .inProcess h) (l, k)
    let direct := p.run (.obeying h) (t, k)
    out.value = direct.value ∧ out.steps = direct.steps ∧ out.state.1.IsTo direct.state.1 ∧
      out.state.2 = direct.state.2 := by
  obtain ⟨hopen, hfaults, hlog⟩ := hl
  obtain ⟨hvalue, hsteps, ⟨hstill, hleft⟩, hhost⟩ := run_inProcess_handling p h hopen k
  have hunlimited : t.faults.dropResponsesAfter = none := by rw [hfaults]; rfl
  obtain ⟨hvalue', hsteps', ⟨hfaults', hlog'⟩, hhost'⟩ := run_handling p h hunlimited hlog k
  rw [← hleft] at hlog'
  exact ⟨hvalue.trans hvalue', hsteps.trans hsteps', ⟨hstill, hfaults'.trans hfaults, hlog'⟩,
    hhost.trans hhost'⟩

end KeyInjection
