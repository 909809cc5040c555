-- SUMMARY: An injection into a healthy terminal that stops responding on the way.
import KeyInjection.Proofs.Injection.Healthy
import KeyInjection.Proofs.Injection.Parts
import KeyInjection.Proofs.Terminal.Interruption

/-!
# Interrupted injections

The preparation of an injection, all of it but the last prompt, ends well only with an answer, which
shows the keys in place; so it fails if the terminal stops responding before. Once it has ended
well, the injection succeeds whatever becomes of the last prompt.
-/

namespace KeyInjection.Injection

open Device Transfer

variable {η σ : Type} {cfg : Config} {url : String}

/-! ## The last prompt and what comes before -/

/-- The commands of an injection are those of its preparation and of the rest. -/
theorem run_inject_prepare (w : Surroundings σ) (cfg : Config) (url : String) (s : σ) :
    let out := (inject cfg url).run w s
    let prepared := (prepare cfg url).run.run w s
    let rest := (conclude cfg prepared.value).run w prepared.state
    out.value = rest.value ∧ out.state = rest.state ∧
      commandsOf out.steps = commandsOf prepared.steps ++ commandsOf rest.steps := by
  rw [run_inject_eq]
  exact ⟨rfl, rfl, by simp [Step.command?]⟩

/-! ## What each leaves -/

/-- The last answer in the talk is a response. -/
def EndsAnswered (talk : List (Step Event)) : Prop :=
  ∃ earlier answer, answersOf talk = earlier ++ [.ok answer]

/-- What comes last decides. -/
theorem endsAnswered_of_leaves_bind {a : Task α} {k : α → Task β} {talk : List (Step Event)} {v : β}
    (hk : ∀ u rest, Leaves (k u) rest (.ok v) → EndsAnswered rest)
    (hleaves : Leaves (a >>= k) talk (.ok v)) : EndsAnswered talk := by
  obtain ⟨first, u, rest, rfl, -, hrest⟩ | ⟨f, -, hf⟩ := leaves_bind.1 hleaves
  · obtain ⟨earlier, answer, hanswers⟩ := hk u rest hrest
    exact ⟨answersOf first ++ earlier, answer, by simp [hanswers]⟩
  · cases hf

theorem endsAnswered_of_leaves_confirmState {talk : List (Step Event)} {state : SecureState}
    (hleaves : Leaves (confirmState cfg) talk (.ok state)) : EndsAnswered talk := by
  obtain ⟨_, hrecords, rfl⟩ := hleaves
  obtain ⟨queried, rfl, -, ⟨_, -, hquery, -⟩ | ⟨f, hf, -⟩⟩ :=
    passes_or_fails_of_records_confirmState "" hrecords
  · show EndsAnswered (talkOf queried)
    generalize talkOf queried = talk at hquery
    cases hquery with
    | answered hask =>
      cases hask
      exact ⟨[], _, rfl⟩
  · cases hf

/-- Preparation that ends well ends with a response. -/
theorem endsAnswered_of_leaves_prepare {talk : List (Step Event)} {state : SecureState}
    (hleaves : Leaves (prepare cfg url) talk (.ok state)) : EndsAnswered talk := by
  refine endsAnswered_of_leaves_bind (fun _ _ hleaves => ?_) hleaves
  refine endsAnswered_of_leaves_bind (fun _ _ hleaves => ?_) hleaves
  refine endsAnswered_of_leaves_bind (fun _ _ hleaves => ?_) hleaves
  exact endsAnswered_of_leaves_bind (fun _ _ => endsAnswered_of_leaves_confirmState) hleaves

theorem run_finish (w : Surroundings σ) (r : Except Failure Report) (s : σ) :
    ((finish r).run w s).value = r ∧ talkOf ((finish r).run w s).steps = [] := by
  cases r <;> exact ⟨rfl, rfl⟩

/-- After preparation that ended well the injection succeeds. -/
theorem run_conclude (w : Surroundings σ) (cfg : Config) (state : SecureState) (s : σ) :
    let out := (conclude cfg (.ok state)).run w s
    ∃ x, Shows cfg cfg.prompts.complete (talkOf out.steps) x ∧
      out.value = .ok ⟨state, warningOf x⟩ := by
  have hrun := Session.run_bind w (showLast cfg state).run finish s
  dsimp only at hrun ⊢
  rw [conclude, hrun]
  obtain ⟨x, hshows, hvalue, -⟩ := shows_of_records_showLast (records_run w (showLast cfg state) s)
  obtain ⟨hend, hquiet⟩ := run_finish w ((showLast cfg state).run.run w s).value
    ((showLast cfg state).run.run w s).state
  refine ⟨x, ?_, hend.trans hvalue⟩
  rw [talkOf_append, hquiet, List.append_nil]
  exact hshows

/-! ## Cut off -/

section Cut

variable {h : KeyHost η} {t : Terminal} {k : η}

/-- A last prompt that is not too long is one command. -/
theorem length_commandsOf_conclude (w : Surroundings σ)
    (hprompt : (textBytes cfg.prompts.complete).length ≤ DisplayRequest.maxText)
    (state : SecureState) (s : σ) :
    (commandsOf ((conclude cfg (.ok state)).run w s).steps).length = 1 := by
  obtain ⟨x, hshows, -⟩ := run_conclude w cfg state s
  obtain ⟨c, hcode⟩ := exists_command_prompt_iff.2 hprompt
  rw [← commandsOf_talkOf, hshows.submits.commands_eq, submissions_cons, Request.submission, hcode]
  rfl

/-- A terminal that is silent by then does not take the success away. -/
theorem run_conclude_silent (hsilent : t.isSilent = true)
    (hprompt : (textBytes cfg.prompts.complete).length ≤ DisplayRequest.maxText)
    (state : SecureState) :
    ((conclude cfg (.ok state)).run (.handling h) (t, k)).value =
      .ok ⟨state, some .requestTimeout⟩ := by
  obtain ⟨x, hshows, hvalue⟩ := run_conclude (.handling h) cfg state (t, k)
  obtain ⟨c, hcode⟩ := exists_command_prompt_iff.2 hprompt
  obtain ⟨n, hanswers⟩ := Session.answersOf_run_silent (conclude cfg (.ok state)) h hsilent k
  have htimeout : ∀ {answer}, Asks cfg.interface (.display (.prompt cfg.prompts.complete))
      (talkOf ((conclude cfg (.ok state)).run (.handling h) (t, k)).steps) answer →
        answer = .error .requestTimeout := by
    intro answer hask
    rw [← answersOf_talkOf] at hanswers
    generalize talkOf _ = talk at hask hanswers
    cases hask with
    | unsent hnone =>
      rw [hcode] at hnone
      cases hnone
    | sent =>
      refine List.eq_of_mem_replicate (n := n) ?_
      rw [← hanswers]
      exact List.mem_singleton.2 rfl
  cases hshows with
  | failed hask =>
    cases htimeout hask
    exact hvalue
  | refused hask | accepted hask => cases htimeout hask

/-- An injection that succeeds has ended its preparation with the state that it reports. -/
theorem prepare_of_inject_ok {w : Surroundings σ} {s : σ} {report : Report}
    (hok : ((inject cfg url).run w s).value = .ok report) :
    ((prepare cfg url).run.run w s).value = .ok report.state := by
  obtain ⟨hvalue, -⟩ := run_inject_prepare w cfg url s
  rw [hok] at hvalue
  cases hend : ((prepare cfg url).run.run w s).value with
  | error f =>
    rw [hend, conclude, (run_finish ..).1] at hvalue
    cases hvalue
  | ok state =>
    obtain ⟨x, -, hreport⟩ := run_conclude w cfg state ((prepare cfg url).run.run w s).state
    rw [hend, hreport] at hvalue
    cases hvalue
    rfl

/-- The last prompt of an injection that succeeds is one more command. -/
theorem length_commandsOf_inject {w : Surroundings σ} {s : σ} {report : Report}
    (hprompt : (textBytes cfg.prompts.complete).length ≤ DisplayRequest.maxText)
    (hok : ((inject cfg url).run w s).value = .ok report) :
    (commandsOf ((inject cfg url).run w s).steps).length =
      (commandsOf ((prepare cfg url).run.run w s).steps).length + 1 := by
  obtain ⟨-, -, hsent⟩ := run_inject_prepare w cfg url s
  rw [hsent, prepare_of_inject_ok hok, List.length_append, length_commandsOf_conclude w hprompt]

/-- If the terminal stops responding before the last prompt of an injection that would succeed, the
injection reports a prompt not shown. -/
theorem run_inject_withLimit_last (hunlimited : t.faults.dropResponsesAfter = none)
    (hprompt : (textBytes cfg.prompts.complete).length ≤ DisplayRequest.maxText) {report : Report}
    (hclean : ((inject cfg url).run (.handling h) (t, k)).value = .ok report) {n : Nat}
    (hlast : n + 1 = (commandsOf ((inject cfg url).run (.handling h) (t, k)).steps).length) :
    ((inject cfg url).run (.handling h) (t.withLimit (t.commands.size + n), k)).value =
      .ok ⟨report.state, some .requestTimeout⟩ := by
  let limit := t.commands.size + n
  let prepared := (prepare cfg url).run.run (.handling h) (t, k)
  have hn : (commandsOf prepared.steps).length = n :=
    Nat.succ.inj ((length_commandsOf_inject hprompt hclean).symm.trans hlast.symm)
  have hwhole : (prepare cfg url).run.run (.handling h) (t.withLimit limit, k) =
      ⟨.ok report.state, (prepared.state.1.withLimit limit, prepared.state.2), prepared.steps⟩ := by
    rw [Session.run_withLimit_of_le _ h hunlimited k (Nat.add_le_add_left (Nat.le_of_eq hn) _),
      ← prepare_of_inject_ok hclean]
  have hsilent : (prepared.state.1.withLimit limit).isSilent = true := by
    rw [Terminal.isSilent_withLimit, Session.terminal_of_run_handling,
      Terminal.size_handleAll hunlimited]
    exact decide_eq_true (Nat.add_le_add_left (Nat.le_of_eq hn.symm) _)
  obtain ⟨hvalue, -⟩ := run_inject_prepare (.handling h) cfg url (t.withLimit limit, k)
  rw [hwhole] at hvalue
  exact hvalue.trans (run_conclude_silent hsilent hprompt report.state)

/-- If it stops earlier, the injection fails. -/
theorem run_inject_withLimit_earlier (hunlimited : t.faults.dropResponsesAfter = none)
    (hprompt : (textBytes cfg.prompts.complete).length ≤ DisplayRequest.maxText) {report : Report}
    (hclean : ((inject cfg url).run (.handling h) (t, k)).value = .ok report) {n : Nat}
    (hearlier : n + 1 < (commandsOf ((inject cfg url).run (.handling h) (t, k)).steps).length) :
    ∃ f, ((inject cfg url).run (.handling h) (t.withLimit (t.commands.size + n), k)).value =
      .error f := by
  rw [length_commandsOf_inject hprompt hclean] at hearlier
  obtain ⟨-, m, hanswers⟩ := Session.run_withLimit_of_lt (prepare cfg url).run h hunlimited k
    (Nat.add_sub_cancel_left ..) (Nat.lt_of_succ_lt_succ hearlier)
  obtain ⟨hvalue, -⟩ :=
    run_inject_prepare (.handling h) cfg url (t.withLimit (t.commands.size + n), k)
  have hleaves := leaves_run (.handling h) (prepare cfg url)
    (t.withLimit (t.commands.size + n), k)
  cases hend : ((prepare cfg url).run.run (.handling h)
      (t.withLimit (t.commands.size + n), k)).value with
  | error f =>
    rw [hend] at hvalue
    exact ⟨f, hvalue.trans (run_finish (.handling h) (.error f) _).1⟩
  | ok state =>
    -- Preparation ends well only with a response, and this one has ended with a timeout.
    rw [hend] at hleaves
    obtain ⟨earlier, answer, hanswered⟩ := endsAnswered_of_leaves_prepare hleaves
    rw [answersOf_talkOf, hanswers] at hanswered
    have hlast := congrArg List.getLast? hanswered
    simp [List.getLast?_replicate] at hlast

end Cut

end KeyInjection.Injection

namespace KeyInjection

/-- The channel to the terminal, told to handle only so many more commands. -/
def TerminalLink.stoppingAfter (l : TerminalLink) (n : Nat) : TerminalLink :=
  { l with terminal := l.terminal.withLimit (l.terminal.commands.size + n) }

namespace Injection

open Device

variable {η : Type}

/-- An injection into a healthy terminal that stops responding after some number of commands. Let
`sent` be the commands of the injection without the interruption. If all of them are handled, the
interruption makes no difference; if all but the last, which is for the last prompt, the injection
still succeeds and reports that the prompt was not shown; otherwise it fails. In each case the
terminal has logged the commands handled as it would have, and is left as just these commands make
it: a command that comes later is not executed. -/
theorem inject_interrupted (l : TerminalLink) (h : KeyHost η) (k k' : η) (cfg : Config)
    (url : String) (text : String → String) (answer : Bytes) (response : ProvisioningResponse)
    (n : Nat) (hopen : l.closed = false) (hhealthy : Healthy cfg l.terminal text response)
    (hpost : h.post url (requestOf text).body k = (.ok answer, k'))
    (hanswer : ProvisioningResponse.ofBytes answer = .ok response) :
    let clean := (inject cfg url).run (.of .inProcess h) (l, k)
    let cut := (inject cfg url).run (.of .inProcess h) (l.stoppingAfter n, k)
    let sent := commandsOf clean.steps
    let size := l.terminal.commands.size
    clean.value = .ok .healthy ∧
      clean.state.1.terminal = l.terminal.handleAll sent ∧
      clean.state.1.terminal.commands.size = size + sent.length ∧
      (sent.length ≤ n → cut.value = clean.value ∧ cut.steps = clean.steps ∧
        cut.state.1.terminal = clean.state.1.terminal.withLimit (size + n) ∧
        cut.state.2 = clean.state.2) ∧
      (n + 1 = sent.length →
        cut.value = .ok { Report.healthy with displayWarning := some .requestTimeout }) ∧
      (n + 1 < sent.length → ∃ f, cut.value = .error f) ∧
      cut.state.1.terminal.commands.toList =
        clean.state.1.terminal.commands.toList.take (size + n) ∧
      cut.state.1.terminal = (l.terminal.handleAll (sent.take n)).withLimit (size + n) := by
  intro clean cut sent size
  have hunlimited : l.terminal.faults.dropResponsesAfter = none :=
    congrArg Faults.dropResponsesAfter hhealthy.faults_eq
  have hprompt := hhealthy.prompt_le cfg.prompts.complete (by simp)
  have hok : clean.value = .ok .healthy :=
    (run_inject_inProcess hopen hhealthy hpost hanswer).1
  -- Both runs are runs with the terminal itself.
  obtain ⟨hvalue, hsteps, ⟨-, hterminal⟩, hhost⟩ :=
    Session.run_inProcess_handling (inject cfg url) h hopen k
  obtain ⟨hcutValue, hcutSteps, ⟨-, hcutTerminal⟩, hcutHost⟩ :=
    Session.run_inProcess_handling (inject cfg url) h (l := l.stoppingAfter n) hopen k
  have hlimited : (l.stoppingAfter n).terminal = l.terminal.withLimit (size + n) := rfl
  rw [hlimited] at hcutValue hcutSteps hcutTerminal hcutHost
  have hdirect := hvalue.symm.trans hok
  have hsent : sent = commandsOf ((inject cfg url).run (.handling h) (l.terminal, k)).steps :=
    congrArg commandsOf hsteps
  have hleft : clean.state.1.terminal = l.terminal.handleAll sent := by
    rw [hsent, ← Session.terminal_of_run_handling]
    exact hterminal
  have hcutLeft : cut.state.1.terminal =
      (l.terminal.handleAll (sent.take n)).withLimit (size + n) := by
    rw [hsent, ← Session.terminal_of_run_withLimit _ _ hunlimited]
    exact hcutTerminal
  refine ⟨hok, hleft, ?_, ?_, ?_, ?_, ?_, hcutLeft⟩
  · rw [hleft, Terminal.size_handleAll hunlimited]
  · intro hall
    rw [hsent] at hall
    have hwhole := Session.run_withLimit_of_le (inject cfg url) h hunlimited k
      (Nat.add_le_add_left hall size)
    rw [hwhole] at hcutValue hcutSteps hcutTerminal hcutHost
    refine ⟨hcutValue.trans hvalue.symm, hcutSteps.trans hsteps.symm, ?_, hcutHost.trans hhost.symm⟩
    rw [hcutTerminal, hterminal]
  · intro hlast
    rw [hsent] at hlast
    exact hcutValue.trans (run_inject_withLimit_last hunlimited hprompt hdirect hlast)
  · intro hearlier
    rw [hsent] at hearlier
    obtain ⟨f, hf⟩ := run_inject_withLimit_earlier hunlimited hprompt hdirect hearlier
    exact ⟨f, hcutValue.trans hf⟩
  · rw [hcutLeft, hleft]
    exact Terminal.toList_commands_handleAll_take hunlimited sent n

/-- An injection into a seeded terminal takes thirty commands. -/
theorem length_commandsOf_seeded :
    (commandsOf ((inject {} "").run (.of .inProcess .scripted)
      (seededLink, .ofScript ScriptedHost.success)).steps).length = 30 := by
  have hpost := post_scripted (k := .ofScript ScriptedHost.success) rfl "" (requestOf seededText)
  obtain ⟨-, -, hsent, -⟩ :=
    run_inject_inProcess (l := seededLink) rfl healthy_seeded hpost ofBytes_success
  rw [hsent]
  decide +kernel

/-- Cut off early, it fails; before the last command, it does not. -/
theorem inject_interrupted_seeded :
    seededLink.closed = false ∧ Healthy {} seededLink.terminal seededText successResponse ∧
      (∃ f, ((inject {} "").run (.of .inProcess .scripted)
        (seededLink.stoppingAfter 3, .ofScript ScriptedHost.success)).value = .error f) ∧
      ((inject {} "").run (.of .inProcess .scripted)
        (seededLink.stoppingAfter 29, .ofScript ScriptedHost.success)).value =
          .ok { Report.healthy with displayWarning := some .requestTimeout } := by
  have hpost := post_scripted (k := .ofScript ScriptedHost.success) rfl "" (requestOf seededText)
  obtain ⟨-, -, -, -, -, hearly, -⟩ := inject_interrupted seededLink .scripted _ _ {} "" seededText
    _ successResponse 3 rfl healthy_seeded hpost ofBytes_success
  obtain ⟨-, -, -, -, hlast, -⟩ := inject_interrupted seededLink .scripted _ _ {} "" seededText
    _ successResponse 29 rfl healthy_seeded hpost ofBytes_success
  rw [length_commandsOf_seeded] at hearly hlast
  exact ⟨rfl, healthy_seeded, hearly (by decide), hlast rfl⟩

end Injection

end KeyInjection
