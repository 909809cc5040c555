-- SUMMARY: Prompts have no influence on an injection that goes on without them.
import KeyInjection.Proofs.Injection.Parts
import KeyInjection.Proofs.Session.Pairs
import KeyInjection.Proofs.Terminal.Display

/-!
# Prompts of injections

An injection that goes on when a prompt cannot be shown does not depend on its prompts: two
injections that differ only in the texts of their prompts, into terminals that differ only in what
they show and can show, end in the same way, and their records differ only in what is said about
prompts (`inject_prompts`). To say where this is, `withPrompts` puts it into a record that has none
of it.
-/

namespace KeyInjection.Injection

variable {η σ : Type}

/-! ## What is said about prompts -/

def Event.isWarning : Event → Bool
  | displayWarning _ => true
  | _ => false

/-- The step shows a prompt, or warns of one. -/
def isPrompting : Step Event → Bool
  | .exchanged _ c _ => c.header.ins == Instruction.display.code
  | .posted .. => false
  | .published e => e.isWarning

/-- The prompt that comes with a stage, and what becomes of the injection if it is not shown. -/
def Config.promptOf (cfg : Config) : Stage → Option (PromptPolicy × String)
  | .initialising => some (cfg.policy, cfg.prompts.preparing)
  | .contactingHost => some (cfg.policy, cfg.prompts.connecting)
  | .injectingKeys => some (cfg.policy, cfg.prompts.received)
  | .complete => some (.bestEffort, cfg.prompts.complete)
  | _ => none

/-- The steps of a prompt: it is shown or not, and there may be a warning. -/
def promptSteps (cfg : Config) (t : Terminal) (policy : PromptPolicy) (text : String) :
    List (Step Event) :=
  t.displaySteps cfg.interface text ++ (warnings policy (t.showing text)).map .published

/-- The steps of the prompt that comes with a stage. -/
def stagePrompt (cfg : Config) (t : Terminal) (s : Stage) : List (Step Event) :=
  match cfg.promptOf s with
  | some (policy, text) => promptSteps cfg t policy text
  | none => []

/-- A step with the prompt that comes with it, in front of the last stage and behind the others. -/
def prompted (cfg : Config) (t : Terminal) : Step Event → List (Step Event)
  | .published (.stage .complete) =>
    stagePrompt cfg t .complete ++ [.published (.stage .complete)]
  | .published (.stage s) => .published (.stage s) :: stagePrompt cfg t s
  | step => [step]

/-- A record with the prompts that come with its stages. -/
def withPrompts (cfg : Config) (t : Terminal) (steps : List (Step Event)) : List (Step Event) :=
  steps.flatMap (prompted cfg t)

variable {cfg : Config} {prompts : Prompts} {t t' u u' : Terminal} {steps : List (Step Event)}

theorem prompted_of_faults_eq (hfaults : t.faults = t'.faults) :
    prompted cfg t = prompted cfg t' := by
  have hprompt : stagePrompt cfg t = stagePrompt cfg t' := by
    funext s
    unfold stagePrompt promptSteps
    split
    · rw [Terminal.displaySteps_of_faults_eq hfaults, Terminal.showing_of_faults_eq hfaults]
    · rfl
  funext step
  unfold prompted
  rw [hprompt]

theorem isWarning_of_mem_warnings {policy : PromptPolicy} {r : Except Error Unit} {e : Event}
    (he : e ∈ warnings policy r) : e.isWarning = true := by
  unfold warnings at he
  split at he
  · cases he
  · split at he
    · obtain rfl := List.mem_singleton.1 he
      rfl
    · cases he

theorem isPrompting_of_mem_displaySteps {i : Interface} {text : String} {step : Step Event}
    (hstep : step ∈ t.displaySteps i text) : isPrompting step = true ∧ step.event? = none := by
  unfold Terminal.displaySteps at hstep
  split at hstep
  case h_2 => cases hstep
  case h_1 c hcode =>
    obtain rfl := List.mem_singleton.1 hstep
    have hins := Terminal.code_of_readCommand (Terminal.readCommand_command hcode)
    exact ⟨beq_iff_eq.2 hins.symm, rfl⟩

theorem isPrompting_of_mem_stagePrompt {s : Stage} {step : Step Event}
    (hstep : step ∈ stagePrompt cfg t s) : isPrompting step = true := by
  unfold stagePrompt at hstep
  split at hstep
  case h_2 => cases hstep
  case h_1 =>
    rcases List.mem_append.1 hstep with hshown | hwarned
    · exact (isPrompting_of_mem_displaySteps hshown).1
    · obtain ⟨e, he, rfl⟩ := List.mem_map.1 hwarned
      exact isWarning_of_mem_warnings he

/-- Without what is said about prompts the record is there again. -/
theorem filter_withPrompts (hquiet : ∀ step ∈ steps, isPrompting step = false) :
    (withPrompts cfg t steps).filter (!isPrompting ·) = steps := by
  have hnone : ∀ s, (stagePrompt cfg t s).filter (!isPrompting ·) = [] := by
    intro s
    refine List.filter_eq_nil_iff.2 fun step hstep => ?_
    simp [isPrompting_of_mem_stagePrompt hstep]
  have hstep : ∀ step, isPrompting step = false →
      (prompted cfg t step).filter (!isPrompting ·) = [step] := by
    intro step hstep
    unfold prompted
    split
    · simp [hnone, hstep]
    · simp [hnone, hstep]
    · simp [hstep]
  rw [withPrompts, List.filter_flatMap,
    List.flatMap_congr fun step hmem => hstep step (hquiet step hmem), List.flatMap_singleton']

/-- The prompts that come with the stages of a record. -/
def Config.promptsOf (cfg : Config) (steps : List (Step Event)) : List (PromptPolicy × String) :=
  (eventsOf steps).flatMap fun
    | .stage s => (cfg.promptOf s).toList
    | _ => []

theorem eventsOf_promptSteps {policy : PromptPolicy} {text : String} :
    eventsOf (promptSteps cfg t policy text) = warnings policy (t.showing text) := by
  have hshown : eventsOf (t.displaySteps cfg.interface text) = ([] : List Event) :=
    List.filterMap_eq_nil_iff.2 fun step hstep => (isPrompting_of_mem_displaySteps hstep).2
  rw [promptSteps, eventsOf_append, hshown, List.nil_append, eventsOf, List.filterMap_map]
  exact List.filterMap_some

theorem warnings_stagePrompt (s : Stage) :
    (eventsOf (stagePrompt cfg t s)).filter (·.isWarning) =
      (cfg.promptOf s).toList.flatMap fun prompt => warnings prompt.1 (t.showing prompt.2) := by
  unfold stagePrompt
  split
  case h_1 policy text hprompt =>
    rw [eventsOf_promptSteps, hprompt,
      List.filter_eq_self.2 fun e he => isWarning_of_mem_warnings he]
    simp
  case h_2 hnone =>
    rw [hnone]
    rfl

theorem warnings_prompted {step : Step Event} (hquiet : isPrompting step = false) :
    (eventsOf (prompted cfg t step)).filter (·.isWarning) =
      (cfg.promptsOf [step]).flatMap fun prompt => warnings prompt.1 (t.showing prompt.2) := by
  have hstage : ∀ s, cfg.promptsOf [.published (.stage s)] = (cfg.promptOf s).toList :=
    fun _ => List.append_nil _
  unfold prompted
  split
  case h_1 =>
    rw [eventsOf_append, List.filter_append, warnings_stagePrompt, hstage]
    exact List.append_nil _
  case h_2 s _ =>
    rw [hstage, ← warnings_stagePrompt]
    rfl
  case h_3 hother =>
    cases step with
    | exchanged i c answer => rfl
    | posted url body answer => rfl
    | published e =>
      cases e with
      | stage s => exact absurd rfl (hother s)
      | displayWarning => cases hquiet
      | _ => rfl

/-- There are the warnings of the prompts that could not be shown, and no others. -/
theorem warnings_withPrompts (hquiet : ∀ step ∈ steps, isPrompting step = false) :
    (eventsOf (withPrompts cfg t steps)).filter (·.isWarning) =
      (cfg.promptsOf steps).flatMap fun prompt => warnings prompt.1 (t.showing prompt.2) := by
  induction steps with
  | nil => rfl
  | cons step rest ih =>
    obtain ⟨hstep, hrest⟩ := List.forall_mem_cons.1 hquiet
    have hsplit : cfg.promptsOf (step :: rest) = cfg.promptsOf [step] ++ cfg.promptsOf rest := by
      rw [← List.singleton_append, Config.promptsOf, eventsOf_append, List.flatMap_append]
      rfl
    rw [withPrompts, List.flatMap_cons, eventsOf_append, List.filter_append,
      warnings_prompted hstep, hsplit, List.flatMap_append, ← ih hrest]
    rfl

/-- The step has nothing to do with prompts. -/
def IsPlain (step : Step Event) : Prop :=
  isPrompting step = false ∧
    ∀ s, step = .published (.stage s) → s = .readingBootstrapFiles ∨ s = .confirmingState

theorem prompted_of_isPlain {step : Step Event} (hplain : IsPlain step) :
    prompted cfg t step = [step] := by
  unfold prompted
  split
  case h_1 => cases hplain.2 _ rfl <;> contradiction
  case h_2 s _ =>
    obtain rfl | rfl := hplain.2 s rfl <;> rfl
  case h_3 => rfl

theorem withPrompts_of_isPlain (hplain : ∀ step ∈ steps, IsPlain step) :
    withPrompts cfg t steps = steps := by
  rw [withPrompts, List.flatMap_congr fun step hstep => prompted_of_isPlain (hplain step hstep),
    List.flatMap_singleton']

/-- The work of an injection has nothing to do with prompts. -/
theorem permits_isPlain : Permits cfg IsPlain where
  exchanged {r} hother := by
    intro c answer hcode
    have hins := Terminal.code_of_readCommand (Terminal.readCommand_command hcode)
    refine ⟨beq_eq_false_iff_ne.2 fun hdisplay => hother ?_, nofun⟩
    exact Instruction.code_inj.1 (hins.trans hdisplay)
  downloaded _ _ := ⟨rfl, nofun⟩
  uploaded _ _ := ⟨rfl, nofun⟩

/-! ## Two injections that differ in their prompts -/

/-- Both have come to states that differ in prompts only, from these terminals. -/
structure SameButPrompts (t t' : Terminal) (s s' : Terminal × η) : Prop where
  unprompted_eq : s.1.unprompted = s'.1.unprompted
  host_eq : s.2 = s'.2
  faults_eq : s.1.faults = t.faults
  faults_eq' : s'.1.faults = t'.faults

/-- Both records come from one without prompts. -/
def DifferInPrompts (cfg cfg' : Config) (t t' : Terminal) (steps steps' : List (Step Event)) :
    Prop :=
  ∃ quiet, (∀ step ∈ quiet, isPrompting step = false) ∧ steps = withPrompts cfg t quiet ∧
    steps' = withPrompts cfg' t' quiet

theorem composes_differInPrompts {cfg' : Config} :
    Composes (DifferInPrompts cfg cfg' t t') where
  nil := ⟨[], nofun, rfl, rfl⟩
  append := by
    rintro _ _ _ _ ⟨first, hfirst, rfl, rfl⟩ ⟨second, hsecond, rfl, rfl⟩
    refine ⟨first ++ second, ?_, ?_, ?_⟩
    · exact fun step hstep => (List.mem_append.1 hstep).elim (hfirst step) (hsecond step)
    · exact List.flatMap_append.symm
    · exact List.flatMap_append.symm

/-- The attempts go alike, prompts aside. -/
abbrev Beside (h : KeyHost η) (cfg : Config) (prompts : Prompts) (t t' : Terminal)
    (a a' : Task α) : Prop :=
  Paired (.handling h) (.handling h) (SameButPrompts t t')
    (DifferInPrompts cfg { cfg with prompts } t t') Eq a a'

section

variable (h : KeyHost η) (hunlimited : t.faults.dropResponsesAfter = none)
  (hunlimited' : t'.faults.dropResponsesAfter = none)
include hunlimited hunlimited'

theorem beside_of_only {a : Task α} (honly : Only IsPlain a) : Beside h cfg prompts t t' a a := by
  refine .same honly ?_ ?_ fun steps hsteps => ?_
  · intro i c s s' hrel hplain
    have hother : c.header.ins ≠ Instruction.display.code := beq_eq_false_iff_ne.1 hplain.1
    have hleft := Terminal.handle_unprompted (i := i) (hrel.faults_eq ▸ hunlimited) hother
    have hright := Terminal.handle_unprompted (i := i) (hrel.faults_eq' ▸ hunlimited') hother
    rw [hrel.unprompted_eq, hright] at hleft
    obtain ⟨hanswer, hterminal⟩ := Prod.mk.inj hleft
    refine ⟨congrArg (fun answer => ofReceived (.ok answer)) hanswer.symm, hterminal.symm,
      hrel.host_eq, ?_, ?_⟩
    · exact (Terminal.handle_faults ..).trans hrel.faults_eq
    · exact (Terminal.handle_faults ..).trans hrel.faults_eq'
  · rintro url body ⟨u, k⟩ ⟨u', k'⟩ ⟨hterminal, rfl, hfaults, hfaults'⟩ -
    exact ⟨rfl, hterminal, rfl, hfaults, hfaults'⟩
  · refine ⟨steps, fun step hstep => (hsteps step hstep).1, ?_, ?_⟩
    · exact (withPrompts_of_isPlain hsteps).symm
    · exact (withPrompts_of_isPlain hsteps).symm

end

/-- What becomes of an injection that shows a prompt before the keys are in place. -/
def judged (policy : PromptPolicy) : Except Error Unit → Except Failure Unit
  | .ok () => .ok ()
  | .error e =>
    match policy with
    | .bestEffort => .ok ()
    | .strict => .error (.displayFailed e)

theorem run_prompt (cfg : Config) (h : KeyHost η) (hunlimited : t.faults.dropResponsesAfter = none)
    (k : η) (text : String) :
    let out := (prompt cfg text).run.run (.handling h) (t, k)
    out.value = judged cfg.policy (t.showing text) ∧
      out.steps = promptSteps cfg t cfg.policy text ∧
      out.state.1.unprompted = t.unprompted ∧ out.state.1.faults = t.faults ∧ out.state.2 = k := by
  obtain ⟨hvalue, hsteps, hstate⟩ :=
    Device.run_display (ε := Event) h hunlimited k cfg.interface text
  rw [prompt, Session.run_lift_bind, promptSteps, ← hsteps, ← hvalue]
  dsimp only
  cases (Device.display cfg.interface text : Attempt Event Error Unit).run.run _ _ |>.value with
  | ok v =>
    cases v
    exact ⟨rfl, rfl, hstate⟩
  | error e => cases cfg.policy <;> exact ⟨rfl, rfl, hstate⟩

theorem run_announce (h : KeyHost η) (hunlimited : t.faults.dropResponsesAfter = none) (k : η)
    {s : Stage} {text : String} (hprompt : cfg.promptOf s = some (cfg.policy, text))
    (hlast : s ≠ .complete) :
    let out := (announce cfg s text).run.run (.handling h) (t, k)
    out.value = judged cfg.policy (t.showing text) ∧
      out.steps = prompted cfg t (.published (.stage s)) ∧
      out.state.1.unprompted = t.unprompted ∧ out.state.1.faults = t.faults ∧ out.state.2 = k := by
  have hstage : prompted cfg t (.published (.stage s)) =
      .published (.stage s) :: promptSteps cfg t cfg.policy text := by
    have hbehind : prompted cfg t (.published (.stage s)) =
        .published (.stage s) :: stagePrompt cfg t s := by
      cases s <;> first | rfl | exact absurd rfl hlast
    rw [hbehind, stagePrompt, hprompt]
  have hrun : (announce cfg s text).run.run (.handling h) (t, k) =
      let out := (prompt cfg text).run.run (.handling h) (t, k)
      { out with steps := .published (.stage s) :: out.steps } := Session.run_publish ..
  obtain ⟨hvalue, hsteps, hstate⟩ := run_prompt cfg h hunlimited k text
  rw [hrun, hstage, ← hsteps]
  exact ⟨hvalue, rfl, hstate⟩

/-- Entering a stage and showing its prompt goes alike if the injection goes on anyway, or if both
prompts fare alike. -/
theorem beside_announce (h : KeyHost η) (hunlimited : t.faults.dropResponsesAfter = none)
    (hunlimited' : t'.faults.dropResponsesAfter = none) (s : Stage) {text text' : String}
    (hprompt : cfg.promptOf s = some (cfg.policy, text))
    (hprompt' : ({ cfg with prompts } : Config).promptOf s = some (cfg.policy, text'))
    (hlast : s ≠ .complete)
    (hfare : cfg.policy = .bestEffort ∨ t.showing text = t'.showing text') :
    Beside h cfg prompts t t' (announce cfg s text) (announce { cfg with prompts } s text') := by
  rintro ⟨u, k⟩ ⟨u', k'⟩ ⟨hterminal, hhost, hfaults, hfaults'⟩
  obtain ⟨hvalue, hsteps, hleft, hkept, hk⟩ :=
    run_announce h (hfaults ▸ hunlimited) k hprompt hlast
  obtain ⟨hvalue', hsteps', hleft', hkept', hk'⟩ :=
    run_announce h (hfaults' ▸ hunlimited') k' hprompt' hlast
  refine ⟨agree_eq_iff.2 ?_, ⟨[.published (.stage s)], ?_, ?_, ?_⟩, ?_⟩
  · rw [hvalue, hvalue', Terminal.showing_of_faults_eq hfaults,
      Terminal.showing_of_faults_eq hfaults']
    rcases hfare with hpolicy | hfare
    · dsimp only
      rw [hpolicy]
      cases t.showing text <;> cases t'.showing text' <;> rfl
    · rw [hfare]
  · simp [isPrompting, Event.isWarning]
  · rw [withPrompts, List.flatMap_singleton, hsteps, prompted_of_faults_eq hfaults]
  · rw [withPrompts, List.flatMap_singleton, hsteps', prompted_of_faults_eq hfaults']
  · exact ⟨hleft.trans (hterminal.trans hleft'.symm), hk.trans (hhost.trans hk'.symm),
      hkept.trans hfaults, hkept'.trans hfaults'⟩

/-- The earlier prompts cannot stop the injection, or fare alike in both. -/
def EarlyPromptsAlike (cfg : Config) (prompts : Prompts) (t t' : Terminal) : Prop :=
  cfg.policy = .bestEffort ∨
    t.showing cfg.prompts.preparing = t'.showing prompts.preparing ∧
      t.showing cfg.prompts.connecting = t'.showing prompts.connecting ∧
        t.showing cfg.prompts.received = t'.showing prompts.received

theorem beside_prepare (h : KeyHost η) (hunlimited : t.faults.dropResponsesAfter = none)
    (hunlimited' : t'.faults.dropResponsesAfter = none)
    (hfare : EarlyPromptsAlike cfg prompts t t') (url : String) :
    Beside h cfg prompts t t' (prepare cfg url) (prepare { cfg with prompts } url) := by
  have hsame : ∀ {α} {a : Task α}, Only IsPlain a → Beside h cfg prompts t t' a a :=
    beside_of_only h hunlimited hunlimited'
  have hjoins : Composes (DifferInPrompts cfg { cfg with prompts } t t') :=
    composes_differInPrompts
  have hinitialise :
      Beside h cfg prompts t t' (initialise cfg) (initialise { cfg with prompts }) := by
    rw [initialise_eq, initialise_eq]
    exact (beside_announce h hunlimited hunlimited' .initialising rfl rfl nofun
      (hfare.imp_right (·.1))).bind hjoins fun _ _ _ => hsame permits_isPlain.only_start
  have hbootstrap : Beside h cfg prompts t t' (readBootstrap cfg) (readBootstrap cfg) :=
    hsame (permits_isPlain.only_readBootstrap ⟨rfl, fun s hs => by cases hs; exact .inl rfl⟩)
  have hcontact : ∀ r, Beside h cfg prompts t t' (contactHost cfg url r)
      (contactHost { cfg with prompts } url r) := by
    intro r
    rw [contactHost_eq, contactHost_eq]
    exact (beside_announce h hunlimited hunlimited' .contactingHost rfl rfl nofun
      (hfare.imp_right (·.2.1))).bind hjoins fun _ _ _ =>
        hsame (only_askHost fun _ _ _ => ⟨rfl, nofun⟩)
  have hinject : ∀ r, Beside h cfg prompts t t' (injectKeys cfg r)
      (injectKeys { cfg with prompts } r) := by
    intro r
    rw [injectKeys_eq, injectKeys_eq]
    exact (beside_announce h hunlimited hunlimited' .injectingKeys rfl rfl nofun
      (hfare.imp_right (·.2.2))).bind hjoins fun _ _ _ =>
        hsame (permits_isPlain.only_deriveAndWrite r)
  have hconfirm : Beside h cfg prompts t t' (confirmState cfg) (confirmState cfg) :=
    hsame (permits_isPlain.only_confirmState ⟨rfl, fun s hs => by cases hs; exact .inr rfl⟩)
  refine hinitialise.bind hjoins fun _ _ _ => hbootstrap.bind hjoins ?_
  rintro request _ rfl
  refine (hcontact request).bind hjoins ?_
  rintro response _ rfl
  exact (hinject response).bind hjoins fun _ _ _ => hconfirm

/-! ## The last prompt -/

/-- Whatever becomes of the last prompt, an injection that comes to it succeeds. -/
theorem run_conclude_ok (cfg : Config) (h : KeyHost η)
    (hunlimited : t.faults.dropResponsesAfter = none) (k : η) (state : SecureState) :
    let out := (conclude cfg (.ok state)).run (.handling h) (t, k)
    out.value = .ok ⟨state, warningOf (t.showing cfg.prompts.complete)⟩ ∧
      out.steps = prompted cfg t (.published (.stage .complete)) ∧
      out.state.1.unprompted = t.unprompted ∧ out.state.2 = k := by
  obtain ⟨hvalue, hsteps, hleft, -, hk⟩ :=
    Device.run_display (ε := Event) h hunlimited k cfg.interface cfg.prompts.complete
  rw [conclude, Session.run_bind, showLast, Session.run_lift_bind]
  show _ ∧ _ = promptSteps cfg t .bestEffort cfg.prompts.complete ++ _ ∧ _
  rw [promptSteps, ← hsteps, ← hvalue]
  dsimp only
  cases (Device.display cfg.interface cfg.prompts.complete : Attempt Event Error Unit).run.run _ _
    |>.value with
  | ok v =>
    cases v
    exact ⟨rfl, rfl, hleft, hk⟩
  | error e => exact ⟨rfl, rfl, hleft, hk⟩

/-! ## Injections -/

/-- Prompts add to the record of an injection what comes with its stages. There is a warning for
each prompt that was come to and could not be shown, unless it stops the injection, and the report
tells of the last. -/
structure AddsPrompts (cfg : Config) (t : Terminal) (quiet : List (Step Event))
    (out : Outcome Event σ (Except Failure Report)) : Prop where
  steps_eq : out.steps = withPrompts cfg t quiet
  warnings_eq : (eventsOf out.steps).filter (·.isWarning) =
    (cfg.promptsOf quiet).flatMap fun prompt => warnings prompt.1 (t.showing prompt.2)
  displayWarning_eq : ∀ report, out.value = .ok report →
    report.displayWarning = warningOf (t.showing cfg.prompts.complete)

/-- What an injection adds to its preparation: the first stage and the last, with its prompt. -/
theorem inject_of_prepare (h : KeyHost η) (hunlimited : t.faults.dropResponsesAfter = none)
    (url : String) (k : η) {quiet : List (Step Event)}
    (hsteps : ((prepare cfg url).run.run (.handling h) (t, k)).steps = withPrompts cfg t quiet)
    (hfaults : ((prepare cfg url).run.run (.handling h) (t, k)).state.1.faults = t.faults) :
    let prepared := (prepare cfg url).run.run (.handling h) (t, k)
    let out := (inject cfg url).run (.handling h) (t, k)
    out.value.map (·.state) = prepared.value ∧
      out.steps = withPrompts cfg t (.published (.stage .idle) :: quiet ++
        [.published (.stage (lastStage prepared.value))]) ∧
      (∀ report, out.value = .ok report →
        report.displayWarning = warningOf (t.showing cfg.prompts.complete)) ∧
      out.state.1.unprompted = prepared.state.1.unprompted ∧ out.state.2 = prepared.state.2 := by
  rw [run_inject_eq]
  generalize (prepare cfg url).run.run (.handling h) (t, k) = prepared at hsteps hfaults ⊢
  obtain ⟨value, ⟨u, kept⟩, record⟩ := prepared
  obtain rfl : record = withPrompts cfg t quiet := hsteps
  have hrecord : ∀ s,
      withPrompts cfg t (.published (.stage .idle) :: quiet ++ [.published (.stage s)]) =
        .published (.stage .idle) ::
          (withPrompts cfg t quiet ++ prompted cfg t (.published (.stage s))) := by
    intro s
    simp [withPrompts, prompted, stagePrompt, Config.promptOf]
  cases value with
  | error f => exact ⟨rfl, (hrecord .failed).symm, nofun, rfl, rfl⟩
  | ok state =>
    obtain ⟨hvalue, hlast, hleft, hk⟩ :=
      run_conclude_ok cfg h (hfaults ▸ hunlimited) kept state
    rw [prompted_of_faults_eq hfaults] at hlast
    rw [Terminal.showing_of_faults_eq hfaults] at hvalue
    refine ⟨congrArg _ hvalue, ?_, ?_, hleft, hk⟩
    · refine Eq.trans ?_ (hrecord .complete).symm
      rw [← hlast]
    · intro report hreport
      cases hvalue.symm.trans hreport
      rfl

/-- Prompts have no influence on an injection that goes on without them. Two injections over
channels in the same process differ in the texts of their prompts, and the two terminals, which do
not stop responding, in what they show and can show. Unless an earlier prompt stops one of them and
fares differently in the other, both end in the same way, and their records are the same but for
what is said about prompts: all other commands with their answers, the request to the key host and
all other events are the same and in the same order. They leave the terminals and the key host in
states that are the same but for what is shown and logged of prompts. -/
theorem inject_prompts (cfg : Config) (prompts : Prompts) (url : String) (h : KeyHost η) (k : η)
    {l l' : TerminalLink} (hopen : l.closed = false) (hopen' : l'.closed = false)
    (hunlimited : l.terminal.faults.dropResponsesAfter = none)
    (hunprompted : l.terminal.unprompted = l'.terminal.unprompted)
    (hearly : EarlyPromptsAlike cfg prompts l.terminal l'.terminal) :
    let other := { cfg with prompts }
    let out := (inject cfg url).run (.of .inProcess h) (l, k)
    let out' := (inject other url).run (.of .inProcess h) (l', k)
    let quiet := out.steps.filter (!isPrompting ·)
    out.value.map (·.state) = out'.value.map (·.state) ∧
      out'.steps.filter (!isPrompting ·) = quiet ∧
      AddsPrompts cfg l.terminal quiet out ∧ AddsPrompts other l'.terminal quiet out' ∧
      out.state.1.terminal.unprompted = out'.state.1.terminal.unprompted ∧
      out.state.2 = out'.state.2 := by
  intro other out out' quiet
  have hunlimited' : l'.terminal.faults.dropResponsesAfter = none :=
    (congrArg (·.faults.dropResponsesAfter) hunprompted).symm.trans hunlimited
  obtain ⟨hvalue, hsteps, ⟨-, hterminal⟩, hhost⟩ :=
    Session.run_inProcess_handling (inject cfg url) h hopen k
  obtain ⟨hvalue', hsteps', ⟨-, hterminal'⟩, hhost'⟩ :=
    Session.run_inProcess_handling (inject other url) h hopen' k
  obtain ⟨hprepared, ⟨core, hcore, hrecord, hrecord'⟩, hleft, hkept, hfaults, hfaults'⟩ :=
    beside_prepare h hunlimited hunlimited' hearly url (l.terminal, k) (l'.terminal, k)
      ⟨hunprompted, rfl, rfl, rfl⟩
  obtain ⟨hstate, hall, hlast, hend, hk⟩ := inject_of_prepare h hunlimited url k hrecord hfaults
  obtain ⟨hstate', hall', hlast', hend', hk'⟩ :=
    inject_of_prepare h hunlimited' url k hrecord' hfaults'
  rw [← agree_eq_iff.1 hprepared] at hall' hstate'
  rw [← hsteps] at hall
  rw [← hsteps'] at hall'
  rw [← hvalue] at hstate hlast
  rw [← hvalue'] at hstate' hlast'
  generalize lastStage _ = last at hall hall'
  have hnone : ∀ step ∈ .published (.stage .idle) :: core ++ [.published (.stage last)],
      isPrompting step = false := by
    simpa [or_imp, forall_and, isPrompting, Event.isWarning] using hcore
  have hquiet : quiet = .published (.stage .idle) :: core ++ [.published (.stage last)] := by
    rw [← filter_withPrompts hnone, ← hall]
  rw [hquiet]
  refine ⟨hstate.trans hstate'.symm, ?_, ⟨hall, ?_, hlast⟩, ⟨hall', ?_, hlast'⟩, ?_, ?_⟩
  · rw [hall', filter_withPrompts hnone]
  · rw [hall, warnings_withPrompts hnone]
  · rw [hall', warnings_withPrompts hnone]
  · rw [hterminal, hterminal']
    exact hend.trans (hleft.trans hend'.symm)
  · rw [hhost, hhost']
    exact hk.trans (hkept.trans hk'.symm)

/-- A seeded terminal that is kept from showing the second prompt, after one that is too long. -/
theorem inject_prompts_seeded :
    let t := Terminal.seeded false false
    let l : TerminalLink := { terminal := { t with faults := { failDisplay := some "key host" } } }
    let l' : TerminalLink := { terminal := t }
    let preparing := "Preparing key injection, please do not switch the terminal off now"
    let cfg : Config := { policy := .bestEffort, prompts := { preparing } }
    let host := ScriptedHost.ofScript .unreachable
    let out := (inject cfg "host").run (.of .inProcess .scripted) (l, host)
    let out' := (inject { cfg with prompts := {} } "host").run (.of .inProcess .scripted) (l', host)
    l.closed = false ∧ l.terminal.faults.dropResponsesAfter = none ∧
      l.terminal.unprompted = l'.terminal.unprompted ∧
      EarlyPromptsAlike cfg {} l.terminal l'.terminal ∧
      out.value.map (·.state) = out'.value.map (·.state) ∧
      ((eventsOf out.steps).filter (·.isWarning)).length = 2 := by
  intro t l l' preparing cfg host
  have hunprompted : l.terminal.unprompted = l'.terminal.unprompted := by decide +kernel
  obtain ⟨hstate, -⟩ :=
    inject_prompts cfg {} "host" .scripted host (l := l) rfl rfl rfl hunprompted (.inl rfl)
  exact ⟨rfl, rfl, hunprompted, .inl rfl, hstate, by decide +kernel⟩

end KeyInjection.Injection
