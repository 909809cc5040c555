-- SUMMARY: Injections go through their phases, whatever the terminal and the key host do.
import KeyInjection.Proofs.Injection.KeyFiles
import KeyInjection.Proofs.Injection.Narration

/-!
# Dialogues of injections

Each part of an injection goes through the phases of its stage and publishes their events; put
together, `narrates_of_records_steps` says so of the whole.
-/

namespace KeyInjection.Injection

open Device Transfer

variable {cfg : Config} (url : String)

/-! ## Parts of an injection -/

/-- The end of an operation as the end of a step. -/
def settle (f : Error → Failure) : Except Error α → Session Event (Except Failure α)
  | .ok v => .done (.ok v)
  | .error e => .done (.error (f e))

theorem run_blaming (f : Error → Failure) (a : Attempt Event Error α) :
    (blaming f a).run = a.run.bind (settle f) := rfl

/-- An operation that fails within a step fails the step, and does nothing else. -/
theorem records_blaming {f : Error → Failure} {a : Attempt Event Error α}
    {steps : List (Step Event)} {r : Except Failure α} :
    Records (blaming f a) steps r ↔ ∃ x, Records a steps x ∧ r = x.mapError f := by
  rw [Records, run_blaming, Session.generates_bind]
  constructor
  · rintro ⟨first, x, second, rfl, ha, hdone⟩
    cases x <;> cases hdone <;> exact ⟨_, by rwa [List.append_nil], rfl⟩
  · rintro ⟨x, ha, rfl⟩
    refine ⟨steps, x, [], by simp, ha, ?_⟩
    cases x <;> exact .done

theorem only_blaming {P : Step Event → Prop} {f : Error → Failure} {a : Attempt Event Error α}
    (ha : Only P a) : Only P (blaming f a) := by
  intro steps r hrecords
  obtain ⟨x, hrecords, -⟩ := records_blaming.1 hrecords
  exact ha _ _ hrecords

/-- Entering a stage stands in front of the record of the rest. -/
theorem records_enter_bind {s : Stage} {k : Task α} {steps : List (Step Event)}
    {r : Except Failure α} :
    Records (enter s >>= fun _ => k) steps r ↔
      ∃ rest, steps = .published (.stage s) :: rest ∧ Records k rest r :=
  records_emit_bind

/-- Showing a prompt publishes nothing by itself. -/
theorem shows_of_records {text : String} {φ : Type} {steps : List (Step Event)}
    {x : Except φ (Except Error Unit)}
    (hrecords : Records (ExceptT.lift (Device.display cfg.interface text).run) steps x) :
    ∃ r, x = .ok r ∧ Shows cfg text (talkOf steps) r ∧ eventsOf steps = [] := by
  obtain ⟨r, hdisplay, rfl⟩ := records_lift_run.1 hrecords
  exact ⟨r, rfl, .of_leaves hdisplay.leaves,
    (only_command (Request.exchanged_isTalk _ _)).eventsOf_eq_nil hdisplay⟩

/-- A prompt that is shown, or need not be, is passed. -/
theorem tells_of_records_prompt {text : String} {steps : List (Step Event)}
    {r : Except Failure Unit} (hrecords : Records (prompt cfg text) steps r) :
    Tells cfg url [.prompt text] steps r := by
  rcases records_bind.1 hrecords with ⟨shown, x, rest, rfl, hdisplay, hjudge⟩ | ⟨e, hdisplay, -⟩
  case inr =>
    obtain ⟨_, hx, -⟩ := shows_of_records hdisplay
    cases hx
  obtain ⟨_, hx, hshows, hquiet⟩ := shows_of_records hdisplay
  cases hx
  cases x with
  | ok v =>
    obtain ⟨rfl, rfl⟩ := records_pure.1 hjudge
    rw [List.append_nil]
    exact .single (.single_pass ⟨_, hshows, .inl rfl⟩) ⟨_, hshows, hquiet⟩
  | error e =>
    dsimp only at hjudge
    cases hpolicy : cfg.policy with
    | strict =>
      rw [hpolicy] at hjudge
      obtain ⟨rfl, rfl⟩ := records_throw.1 hjudge
      rw [List.append_nil]
      exact .fail ⟨hpolicy, e, hshows, rfl⟩ ⟨_, hshows, by rw [hquiet, hpolicy]; rfl⟩
    | bestEffort =>
      rw [hpolicy] at hjudge
      obtain ⟨rfl, rfl⟩ := records_emit.1 hjudge
      have htalk : talkOf (shown ++ [.published (.displayWarning e.message)]) = talkOf shown := by
        simp [talkOf, Step.isTalk]
      rw [← htalk] at hshows
      refine .single (.single_pass ⟨_, hshows, .inr hpolicy⟩) ⟨_, hshows, ?_⟩
      rw [eventsOf_append, hquiet, hpolicy]
      rfl

/-- One operation as a phase of its own. -/
theorem tells_of_records_blaming {f : Error → Failure} {a : Attempt Event Error α} (p : Phase)
    (hok : ∀ talk v, Leaves a talk (.ok v) → p.Passes cfg url talk)
    (herror : ∀ talk e, Leaves a talk (.error e) → p.Fails cfg url talk (f e))
    (hevents : ∀ steps x, Records a steps x → p.Publishes cfg steps)
    {steps : List (Step Event)} {r : Except Failure α} (hrecords : Records (blaming f a) steps r) :
    Tells cfg url [p] steps (r.map fun _ => ()) := by
  obtain ⟨x, ha, rfl⟩ := records_blaming.1 hrecords
  cases x with
  | ok v => exact .single (.single_pass (hok _ _ ha.leaves)) (hevents _ _ ha)
  | error e => exact .fail (herror _ _ ha.leaves) (hevents _ _ ha)

/-- A failed query of the state, told from an answered one. -/
theorem queries_of_records {f : Error → Failure} {steps : List (Step Event)}
    {r : Except Failure SecureState}
    (hrecords : Records (blaming f (Device.secureState cfg.interface)) steps r) :
    eventsOf steps = [] ∧ ((∃ state, r = .ok state ∧ Queries cfg (talkOf steps) (.ok state)) ∨
      ∃ e, r = .error (f e) ∧ Queries cfg (talkOf steps) (.error e)) := by
  obtain ⟨x, hquery, rfl⟩ := records_blaming.1 hrecords
  refine ⟨(only_request (Request.exchanged_isTalk _ _) _).eventsOf_eq_nil hquery, ?_⟩
  cases x with
  | ok state => exact .inl ⟨state, rfl, .of_leaves hquery.leaves⟩
  | error e => exact .inr ⟨e, rfl, .of_leaves hquery.leaves⟩

theorem tells_of_records_initialise {steps : List (Step Event)} {r : Except Failure Unit}
    (hrecords : Records (initialise cfg) steps r) :
    ∃ rest, steps = .published (.stage .initialising) :: rest ∧
      Tells cfg url (startPhases cfg) rest r := by
  obtain ⟨steps, rfl, hbody⟩ := records_enter_bind.1 hrecords
  refine ⟨steps, rfl, ?_⟩
  rcases records_bind.1 hbody with ⟨shown, _, rest, rfl, hprompt, hrest⟩ | ⟨f, hprompt, rfl⟩
  case inr => exact (tells_of_records_prompt url hprompt).append_error
  refine (tells_of_records_prompt url hprompt).append ?_
  have hstart : ∀ {steps r},
      Records (blaming .initialiseFailed (Device.secureInit cfg.interface)) steps r →
        Tells cfg url [.start] steps (r.map fun _ => ()) :=
    tells_of_records_blaming url .start (fun _ _ h => Commands.of_leaves h)
      (fun _ _ h => ⟨_, .of_leaves h, rfl⟩)
      fun _ _ => (only_command (Request.exchanged_isTalk _ _)).eventsOf_eq_nil
  rcases records_bind.1 hrest with ⟨started, _, rest, rfl, hinit, hrest⟩ | ⟨f, hinit, rfl⟩
  case inr => exact (hstart hinit).append_error
  refine (hstart hinit).append ?_
  rcases records_bind.1 hrest with ⟨queried, state, rest, rfl, hasked, hjudge⟩ | ⟨f, hasked, rfl⟩
  · obtain ⟨hquiet, ⟨_, hstate, hquery⟩ | ⟨_, hstate, -⟩⟩ := queries_of_records hasked
    · cases hstate
      split at hjudge
      case isTrue hinactive =>
        obtain ⟨rfl, rfl⟩ := records_throw.1 hjudge
        rw [List.append_nil]
        exact .fail ⟨rfl, .inr ⟨state, hquery, by simpa using hinactive⟩⟩ hquiet
      case isFalse hactive =>
        obtain ⟨rfl, rfl⟩ := records_pure.1 hjudge
        rw [List.append_nil]
        exact .single (.single_pass ⟨state, hquery, by simpa using hactive⟩) hquiet
    · cases hstate
  · obtain ⟨hquiet, ⟨_, hstate, -⟩ | ⟨e, hstate, hquery⟩⟩ := queries_of_records hasked
    · cases hstate
    · cases hstate
      exact .fail ⟨rfl, .inl ⟨e, hquery⟩⟩ hquiet

/-- A download publishes its progress. -/
theorem publishes_of_records_download {file : String} {steps : List (Step Event)}
    {r : Except Error Bytes}
    (hrecords : Records (download cfg.interface file cfg.download (.download file)) steps r)
    (text : String) (pieces : List Bytes) :
    (Phase.download file text pieces).Publishes cfg steps := by
  obtain ⟨brought, hdownload, rfl⟩ := Downloads.of_leaves hrecords.leaves
  obtain ⟨total, counts, hprogress, hevents, hbytes⟩ := progresses_of_records_download hrecords
  have hend : (brought.map List.flatten).isOk = brought.isOk := by cases brought <;> rfl
  rw [hend] at hprogress
  exact ⟨brought, total, counts, hdownload, fun pieces hpieces => hbytes _ (by rw [hpieces]; rfl),
    hprogress, hevents⟩

/-- A bootstrap file is read as a text, or it is not, whatever text was expected. -/
theorem tells_of_records_readText {file : String} {steps : List (Step Event)}
    {r : Except Failure String} (hrecords : Records (readText cfg file) steps r) :
    (∃ text pieces, r = .ok text ∧ Tells cfg url [.download file text pieces] steps (.ok ())) ∨
      ∃ f, r = .error f ∧
        ∀ text pieces, Tells cfg url [.download file text pieces] steps (.error f) := by
  rcases records_bind.1 hrecords with ⟨first, data, second, rfl, htry, hjudge⟩ | ⟨f, htry, rfl⟩
  · obtain ⟨x, hread, hx⟩ := records_blaming.1 htry
    cases x with
    | error e => cases hx
    | ok _ =>
      cases hx
      have hevents := publishes_of_records_download hread
      obtain ⟨_ | pieces, hdownload, hdata⟩ := Downloads.of_leaves hread.leaves
      · cases hdata
      cases hdata
      split at hjudge
      case h_1 text htext =>
        obtain ⟨rfl, rfl⟩ := records_pure.1 hjudge
        have hpassed : (Phase.download file text pieces).Passes cfg url (talkOf first) :=
          ⟨hdownload, Bytes.text?_eq_some_iff.1 htext⟩
        rw [List.append_nil]
        exact .inl ⟨text, pieces, rfl, .single (.single_pass hpassed) (hevents _ _)⟩
      case h_2 hbinary =>
        obtain ⟨rfl, rfl⟩ := records_throw.1 hjudge
        rw [List.append_nil]
        exact .inr ⟨_, rfl, fun _ _ =>
          .fail (.inr ⟨pieces, hdownload, hbinary, rfl⟩) (hevents _ _)⟩
  · obtain ⟨x, hread, hx⟩ := records_blaming.1 htry
    cases x with
    | ok v => cases hx
    | error e =>
      cases hx
      have hevents := publishes_of_records_download hread
      obtain ⟨_ | pieces, hdownload, hdata⟩ := Downloads.of_leaves hread.leaves
      · cases hdata
        exact .inr ⟨_, rfl, fun _ _ => .fail (.inl ⟨e, hdownload, rfl⟩) (hevents _ _)⟩
      · cases hdata

/-- Something for each bootstrap file, by name. -/
def forBootstrapFiles (a b c d : α) (file : String) : α :=
  if file = prodSignCertFile then a
  else if file = terminalCertFile then b
  else if file = tempLoadCertFile then c
  else d

theorem tells_of_records_readBootstrap {steps : List (Step Event)}
    {r : Except Failure ProvisioningRequest} (hrecords : Records (readBootstrap cfg) steps r) :
    ∃ rest, steps = .published (.stage .readingBootstrapFiles) :: rest ∧
      ∃ text pieces, Tells cfg url (bootstrapPhases text pieces) rest (r.map fun _ => ()) ∧
        ∀ request, r = .ok request → request = requestOf text := by
  -- One read of the four and what comes after it.
  have hread : ∀ {β file} {k : String → Task β} {steps} {r : Except Failure β},
      Records (readText cfg file >>= k) steps r →
        (∃ text pieces first rest, steps = first ++ rest ∧
          Tells cfg url [.download file text pieces] first (.ok ()) ∧ Records (k text) rest r) ∨
        ∃ f, r = .error f ∧
          ∀ text pieces, Tells cfg url [.download file text pieces] steps (.error f) := by
    intro β file k steps r hrecords
    rcases records_bind.1 hrecords with ⟨first, _, rest, rfl, hfirst, hrest⟩ | ⟨f, hfirst, rfl⟩
    · obtain ⟨text, pieces, htext, htells⟩ | ⟨_, htext, -⟩ := tells_of_records_readText url hfirst
      · cases htext
        exact .inl ⟨_, _, _, _, rfl, htells, hrest⟩
      · cases htext
    · obtain ⟨_, _, htext, -⟩ | ⟨_, htext, htells⟩ := tells_of_records_readText url hfirst
      · cases htext
      · cases htext
        exact .inr ⟨_, rfl, htells⟩
  obtain ⟨steps, rfl, hbody⟩ := records_enter_bind.1 hrecords
  refine ⟨steps, rfl, ?_⟩
  obtain ⟨a, as, first, rest, rfl, ha, hlater⟩ | ⟨f, rfl, ha⟩ := hread hbody
  case inr =>
    refine ⟨forBootstrapFiles "" "" "" "", fun _ => [], ?_, fun _ hr => by cases hr⟩
    exact (ha _ _).append_error
  obtain ⟨b, bs, second, rest, rfl, hb, hlater⟩ | ⟨f, rfl, hb⟩ := hread hlater
  case inr =>
    refine ⟨forBootstrapFiles a "" "" "", forBootstrapFiles as [] [] [], ?_,
      fun _ hr => by cases hr⟩
    exact ha.append (hb _ _).append_error
  obtain ⟨c, cs, third, rest, rfl, hc, hlater⟩ | ⟨f, rfl, hc⟩ := hread hlater
  case inr =>
    refine ⟨forBootstrapFiles a b "" "", forBootstrapFiles as bs [] [], ?_, fun _ hr => by cases hr⟩
    exact ha.append (hb.append (hc _ _).append_error)
  obtain ⟨d, ds, fourth, rest, rfl, hd, hlater⟩ | ⟨f, rfl, hd⟩ := hread hlater
  case inr =>
    refine ⟨forBootstrapFiles a b c "", forBootstrapFiles as bs cs [], ?_, fun _ hr => by cases hr⟩
    exact ha.append (hb.append (hc.append (hd _ _)))
  obtain ⟨rfl, rfl⟩ := records_pure.1 hlater
  refine ⟨forBootstrapFiles a b c d, forBootstrapFiles as bs cs ds, ?_,
    fun _ hr => by cases hr; rfl⟩
  rw [List.append_nil]
  exact ha.append (hb.append (hc.append hd))

theorem tells_of_records_contactHost {text : String → String} {steps : List (Step Event)}
    {r : Except Failure ProvisioningResponse}
    (hrecords : Records (contactHost cfg url (requestOf text)) steps r) :
    ∃ rest, steps = .published (.stage .contactingHost) :: rest ∧
      ((∃ response, r = .ok response ∧
        Tells cfg url (hostPhases cfg text response) rest (.ok ())) ∨
      ∃ f, r = .error f ∧
        ∀ response, Tells cfg url (hostPhases cfg text response) rest (.error f)) := by
  obtain ⟨steps, rfl, hbody⟩ := records_enter_bind.1 hrecords
  refine ⟨steps, rfl, ?_⟩
  rcases records_bind.1 hbody with ⟨shown, _, rest, rfl, hprompt, hask⟩ | ⟨f, hprompt, rfl⟩
  case inr =>
    exact .inr ⟨f, rfl, fun _ => (tells_of_records_prompt url hprompt).append_error⟩
  have hprompt := tells_of_records_prompt url hprompt
  obtain ⟨x, hgen, rfl⟩ := records_blaming.1 hask
  cases hgen with
  | @post _ _ _ answer _ _ hread =>
    cases answer with
    | error e =>
      cases hread
      exact .inr ⟨_, rfl, fun _ => hprompt.append (.fail ⟨e, rfl, .inl rfl⟩ rfl)⟩
    | ok answer =>
      cases hread
      cases hresponse : ProvisioningResponse.ofBytes answer with
      | error e =>
        exact .inr ⟨_, rfl, fun _ =>
          hprompt.append (.fail ⟨e, rfl, .inr ⟨answer, rfl, hresponse⟩⟩ rfl)⟩
      | ok response =>
        exact .inl ⟨response, rfl,
          hprompt.append (.single (.single_pass ⟨answer, rfl, hresponse⟩) rfl)⟩

theorem tells_of_records_writeKeyFile {name : String} {content : Bytes}
    {steps : List (Step Event)} {r : Except Failure Unit}
    (hrecords : Records (writeKeyFile cfg ⟨name, content⟩) steps r) :
    Tells cfg url [.upload name content] steps r := by
  have hupload : ∀ {steps r}, Records (blaming (.uploadFailed name)
      (upload content cfg.interface name cfg.upload (.upload name))) steps r →
        Tells cfg url [.upload name content] steps (r.map fun _ => ()) := by
    refine tells_of_records_blaming url (.upload name content) (fun talk n h => ?_)
      (fun _ e h => ⟨e, .of_leaves h, rfl⟩) fun steps x h => ?_
    · have hwritten := Uploads.of_leaves h
      rwa [hwritten.eq_length] at hwritten
    · obtain ⟨counts, hprogress, hevents⟩ := progresses_of_records_upload h
      exact ⟨x, counts, .of_leaves h.leaves, hprogress, hevents⟩
  rcases records_bind.1 hrecords with ⟨first, n, second, rfl, hwritten, hend⟩ | ⟨f, hfailed, rfl⟩
  · obtain ⟨rfl, rfl⟩ := records_pure.1 hend
    rw [List.append_nil]
    exact hupload hwritten
  · exact hupload hfailed

/-- Key files are written one after the other. -/
theorem tells_of_records_writeKeyFiles {content : String → Bytes} {names : List String}
    {steps : List (Step Event)} {r : Except Failure Unit}
    (hrecords :
      Records ((names.map fun name => ⟨name, content name⟩).forM (writeKeyFile cfg)) steps r) :
    Tells cfg url (names.map fun name => .upload name (content name)) steps r := by
  induction names generalizing steps r with
  | nil =>
    obtain ⟨rfl, rfl⟩ := records_pure.1 hrecords
    exact .done
  | cons name rest ih =>
    rw [List.map_cons, List.forM_eq_forM, List.forM_cons] at hrecords
    rcases records_bind.1 hrecords with ⟨first, _, second, rfl, hwritten, hrest⟩ | ⟨f, hfailed, rfl⟩
    · exact (tells_of_records_writeKeyFile url hwritten).append (ih hrest)
    · rw [List.map_cons, ← List.singleton_append]
      exact (tells_of_records_writeKeyFile url hfailed).append_error

theorem tells_of_records_injectKeys {response : ProvisioningResponse} {steps : List (Step Event)}
    {r : Except Failure Unit} (hrecords : Records (injectKeys cfg response) steps r) :
    ∃ rest, steps = .published (.stage .injectingKeys) :: rest ∧
      Tells cfg url (keyPhases cfg response (contentOf response)) rest r := by
  have hphases : keyPhases cfg response (contentOf response) =
      [.prompt cfg.prompts.received] ++ ([.derive response (contentOf response)] ++
        ((keyFiles.map fun file => .upload file (contentOf response file)) ++ [.keyImport])) := rfl
  rw [hphases]
  obtain ⟨steps, rfl, hbody⟩ := records_enter_bind.1 hrecords
  refine ⟨steps, rfl, ?_⟩
  rcases records_bind.1 hbody with ⟨shown, _, rest, rfl, hprompt, hrest⟩ | ⟨f, hprompt, rfl⟩
  case inr => exact (tells_of_records_prompt url hprompt).append_error
  refine (tells_of_records_prompt url hprompt).append ?_
  split at hrest
  case h_1 file e hderive =>
    obtain ⟨rfl, rfl⟩ := records_throw.1 hrest
    obtain ⟨before, k, after, cause, hfields, hbefore, hhex, hdecode, rfl, rfl⟩ :=
      deriveKeyFiles_eq_error hderive
    exact .fail ⟨rfl, before, k, after, cause, hfields, hbefore, hhex, hdecode, rfl⟩ rfl
  case h_2 files hderive =>
    obtain ⟨rfl, hcontent⟩ := deriveKeyFiles_eq_ok hderive
    have hderived : (Phase.derive response (contentOf response)).Passes cfg url (talkOf []) :=
      ⟨rfl, hcontent⟩
    rw [← List.nil_append rest]
    refine .append (.single (.single_pass hderived) rfl) ?_
    rcases records_bind.1 hrest with ⟨written, _, rest, rfl, hwrite, hlast⟩ | ⟨f, hwrite, rfl⟩
    · refine (tells_of_records_writeKeyFiles url hwrite).append ?_
      have himport : ∀ {steps r},
          Records (blaming .importFailed (Device.keyImport cfg.interface)) steps r →
            Tells cfg url [.keyImport] steps (r.map fun _ => ()) :=
        tells_of_records_blaming url .keyImport (fun _ _ h => Imports.of_leaves h)
          (fun _ e h => ⟨e, .of_leaves h, rfl⟩)
          fun _ _ => (only_keyImport (Request.exchanged_isTalk _ _)).eventsOf_eq_nil
      have hlast := himport hlast
      cases r <;> exact hlast
    · exact (tells_of_records_writeKeyFiles url hwrite).append_error

/-! ## The last part, taken apart at the last prompt -/

def confirmState (cfg : Config) : Task SecureState := do
  enter .confirmingState
  let state ← blaming .statusUnavailable (Device.secureState cfg.interface)
  if state.initialised then throw .unexpectedlyStillInitialised
  if !state.anyKeyReady then throw .noKeyReady
  return state

/-- Shows the last prompt, with keys in place. -/
def showLast (cfg : Config) (state : SecureState) : Task Report := do
  match ← ExceptT.lift (Device.display cfg.interface cfg.prompts.complete).run with
  | .ok () => return ⟨state, none⟩
  | .error e =>
    emit (.displayWarning e.message)
    return ⟨state, some e⟩

theorem confirm_eq (cfg : Config) : confirm cfg = confirmState cfg >>= showLast cfg := by
  simp only [confirm, confirmState, bind_assoc]
  congr 1
  funext _
  congr 1
  funext state
  cases state.initialised <;> cases state.anyKeyReady <;> rfl

def warningOf : Except Error Unit → Option Error
  | .ok () => none
  | .error e => some e

theorem shows_of_records_showLast {state : SecureState} {steps : List (Step Event)}
    {r : Except Failure Report} (hrecords : Records (showLast cfg state) steps r) :
    ∃ x, Shows cfg cfg.prompts.complete (talkOf steps) x ∧ r = .ok ⟨state, warningOf x⟩ ∧
      eventsOf steps = warnings .bestEffort x := by
  rcases records_bind.1 hrecords with ⟨shown, x, rest, rfl, hdisplay, hend⟩ | ⟨f, hdisplay, -⟩
  case inr =>
    obtain ⟨_, hx, -⟩ := shows_of_records hdisplay
    cases hx
  obtain ⟨_, hx, hshows, hquiet⟩ := shows_of_records hdisplay
  cases hx
  cases x with
  | ok _ =>
    obtain ⟨rfl, rfl⟩ := records_pure.1 hend
    rw [List.append_nil]
    exact ⟨_, hshows, rfl, hquiet⟩
  | error e =>
    obtain ⟨rest, rfl, hreport⟩ := records_emit_bind.1 hend
    obtain ⟨rfl, rfl⟩ := records_pure.1 hreport
    refine ⟨.error e, ?_, rfl, by rw [eventsOf_append, hquiet]; rfl⟩
    simpa [talkOf, Step.isTalk] using hshows

/-- The keys are found in place, or they are not, whatever state was expected. -/
theorem passes_or_fails_of_records_confirmState {steps : List (Step Event)}
    {r : Except Failure SecureState} (hrecords : Records (confirmState cfg) steps r) :
    ∃ rest, steps = .published (.stage .confirmingState) :: rest ∧ eventsOf rest = [] ∧
      ((∃ state, r = .ok state ∧ (Phase.confirm state).Passes cfg url (talkOf rest)) ∨
        ∃ f, r = .error f ∧ ∀ state, (Phase.confirm state).Fails cfg url (talkOf rest) f) := by
  obtain ⟨steps, rfl, hbody⟩ := records_enter_bind.1 hrecords
  refine ⟨steps, rfl, ?_⟩
  rcases records_bind.1 hbody with ⟨queried, state, rest, rfl, hasked, hjudge⟩ | ⟨f, hasked, rfl⟩
  case inr =>
    obtain ⟨hquiet, ⟨_, hstate, -⟩ | ⟨e, hstate, hquery⟩⟩ := queries_of_records hasked
    · cases hstate
    · cases hstate
      exact ⟨hquiet, .inr ⟨_, rfl, fun _ => .inl ⟨e, hquery, rfl⟩⟩⟩
  obtain ⟨hquiet, ⟨_, hstate, hquery⟩ | ⟨_, hstate, -⟩⟩ := queries_of_records hasked
  case inr => cases hstate
  cases hstate
  cases hactive : state.initialised <;> cases hready : state.anyKeyReady <;>
    rw [hactive, hready] at hjudge
  case false.true =>
    obtain ⟨rfl, rfl⟩ := records_pure.1 hjudge
    rw [List.append_nil]
    exact ⟨hquiet, .inl ⟨state, rfl, hquery, hactive, hready⟩⟩
  case false.false =>
    obtain ⟨rfl, rfl⟩ := records_throw.1 hjudge
    rw [List.append_nil]
    exact ⟨hquiet, .inr ⟨_, rfl, fun _ => .inr ⟨state, hquery, .inr ⟨hactive, hready, rfl⟩⟩⟩⟩
  all_goals
    obtain ⟨rfl, rfl⟩ := records_throw.1 hjudge
    rw [List.append_nil]
    exact ⟨hquiet, .inr ⟨_, rfl, fun _ => .inr ⟨state, hquery, .inl ⟨hactive, rfl⟩⟩⟩⟩

theorem tells_of_records_confirm {steps : List (Step Event)} {r : Except Failure Report}
    (hrecords : Records (confirm cfg) steps r) :
    ∃ rest, steps = .published (.stage .confirmingState) :: rest ∧
      ((∃ report, r = .ok report ∧ Tells cfg url (endPhases report) rest (.ok ())) ∨
        ∃ f, r = .error f ∧ ∀ report, Tells cfg url (endPhases report) rest (.error f)) := by
  rw [confirm_eq] at hrecords
  rcases records_bind.1 hrecords with ⟨queried, _, rest, rfl, hconfirm, hlast⟩ | ⟨f, hconfirm, rfl⟩
  · obtain ⟨queried, rfl, hquiet, ⟨state, hstate, hconfirmed⟩ | ⟨_, hstate, -⟩⟩ :=
      passes_or_fails_of_records_confirmState url hconfirm
    · cases hstate
      obtain ⟨x, hshows, rfl, hevents⟩ := shows_of_records_showLast hlast
      refine ⟨queried ++ rest, rfl, .inl ⟨_, rfl, .pass hconfirmed hquiet ?_⟩⟩
      refine .single (.single_pass ?_) ⟨x, hshows, hevents⟩
      cases x <;> exact hshows
    · cases hstate
  · obtain ⟨queried, rfl, hquiet, ⟨_, hstate, -⟩ | ⟨_, hstate, hfails⟩⟩ :=
      passes_or_fails_of_records_confirmState url hconfirm
    · cases hstate
    · cases hstate
      exact ⟨queried, rfl, .inr ⟨f, rfl, fun report => .fail (hfails report.state) hquiet⟩⟩

/-! ## Whole injections -/

/-- An injection goes through its stages in order, to the end if it succeeds, and otherwise up to
the stage with the phase whose failure it ends in. -/
theorem narrates_of_records_steps {record : List (Step Event)} {r : Except Failure Report}
    (hrecords : Records (steps cfg url) record r) :
    ∃ text pieces response content report parts, record = recordOf parts ∧
      Narrates cfg url (chapters cfg text pieces response content report) parts
        (r.map fun _ => ()) ∧
      ∀ result, r = .ok result → result = report := by
  -- What is not known when a failure ends the injection.
  let noResponse : ProvisioningResponse := ⟨"", "", "", "", "", "", ""⟩
  let noReport : Report := ⟨⟨false, false, false⟩, none⟩
  rcases records_bind.1 hrecords with ⟨_, _, _, rfl, hinitialise, hstarted⟩ |
    ⟨f, hinitialise, rfl⟩
  case inr =>
    obtain ⟨started, rfl, hstart⟩ := tells_of_records_initialise url hinitialise
    exact ⟨fun _ => "", fun _ => [], noResponse, contentOf noResponse, noReport,
      [(.initialising, started)], by simp, .fail hstart, fun _ hr => by cases hr⟩
  obtain ⟨started, rfl, hstart⟩ := tells_of_records_initialise url hinitialise
  rcases records_bind.1 hstarted with ⟨_, request, _, rfl, hbootstrap, hbrought⟩ |
    ⟨f, hbootstrap, rfl⟩
  case inr =>
    obtain ⟨read, rfl, text, pieces, hread, -⟩ := tells_of_records_readBootstrap url hbootstrap
    exact ⟨text, pieces, noResponse, contentOf noResponse, noReport,
      [(.initialising, started), (.readingBootstrapFiles, read)], by simp,
      .pass hstart (.fail hread), fun _ hr => by cases hr⟩
  obtain ⟨read, rfl, text, pieces, hread, hrequest⟩ := tells_of_records_readBootstrap url hbootstrap
  obtain rfl := hrequest request rfl
  rcases records_bind.1 hbrought with ⟨_, response, _, rfl, hcontact, hanswered⟩ |
    ⟨f, hcontact, rfl⟩
  case inr =>
    obtain ⟨asked, rfl, ⟨_, hr, -⟩ | ⟨_, hr, hhost⟩⟩ := tells_of_records_contactHost url hcontact
    · cases hr
    · cases hr
      exact ⟨text, pieces, noResponse, contentOf noResponse, noReport,
        [(.initialising, started), (.readingBootstrapFiles, read), (.contactingHost, asked)],
        by simp, .pass hstart (.pass hread (.fail (hhost _))), fun _ hr => by cases hr⟩
  obtain ⟨asked, rfl, ⟨_, hr, hhost⟩ | ⟨_, hr, -⟩⟩ := tells_of_records_contactHost url hcontact
  case inr => cases hr
  cases hr
  rcases records_bind.1 hanswered with ⟨_, _, _, rfl, hinject, himported⟩ | ⟨f, hinject, rfl⟩
  case inr =>
    obtain ⟨written, rfl, hkeys⟩ := tells_of_records_injectKeys url hinject
    exact ⟨text, pieces, response, contentOf response, noReport,
      [(.initialising, started), (.readingBootstrapFiles, read), (.contactingHost, asked),
        (.injectingKeys, written)],
      by simp, .pass hstart (.pass hread (.pass hhost (.fail hkeys))), fun _ hr => by cases hr⟩
  obtain ⟨written, rfl, hkeys⟩ := tells_of_records_injectKeys url hinject
  obtain ⟨confirmed, rfl, hend⟩ := tells_of_records_confirm url himported
  let parts := [(Stage.initialising, started), (.readingBootstrapFiles, read),
    (.contactingHost, asked), (.injectingKeys, written), (.confirmingState, confirmed)]
  obtain ⟨report, rfl, hend⟩ | ⟨f, rfl, hend⟩ := hend
  · exact ⟨text, pieces, response, contentOf response, report, parts, by simp [parts],
      .pass hstart (.pass hread (.pass hhost (.pass hkeys (.pass hend .done)))),
      fun _ hr => by cases hr; rfl⟩
  · exact ⟨text, pieces, response, contentOf response, noReport, parts, by simp [parts],
      .pass hstart (.pass hread (.pass hhost (.pass hkeys (.fail (hend _))))),
      fun _ hr => by cases hr⟩

def finish : Except Failure Report → Session Event (Except Failure Report)
  | .ok report => .publish (.stage .complete) (.done (.ok report))
  | .error f => .publish (.stage .failed) (.done (.error f))

theorem inject_eq (cfg : Config) (url : String) :
    inject cfg url = .publish (.stage .idle) ((steps cfg url).run.bind finish) := by
  show Session.publish _ ((steps cfg url).run.bind _) = _
  congr 2
  funext result
  cases result <;> rfl

def lastStage : Except Failure α → Stage
  | .ok _ => .complete
  | .error _ => .failed

/-- The record of an injection is that of its steps, between the first stage and the last. -/
theorem records_of_generates_inject {record : List (Step Event)} {r : Except Failure Report}
    (hgen : Session.Generates (inject cfg url) record r) :
    ∃ told, record = .published (.stage .idle) :: told ++ [.published (.stage (lastStage r))] ∧
      Records (steps cfg url) told r := by
  rw [inject_eq] at hgen
  cases hgen with
  | publish hgen =>
    obtain ⟨first, result, last, rfl, hsteps, hend⟩ := Session.generates_bind.1 hgen
    cases result <;> cases hend with
    | publish hdone =>
      cases hdone
      exact ⟨first, rfl, hsteps⟩

/-- The record of a run of an injection: the first stage, the stages that it goes through, and the
last. -/
theorem narrates_of_inject (w : Surroundings σ) (cfg : Config) (url : String) (s : σ) :
    let out := (inject cfg url).run w s
    ∃ text pieces response content report parts,
      out.steps = .published (.stage .idle) :: recordOf parts ++
        [.published (.stage (lastStage out.value))] ∧
      Narrates cfg url (chapters cfg text pieces response content report) parts
        (out.value.map fun _ => ()) ∧
      ∀ result, out.value = .ok result → result = report := by
  obtain ⟨told, hrecord, hsteps⟩ :=
    records_of_generates_inject url (Session.generates_run w (inject cfg url) s)
  obtain ⟨text, pieces, response, content, report, parts, rfl, hnarrates⟩ :=
    narrates_of_records_steps url hsteps
  exact ⟨text, pieces, response, content, report, parts, hrecord, hnarrates⟩

end KeyInjection.Injection
