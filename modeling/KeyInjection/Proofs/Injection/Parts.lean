-- SUMMARY: An injection taken apart at its prompts, and the steps that its parts take.
import KeyInjection.Proofs.Device.Steps
import KeyInjection.Proofs.Injection.Dialogue
import KeyInjection.Proofs.Session.Runs

/-!
# Parts of injections

Three stages begin with a prompt, and one prompt is shown when all else is done. Taken apart there,
an injection consists of announcements, which enter a stage and show its prompt, of work that shows
nothing, and of the last prompt. All but the last prompt is the preparation of the injection.
`Permits` collects what a property of steps must hold of, to hold of all steps of the work.
-/

namespace KeyInjection.Injection

open Device Transfer

variable {σ : Type} {cfg : Config} {url : String}

/-! ## Announcements and work -/

def announce (cfg : Config) (s : Stage) (text : String) : Task Unit := do
  enter s
  prompt cfg text

def start (cfg : Config) : Task Unit := do
  blaming .initialiseFailed (Device.secureInit cfg.interface)
  let state ← blaming (fun _ => .initialiseNotConfirmed) (Device.secureState cfg.interface)
  if !state.initialised then throw .initialiseNotConfirmed

def askHost (url : String) (r : ProvisioningRequest) : Task ProvisioningResponse :=
  blaming .host (ExceptT.mk (Session.requestProvisioning url r))

def writeKeys (cfg : Config) (files : List KeyFile) : Task Unit := do
  files.forM (writeKeyFile cfg)
  blaming .importFailed (Device.keyImport cfg.interface)

def deriveAndWrite (cfg : Config) (r : ProvisioningResponse) : Task Unit :=
  match deriveKeyFiles r with
  | .error (file, e) => throw (.keyDecodeFailed file e)
  | .ok files => writeKeys cfg files

theorem initialise_eq (cfg : Config) :
    initialise cfg =
      announce cfg .initialising cfg.prompts.preparing >>= fun _ => start cfg := by
  rw [announce, bind_assoc]
  rfl

theorem contactHost_eq (cfg : Config) (url : String) (r : ProvisioningRequest) :
    contactHost cfg url r =
      announce cfg .contactingHost cfg.prompts.connecting >>= fun _ => askHost url r := by
  rw [announce, bind_assoc]
  rfl

theorem injectKeys_eq (cfg : Config) (r : ProvisioningResponse) :
    injectKeys cfg r =
      announce cfg .injectingKeys cfg.prompts.received >>= fun _ => deriveAndWrite cfg r := by
  rw [announce, bind_assoc]
  rfl

/-! ## The last prompt and what comes before -/

/-- Everything before the last prompt. -/
def prepare (cfg : Config) (url : String) : Task SecureState := do
  initialise cfg
  let request ← readBootstrap cfg
  let response ← contactHost cfg url request
  injectKeys cfg response
  confirmState cfg

/-- What an injection does after its preparation. -/
def conclude (cfg : Config) : Except Failure SecureState → Session Event (Except Failure Report)
  | .ok state => (showLast cfg state).run.bind finish
  | .error f => finish (.error f)

theorem steps_eq (cfg : Config) (url : String) :
    steps cfg url = prepare cfg url >>= showLast cfg := by
  simp only [steps, prepare, confirm_eq, bind_assoc]

theorem inject_eq_prepare (cfg : Config) (url : String) :
    inject cfg url = .publish (.stage .idle) ((prepare cfg url).run.bind (conclude cfg)) := by
  have hsteps : (steps cfg url).run =
      (prepare cfg url).run.bind (ExceptT.bindCont (showLast cfg)) := by
    rw [steps_eq]
    rfl
  rw [inject_eq, hsteps, Session.bind_assoc]
  congr 2
  funext result
  cases result <;> rfl

/-- A run of an injection is one of its stages, between the first stage and the last. -/
theorem run_inject_steps (w : Surroundings σ) (cfg : Config) (url : String) (s : σ) :
    (inject cfg url).run w s =
      let out := (steps cfg url).run.run w s
      { out with
        steps := .published (.stage .idle) ::
          (out.steps ++ [.published (.stage (lastStage out.value))]) } := by
  have hfinish : ∀ x s, (finish x).run w s = ⟨x, s, [.published (.stage (lastStage x))]⟩ := by
    intro x s
    cases x <;> rfl
  rw [inject_eq, Session.run_publish, Session.run_bind]
  dsimp only
  rw [hfinish]

/-- A run of an injection is one of its preparation and one of the rest. -/
theorem run_inject_eq (w : Surroundings σ) (cfg : Config) (url : String) (s : σ) :
    (inject cfg url).run w s =
      let prepared := (prepare cfg url).run.run w s
      let rest := (conclude cfg prepared.value).run w prepared.state
      { rest with steps := .published (.stage .idle) :: (prepared.steps ++ rest.steps) } := by
  rw [inject_eq_prepare, Session.run_publish, Session.run_bind]

/-! ## Steps of the work -/

/-- Asking the key host is one request. -/
theorem only_askHost {P : Step Event → Prop} {r : ProvisioningRequest}
    (hpost : ∀ url body answer, P (.posted url body answer)) : Only P (askHost url r) := by
  refine only_blaming fun steps x hrecords => ?_
  cases hrecords with
  | @post _ _ _ answer _ _ hdone =>
    cases answer <;> cases hdone <;> simpa using hpost _ _ _

theorem only_prompt {P : Step Event → Prop} {text : String}
    (hdisplay : (Request.display (.prompt text)).Exchanged P cfg.interface)
    (hwarning : ∀ message, P (.published (.displayWarning message))) :
    Only P (prompt cfg text) := by
  refine (Only.lift_run (only_command hdisplay)).bind fun x => ?_
  cases x with
  | ok v => exact .pure v
  | error e =>
    dsimp only
    split
    · exact .emit (hwarning _)
    · exact .throw _

theorem only_announce {P : Step Event → Prop} {s : Stage} {text : String}
    (hstage : P (.published (.stage s)))
    (hdisplay : (Request.display (.prompt text)).Exchanged P cfg.interface)
    (hwarning : ∀ message, P (.published (.displayWarning message))) :
    Only P (announce cfg s text) :=
  (Only.emit hstage).bind fun _ => only_prompt hdisplay hwarning

theorem only_showLast {P : Step Event → Prop} {state : SecureState}
    (hdisplay : (Request.display (.prompt cfg.prompts.complete)).Exchanged P cfg.interface)
    (hwarning : ∀ message, P (.published (.displayWarning message))) :
    Only P (showLast cfg state) := by
  refine (Only.lift_run (only_command hdisplay)).bind fun x => ?_
  cases x with
  | ok v => exact .pure _
  | error e => exact (Only.emit (hwarning _)).bind fun _ => .pure _

/-- The property holds of every step that the work of an injection takes on the terminal, and of
every report of it. -/
structure Permits (cfg : Config) (P : Step Event → Prop) : Prop where
  exchanged {r : Request} (hother : r.instruction ≠ .display) : r.Exchanged P cfg.interface
  downloaded (file : String) (share : Share) : P (.published (.download file share))
  uploaded (file : String) (sent : Nat) : P (.published (.upload file sent))

namespace Permits

variable {P : Step Event → Prop} (hpermits : Permits cfg P)
include hpermits

theorem only_secureState {f : Error → Failure} :
    Only P (blaming f (Device.secureState cfg.interface)) :=
  only_blaming (only_request (hpermits.exchanged (r := .secureState) nofun) _)

theorem only_start : Only P (start cfg) := by
  refine (only_blaming (only_command (hpermits.exchanged (r := .secureInit) nofun))).bind fun _ =>
    hpermits.only_secureState.bind fun state => ?_
  split
  · exact .throw _
  · exact .pure ()

theorem only_readText (file : String) : Only P (readText cfg file) := by
  refine (only_blaming (only_download (hpermits.exchanged nofun)
    (fun _ => hpermits.exchanged nofun) (hpermits.downloaded file))).bind fun data => ?_
  split
  · exact .pure _
  · exact .throw _

theorem only_readBootstrap (hstage : P (.published (.stage .readingBootstrapFiles))) :
    Only P (readBootstrap cfg) :=
  (Only.emit hstage).bind fun _ => (hpermits.only_readText _).bind fun _ =>
    (hpermits.only_readText _).bind fun _ => (hpermits.only_readText _).bind fun _ =>
      (hpermits.only_readText _).bind fun _ => .pure _

theorem only_writeKeyFile (f : KeyFile) : Only P (writeKeyFile cfg f) :=
  (only_blaming (only_upload _ (hpermits.exchanged nofun)
    (fun _ => hpermits.exchanged nofun) (hpermits.uploaded f.name))).bind fun _ => .pure _

theorem only_keyImport : Only P (blaming .importFailed (Device.keyImport cfg.interface)) :=
  only_blaming (Device.only_keyImport (hpermits.exchanged nofun))

theorem only_deriveAndWrite (r : ProvisioningResponse) : Only P (deriveAndWrite cfg r) := by
  unfold deriveAndWrite
  split
  case h_1 => exact .throw _
  case h_2 files _ =>
    exact (Only.forM fun f _ => hpermits.only_writeKeyFile f).bind fun _ => hpermits.only_keyImport

theorem only_confirmState (hstage : P (.published (.stage .confirmingState))) :
    Only P (confirmState cfg) :=
  (Only.emit hstage).bind fun _ => hpermits.only_secureState.bind fun _ =>
    .check (.check (.pure _))

end Permits

end KeyInjection.Injection
