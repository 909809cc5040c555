-- SUMMARY: Running an injection.
import KeyInjection.Injection.Failure
import KeyInjection.Injection.KeyFiles
import KeyInjection.KeyHost.Client
import KeyInjection.Transfer.Download
import KeyInjection.Transfer.Upload

/-!
# Running an injection

An injection goes through its stages once and in order, and stops at the first step that fails;
nothing is retried and nothing is undone. Prompts that cannot be shown are ignored under the
policy `bestEffort`, and the last one always is, since the keys are in place by then.
-/

namespace KeyInjection.Injection

/-- A part of an injection. -/
abbrev Task := Attempt Event Failure

def emit (e : Event) : Task Unit := ExceptT.lift (Session.emit e)

def enter (s : Stage) : Task Unit := emit (.stage s)

/-- Takes the failure of an operation as the failure of a step. -/
def blaming (f : Error → Failure) (a : Attempt Event Error α) : Task α :=
  ExceptT.mk do
    match ← a.run with
    | .ok v => return .ok v
    | .error e => return .error (f e)

/-- Shows a prompt before the keys are in place. -/
def prompt (cfg : Config) (text : String) : Task Unit := do
  match ← ExceptT.lift (Device.display cfg.interface text).run with
  | .ok () => return ()
  | .error e =>
    match cfg.policy with
    | .bestEffort => emit (.displayWarning e.message)
    | .strict => throw (.displayFailed e)

/-- Starts key injection mode, and makes sure that it is active. -/
def initialise (cfg : Config) : Task Unit := do
  enter .initialising
  prompt cfg cfg.prompts.preparing
  blaming .initialiseFailed (Device.secureInit cfg.interface)
  let state ← blaming (fun _ => .initialiseNotConfirmed) (Device.secureState cfg.interface)
  if !state.initialised then throw .initialiseNotConfirmed

def readText (cfg : Config) (file : String) : Task String := do
  let data ← blaming (.bootstrapDownloadFailed file)
    (Transfer.download cfg.interface file cfg.download (.download file))
  match Bytes.text? data with
  | some text => return text
  | none => throw (.bootstrapDownloadFailed file (.utf8 file))

/-- Reads the bootstrap files and makes the request for the key host of them. -/
def readBootstrap (cfg : Config) : Task ProvisioningRequest := do
  enter .readingBootstrapFiles
  let prodSignCert ← readText cfg prodSignCertFile
  let terminalCert ← readText cfg terminalCertFile
  let tempLoadCert ← readText cfg tempLoadCertFile
  let suggestedIksn ← readText cfg suggestedIksnFile
  return .ofFiles prodSignCert terminalCert tempLoadCert suggestedIksn

def contactHost (cfg : Config) (url : String) (r : ProvisioningRequest) :
    Task ProvisioningResponse := do
  enter .contactingHost
  prompt cfg cfg.prompts.connecting
  blaming .host (ExceptT.mk (Session.requestProvisioning url r))

def writeKeyFile (cfg : Config) (f : KeyFile) : Task Unit := do
  let _ ← blaming (.uploadFailed f.name)
    (Transfer.upload f.data cfg.interface f.name cfg.upload (.upload f.name))

/-- Derives, writes and imports the keys. -/
def injectKeys (cfg : Config) (r : ProvisioningResponse) : Task Unit := do
  enter .injectingKeys
  prompt cfg cfg.prompts.received
  match deriveKeyFiles r with
  | .error (file, e) => throw (.keyDecodeFailed file e)
  | .ok files =>
    files.forM (writeKeyFile cfg)
    blaming .importFailed (Device.keyImport cfg.interface)

/-- Makes sure that the keys are in place and shows the last prompt. -/
def confirm (cfg : Config) : Task Report := do
  enter .confirmingState
  let state ← blaming .statusUnavailable (Device.secureState cfg.interface)
  if state.initialised then throw .unexpectedlyStillInitialised
  if !state.anyKeyReady then throw .noKeyReady
  match ← ExceptT.lift (Device.display cfg.interface cfg.prompts.complete).run with
  | .ok () => return ⟨state, none⟩
  | .error e =>
    emit (.displayWarning e.message)
    return ⟨state, some e⟩

/-- The stages between idle and the end. -/
def steps (cfg : Config) (url : String) : Task Report := do
  initialise cfg
  let request ← readBootstrap cfg
  let response ← contactHost cfg url request
  injectKeys cfg response
  confirm cfg

def inject (cfg : Config) (url : String) : Session Event (Except Failure Report) := do
  Session.emit (.stage .idle)
  let result ← (steps cfg url).run
  match result with
  | .ok _ => Session.emit (.stage .complete)
  | .error _ => Session.emit (.stage .failed)
  return result

end KeyInjection.Injection
