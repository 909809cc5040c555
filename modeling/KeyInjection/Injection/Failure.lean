-- SUMMARY: Stages, events, configuration, report and failures of an injection.
import KeyInjection.Error
import KeyInjection.Apdu.Secure
import KeyInjection.Transfer.Options
import KeyInjection.Transfer.Pace

/-!
# Injections

The vocabulary of an injection: the stages it goes through, the events it publishes, how it is
configured, what it reports when it succeeds, and why it fails. A failure names the step that
failed and, where an operation failed there, carries that operation's own failure, whose kind it
takes over. Three failures have no such cause: the terminal then answered every command, but its
secure storage is in a wrong state.
-/

namespace KeyInjection.Injection

inductive Stage where
  | idle
  | initialising
  | readingBootstrapFiles
  | contactingHost
  | injectingKeys
  | confirmingState
  | complete
  | failed
  deriving DecidableEq, Repr

namespace Stage

/-- The stages in the order they are gone through, success before failure. -/
def all : List Stage :=
  [idle, initialising, readingBootstrapFiles, contactingHost, injectingKeys, confirmingState,
    complete, failed]

def name : Stage → String
  | idle => "Idle"
  | initialising => "Initialising"
  | readingBootstrapFiles => "ReadingBootstrapFiles"
  | contactingHost => "ContactingHost"
  | injectingKeys => "InjectingKeys"
  | confirmingState => "ConfirmingState"
  | complete => "Complete"
  | failed => "Failed"

end Stage

/-- What an injection tells while it runs. -/
inductive Event where
  | stage (s : Stage)
  /-- A share of a bootstrap file has been read. -/
  | download (file : String) (progress : Share)
  /-- So many bytes of a key file have been written. -/
  | upload (file : String) (sent : Nat)
  /-- A prompt could not be shown, and the injection goes on. -/
  | displayWarning (text : String)
  deriving DecidableEq, Repr

/-- What becomes of a prompt that cannot be shown before the keys are in place. -/
inductive PromptPolicy where
  | strict
  | bestEffort
  deriving DecidableEq, Repr

structure Prompts where
  preparing : String := "Preparing key injection"
  connecting : String := "Connecting to key host"
  received : String := "Keys received"
  complete : String := "Key injection complete"
  deriving DecidableEq, Repr

structure Config where
  /-- The interface that all commands use. -/
  interface : Interface := .primary
  download : TransferOptions := .download
  upload : TransferOptions := .upload
  policy : PromptPolicy := .strict
  prompts : Prompts := {}
  deriving DecidableEq, Repr

/-- What a successful injection reports. -/
structure Report where
  /-- The secure storage after the import. -/
  state : SecureState
  /-- Why the last prompt could not be shown; the keys are in place then. -/
  displayWarning : Option Error
  deriving DecidableEq, Repr

inductive Failure where
  | displayFailed (source : Error)
  | initialiseFailed (source : Error)
  | initialiseNotConfirmed
  | bootstrapDownloadFailed (file : String) (source : Error)
  | host (source : Error)
  | keyDecodeFailed (file : String) (source : Error)
  | uploadFailed (file : String) (source : Error)
  | importFailed (source : Error)
  | statusUnavailable (source : Error)
  | unexpectedlyStillInitialised
  | noKeyReady
  deriving DecidableEq, Repr

namespace Failure

/-- The failure of the operation that failed. -/
def source? : Failure → Option Error
  | displayFailed e | initialiseFailed e | bootstrapDownloadFailed _ e | host e
  | keyDecodeFailed _ e | uploadFailed _ e | importFailed e | statusUnavailable e => some e
  | initialiseNotConfirmed | unexpectedlyStillInitialised | noKeyReady => none

/-- The file that could not be read, derived or written. -/
def file? : Failure → Option String
  | bootstrapDownloadFailed file _ | keyDecodeFailed file _ | uploadFailed file _ => some file
  | _ => none

def kind (f : Failure) : ErrorKind :=
  match f.source? with
  | some e => e.kind
  | none => .state

def message : Failure → String
  | displayFailed e => s!"Display prompt failed: {e.message}"
  | initialiseFailed e => s!"Secure state initialisation failed: {e.message}"
  | initialiseNotConfirmed => "Secure state initialisation not confirmed"
  | bootstrapDownloadFailed file e => s!"Bootstrap download of '{file}' failed: {e.message}"
  | host e => s!"Key host request failed: {e.message}"
  | keyDecodeFailed file e => s!"Decoding key file '{file}' failed: {e.message}"
  | uploadFailed file e => s!"Upload of '{file}' failed: {e.message}"
  | importFailed e => s!"Key import failed: {e.message}"
  | statusUnavailable e => s!"Secure state unavailable: {e.message}"
  | unexpectedlyStillInitialised => "Secure state still initialised following import"
  | noKeyReady => "No keys ready following import"

end Failure

end KeyInjection.Injection
