-- SUMMARY: Carrying out an action of the command line.
import KeyInjection.CommandLine.Options
import KeyInjection.Injection.Run

/-!
# Carrying out actions

An action is a session whose events are log lines. It may end with bytes to be put into a local
file. A failure is told with its causes below it, each indented.
-/

namespace KeyInjection.CommandLine

-- ---------------------------------------------------------------------------
-- Failures
-- ---------------------------------------------------------------------------

/-- Why a failure happened, where something outside the library was the reason. -/
def causesOf : Error → List String
  | .io detail => [detail]
  | .hexDecode cause => [cause.message]
  | _ => []

inductive ActionFailure where
  | operation (e : Error)
  | injection (f : Injection.Failure)
  /-- A local file could not be opened or written. -/
  | localFile (detail : String)
  /-- No buffer has room for a piece of what is uploaded. -/
  | panicked
  deriving DecidableEq, Repr

namespace ActionFailure

def message : ActionFailure → String
  | operation e => e.message
  | injection f => f.message
  | localFile detail => detail
  | panicked => "capacity overflow"

/-- The wordings of its causes, the nearest first. -/
def causes : ActionFailure → List String
  | operation e => causesOf e
  | injection f => f.source?.elim [] fun e => e.message :: causesOf e
  | localFile _ | panicked => []

def exitCode : ActionFailure → UInt32
  | panicked => 101
  | _ => 1

/-- A cause below a failure; if there are several they are numbered. -/
def causeText (number : Option Nat) (text : String) : String :=
  match number with
  | none => "    " ++ text.replace "\n" "\n    "
  | some n => s!"    {n}: " ++ text.replace "\n" "\n       "

def text (f : ActionFailure) : String :=
  let causes := match f.causes with
    | [] => []
    | [cause] => ["", "Caused by:", causeText none cause]
    | several => "" :: "Caused by:" :: several.mapIdx fun n cause => causeText (some n) cause
  let heading := if f = panicked then "thread 'main' panicked: " else "Error: "
  "\n".intercalate ((heading ++ f.message) :: causes)

end ActionFailure

-- ---------------------------------------------------------------------------
-- Local files
-- ---------------------------------------------------------------------------

/-- The content of a local file, and why reading on failed if it did. -/
structure LocalFile where
  rest : Bytes
  failure : Option String := none
  deriving DecidableEq, Repr

def LocalFile.source : ByteSource LocalFile where
  read room f :=
    match f.rest, f.failure with
    | [], some detail => (.error detail, f)
    | _, _ => (.ok (f.rest.take room), { f with rest := f.rest.drop room })
  close f := f

-- ---------------------------------------------------------------------------
-- Actions
-- ---------------------------------------------------------------------------

abbrev Job := Attempt LogLine ActionFailure

def say (level : LogLevel) (text : String) : Job Unit := ExceptT.lift (Session.emit ⟨level, text⟩)

/-- Takes the failure of an operation as the failure of the action. -/
def operation (a : Attempt LogLine Error α) : Job α := ExceptT.adapt .operation a

def tellSecureState (i : Interface) : Job Unit := do
  let s ← operation (Device.secureState i)
  say .info s!"initialised: {s.initialised}"
  say .info s!"pin key ready: {s.pinKeyReady}"
  say .info s!"sred key ready: {s.sredKeyReady}"

def shareLine (level : LogLevel) (file : String) (p : Share) : LogLine :=
  ⟨level, s!"{file}: {p.percent}%"⟩

def countLine (level : LogLevel) (file : String) (n : Nat) : LogLine :=
  ⟨level, s!"{file}: {n} bytes"⟩

/-- The text that tells a content: as it is if it is text, else in hexadecimal. -/
def contentText (b : Bytes) : String :=
  match Bytes.text? b with
  | some text => "content:\r\n" ++ text
  | none => s!"content (hex): {Hex.encode b}"

/-- Downloads a file; without a local file to put it in, its content is logged. -/
def downloadFile (i : Interface) (file : String) (output : Option String) (chunk : Nat) :
    Job (Option (String × Bytes)) := do
  say .info s!"Downloading '{file}'"
  let options := { TransferOptions.download with maxChunk := chunk }
  let content ← operation (Transfer.download i file options (shareLine .info file))
  match output with
  | none =>
    say .info (contentText content)
    return none
  | some path =>
    say .debug s!"Writing output to '{path}'"
    return some (path, content)

/-- Uploads a local file, if it could be opened. -/
def uploadFile (i : Interface) (file input : String) (chunk : Nat) (delayMs : UInt16)
    (opened : Except String LocalFile) : Job Unit := do
  say .debug s!"Reading input from '{input}'"
  match opened with
  | .error detail => throw (.localFile detail)
  | .ok content =>
    let options := { TransferOptions.upload with maxChunk := chunk, delayMs }
    let (result?, _) ← ExceptT.lift
      (Transfer.uploadFrom LocalFile.source content i file options (countLine .info file))
    let some result := result? | throw .panicked
    let n ← operation (ExceptT.mk (.done result))
    say .info s!"Uploaded {n} bytes to '{file}'"

def eventLine : Injection.Event → LogLine
  | .stage s => ⟨.info, s!"state: {s.name}"⟩
  | .download file p => shareLine .debug file p
  | .upload file n => countLine .debug file n
  | .displayWarning text => ⟨.warn, s!"display: {text}"⟩

def stateText (s : SecureState) : String :=
  "SecureState \x7b initialised: " ++ toString s.initialised ++ ", pin_key_ready: " ++
    toString s.pinKeyReady ++ ", sred_key_ready: " ++ toString s.sredKeyReady ++ " \x7d"

def injectKeys (i : Interface) (url : String) (bestEffort : Bool) : Job Unit := do
  say .info s!"Starting key injection via {url}"
  let cfg : Injection.Config :=
    { interface := i, policy := if bestEffort then .bestEffort else .strict }
  match ← ExceptT.lift ((Injection.inject cfg url).mapEvents eventLine) with
  | .ok report =>
    say .info s!"Key injection complete: {stateText report.state}"
    match report.displayWarning with
    | some e => say .warn s!"Confirmation prompt failed: {e.message}"
    | none => return ()
  | .error f =>
    say .error s!"Key injection failed ({f.kind.name}): {f.message}"
    throw (.injection f)

/-- The line that tells that there is no connection to the terminal. -/
def ActionOptions.unconnected (o : ActionOptions) : LogLine :=
  ⟨.error, s!"Failed to connect to terminal at {o.device.text}"⟩

/-- Carries out an action, given what became of opening the local file that it reads. -/
def Action.job (i : Interface) (opened : Except String LocalFile) :
    Action → Job (Option (String × Bytes))
  | .secureState => do tellSecureState i; return none
  | .display text => do operation (Device.display i text); return none
  | .download file output chunk => downloadFile i file output chunk
  | .upload file input chunk delayMs => do uploadFile i file input chunk delayMs opened; return none
  | .inject url _ _ bestEffort => do injectKeys i url bestEffort; return none

end KeyInjection.CommandLine
