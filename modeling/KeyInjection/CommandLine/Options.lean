-- SUMMARY: What a command line asks for.
import KeyInjection.Apdu.Header
import KeyInjection.CommandLine.Endpoint
import KeyInjection.CommandLine.Log
import KeyInjection.CommandLine.Scan
import KeyInjection.Device
import KeyInjection.KeyHost.Client
import KeyInjection.Text.Decimal
import KeyInjection.Transfer.Options

/-!
# Options

A command line either names an action on a terminal, with options in front that say how the
terminal is reached, or asks for a simulated terminal to be served. Two options may also be given
by the environment; a command line goes before the environment, and the environment before a
default.
-/

namespace KeyInjection.CommandLine

-- ---------------------------------------------------------------------------
-- Values
-- ---------------------------------------------------------------------------

/-- A number below a bound; a plus sign may stand in front. -/
def numberBelow? (bound : Nat) (text : String) : Option Nat :=
  let digits := match text.toList with
    | '+' :: rest => rest
    | all => all
  (Text.decimal? digits).filter (· < bound)

/-- A number of milliseconds between writes. It is also allowed to be a zero behind a minus sign. -/
def delay? (text : String) : Option Nat :=
  match text.toList with
  | '-' :: rest => (Text.decimal? rest).filter (· = 0)
  | _ => numberBelow? 0x10000 text

def interface? : String → Option Interface
  | "primary" => some .primary
  | "secondary" => some .secondary
  | _ => none

-- ---------------------------------------------------------------------------
-- What is asked for
-- ---------------------------------------------------------------------------

inductive Action where
  | secureState
  | display (text : String)
  /-- Download a file, to a local file or to the log. -/
  | download (file : String) (output : Option String) (chunk : Nat)
  | upload (file input : String) (chunk : Nat) (delayMs : UInt16)
  | inject (url : String) (connectTimeoutS requestTimeoutS : Nat) (bestEffort : Bool)
  deriving DecidableEq, Repr

structure ActionOptions where
  device : Endpoint
  interface : Interface
  timeoutMs : Nat
  threshold : LogThreshold
  action : Action

structure SimulatorOptions where
  listen : Endpoint
  /-- No bootstrap files are there. -/
  empty : Bool
  /-- Keys are in place. -/
  provisioned : Bool
  threshold : LogThreshold

/-- What a command line asks for. -/
inductive Invocation where
  | act (o : ActionOptions)
  | simulate (o : SimulatorOptions)

structure Environment where
  device : Option String
  hostUrl : Option String
  deriving DecidableEq, Repr

-- ---------------------------------------------------------------------------
-- Reading a command line
-- ---------------------------------------------------------------------------

def optionOf (name : String) (read : String → Option α) : OptionForm :=
  .valued name fun text => (read text).isSome

def Given.read (g : Given) (name : String) (read : String → Option α) (default : α) : α :=
  ((g.value? name).bind read).getD default

/-- The endpoint given by an option or by the environment, or the standard one. -/
def Given.endpoint (g : Given) (name : String) (e : Environment) : Except Refusal Endpoint :=
  match g.value? name, e.device with
  | some text, _ => .ok ((Endpoint.ofText? text).getD .standard)
  | none, some text =>
    match Endpoint.ofText? text with
    | some a => .ok a
    | none => .error (.misuse s!"the address '{text}' in the environment is no good")
  | none, none => .ok .standard

def word64? : String → Option Nat := numberBelow? 0x10000000000000000

def deviceForm : Form where
  options := [optionOf "device" Endpoint.ofText?, optionOf "interface" interface?,
    optionOf "timeout-ms" word64?, optionOf "log-level" LogThreshold.ofName?]
  arguments := 0

def anyText : String → Option String := some

/-- Tells why help is asked for, or what is wrong with asking: it is about everything, or about one
action. -/
def readTopic : List String → Refusal
  | [] => .help
  | [topic] =>
    if ["secure-state", "display", "download", "upload", "inject", "help"].contains topic then .help
    else .misuse s!"there is no action '{topic}'"
  | _ :: extra :: _ => .misuse s!"the argument '{extra}' is one too many"

def readAction (e : Environment) (name : String) (arguments : List String) :
    Except Refusal Action := do
  match name with
  | "secure-state" =>
    let _ ← Form.scanAll ⟨[], 0⟩ arguments
    return .secureState
  | "display" =>
    let g ← Form.scanAll ⟨[], 1⟩ arguments
    return .display (g.argument 0)
  | "download" =>
    let g ← Form.scanAll ⟨[optionOf "output" anyText, optionOf "chunk" word64?], 1⟩ arguments
    let chunk := g.read "chunk" word64? TransferOptions.readChunk
    return .download (g.argument 0) (g.value? "output") chunk
  | "upload" =>
    let g ← Form.scanAll
      ⟨[optionOf "input" anyText, optionOf "chunk" word64?, optionOf "delay-ms" delay?], 1⟩
      arguments
    match g.value? "input" with
    | some input =>
      let chunk := g.read "chunk" word64? TransferOptions.writeChunk
      return .upload (g.argument 0) input chunk (UInt16.ofNat (g.read "delay-ms" delay? 0))
    | none => throw (.misuse "the option '--input' is missing")
  | "inject" =>
    let g ← Form.scanAll
      ⟨[optionOf "host-url" anyText, optionOf "connect-timeout-s" word64?,
        optionOf "request-timeout-s" word64?, .switch "best-effort-prompts"], 0⟩ arguments
    match g.value? "host-url" <|> e.hostUrl with
    | some url =>
      return .inject url (g.read "connect-timeout-s" word64? (KeyHost.connectTimeoutMs / 1000))
        (g.read "request-timeout-s" word64? (KeyHost.requestTimeoutMs / 1000))
        (g.has "best-effort-prompts")
    | none => throw (.misuse "the option '--host-url' is missing")
  | "help" => throw (readTopic arguments)
  | _ => throw (.misuse s!"there is no action '{name}'")

def readSimulator (e : Environment) (arguments : List String) :
    Except Refusal SimulatorOptions := do
  let g ← Form.scanAll
    ⟨[optionOf "listen" Endpoint.ofText?, .switch "empty", .switch "provisioned",
      optionOf "log-level" LogThreshold.ofName?], 0⟩ arguments
  return {
    listen := ← g.endpoint "listen" e
    empty := g.has "empty"
    provisioned := g.has "provisioned"
    threshold := g.read "log-level" LogThreshold.ofName? ⟨some .debug⟩ }

def ActionOptions.read (e : Environment) (arguments : List String) :
    Except Refusal ActionOptions := do
  match ← deviceForm.scan arguments with
  | (_, []) => throw (.misuse "there is no action")
  | (g, name :: rest) =>
    let action ← readAction e name rest
    return {
      device := ← g.endpoint "device" e
      interface := g.read "interface" interface? .primary
      timeoutMs := g.read "timeout-ms" word64? Device.responseTimeoutMs
      threshold := g.read "log-level" LogThreshold.ofName? ⟨some .info⟩
      action }

def Invocation.read (e : Environment) : List String → Except Refusal Invocation
  | "simulate" :: rest => (readSimulator e rest).map .simulate
  | arguments => (ActionOptions.read e arguments).map .act

/-- What is told to those who ask for help. -/
def usage : String := "\n".intercalate [
  "Usage: [OPTIONS] ACTION",
  "",
  "Options:",
  "  --device ADDRESS",
  "  --interface primary|secondary",
  "  --timeout-ms MS",
  "  --log-level off|error|warn|info|debug|trace",
  "",
  "Actions:",
  "  secure-state",
  "  display TEXT",
  "  download FILE [--output PATH] [--chunk BYTES]",
  "  upload FILE --input PATH [--chunk BYTES] [--delay-ms MS]",
  "  inject --host-url URL [--connect-timeout-s S] [--request-timeout-s S] [--best-effort-prompts]",
  "",
  "Simulated terminal:",
  "  simulate [--listen ADDRESS] [--empty] [--provisioned] [--log-level LEVEL]"]

end KeyInjection.CommandLine
