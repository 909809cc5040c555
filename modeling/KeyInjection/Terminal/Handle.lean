-- SUMMARY: A simulated terminal and what each command does to it.
import KeyInjection.Channel
import KeyInjection.Injection.KeyFiles
import KeyInjection.Terminal.Faults
import KeyInjection.Terminal.Files

/-!
# The simulated terminal

A terminal has files, at most one of them selected on each interface, a secure storage, a display,
and a log of the commands it handled. `Terminal.handle` is one command: it is read
(`readCommand`), executed (`execute`) and logged. A command that cannot be read is logged too and
changes nothing else; one that gets no response is not even logged.
-/

namespace KeyInjection

/-- What the log keeps of a command. -/
structure CommandRecord where
  interface : Interface
  ins : UInt8
  p1 : UInt8
  /-- The file the command is about: the one it selects, else the one selected before. -/
  file : Option String
  offset : Option UInt32
  /-- How many bytes are read or written; for other commands the length of the payload. -/
  length : Nat
  deriving DecidableEq, Repr

structure Terminal where
  files : FileStore := .empty
  selected : PerInterface (Option String) := .both none
  secure : SecureState := .empty
  /-- The prompts shown, the latest last. -/
  display : Array String := #[]
  commands : Array CommandRecord := #[]
  faults : Faults := .none
  deriving DecidableEq, Repr

namespace Terminal

/-- A terminal to try things with: with bootstrap files unless it is to be empty, and with keys in
place if it is to be provisioned. -/
def seeded (empty provisioned : Bool) : Terminal where
  files := if empty then .empty
    else .ofList (Injection.bootstrapFiles.map fun name => (name, textBytes s!"simulated {name}\n"))
  secure := if provisioned then ⟨false, true, true⟩ else .empty

/-- The import code of a terminal that is not ready to import, or lacks a key file. -/
def importMissingFile : UInt16 := 0x0101

def bare (s : Status) : Response := ⟨s, []⟩

def answering (s : Status) (r : Reply) : Response := ⟨s, r.bytes⟩

-- ---------------------------------------------------------------------------
-- Display and secure storage
-- ---------------------------------------------------------------------------

def cannotShow (t : Terminal) (text : String) : Bool :=
  match t.faults.failDisplay with
  | some pattern => occursIn pattern.toList text.toList
  | none => false

def prompt (t : Terminal) (text : String) : Response × Terminal :=
  if t.cannotShow text then (bare .executionError, t)
  else (bare .success, { t with display := t.display.push text })

/-- Starts key injection mode, which makes earlier keys unavailable. -/
def secureInit (t : Terminal) : Response × Terminal :=
  if t.faults.failInit then (bare .securityStatus, t)
  else if t.faults.initNotApplied then (bare .success, t)
  else (bare .success, { t with secure := ⟨true, false, false⟩ })

def hasKeyFiles (t : Terminal) : Bool := Injection.keyFiles.all t.files.contains

/-- The secure storage after a successful import. -/
def imported (t : Terminal) : SecureState where
  initialised := t.secure.initialised && t.faults.importKeepsInitialised
  pinKeyReady := t.secure.pinKeyReady || !t.faults.importWithoutKeys
  sredKeyReady := t.secure.sredKeyReady || !t.faults.importWithoutKeys

/-- Imports the key files: the code, and the terminal afterwards. -/
def keyImport (t : Terminal) : UInt16 × Terminal :=
  match t.faults.importError with
  | some code => (code, t)
  | none =>
    if t.secure.initialised && t.hasKeyFiles then
      (ImportReply.noError, { t with secure := t.imported })
    else (importMissingFile, t)

-- ---------------------------------------------------------------------------
-- Files
-- ---------------------------------------------------------------------------

def deselect (t : Terminal) (i : Interface) : Terminal :=
  { t with selected := t.selected.set i none }

/-- The answer to a selection that fails. -/
def notFound : Response := answering .fileNotFound (.selected ⟨-1⟩)

/-- Selects a file; an earlier selection is gone even if this one fails. -/
def select (t : Terminal) (i : Interface) (r : SelectRequest) : Response × Terminal :=
  let t := t.deselect i
  let selected (files : FileStore) (size : Nat) : Response × Terminal :=
    (answering .success (.selected ⟨Int32.ofNat size⟩),
      { t with files, selected := t.selected.set i (some r.name) })
  if t.faults.failSelect.contains r.name then (notFound, t)
  else match r.mode with
    | .truncate => selected (t.files.put r.name []) 0
    | .read =>
      match t.files.get? r.name with
      | some content => selected t.files content.length
      | none => (notFound, t)

def selectedContent (t : Terminal) (i : Interface) : Option Bytes :=
  (t.selected.get i).bind t.files.get?

def cannotRead (t : Terminal) (offset : UInt32) : Bool :=
  match t.faults.failReadAt with
  | some start => start ≤ offset
  | none => false

def read (t : Terminal) (i : Interface) (r : ReadRequest) : Response :=
  match t.selectedContent i with
  | none => bare .conditionsNotSatisfied
  | some content =>
    if t.cannotRead r.offset then bare .executionError
    else if content.length ≤ r.offset.toNat then bare .wrongData
    else
      let wanted := match t.faults.maxRead with
        | some most => min r.length.toNat most
        | none => r.length.toNat
      ⟨.success, (content.drop r.offset.toNat).take wanted⟩

/-- Writes to the end of the selected file. -/
def write (t : Terminal) (i : Interface) (r : WriteRequest) : Response × Terminal :=
  match t.selected.get i with
  | none => (bare .conditionsNotSatisfied, t)
  | some name =>
    if t.faults.failWrite.contains name then (bare .notEnoughSpace, t)
    else match t.files.get? name with
      | none => (bare .conditionsNotSatisfied, t)
      | some content =>
        if r.offset.toNat = content.length then
          (bare .success, { t with files := t.files.put name (content ++ r.data) })
        else (bare .wrongData, t)

-- ---------------------------------------------------------------------------
-- Commands
-- ---------------------------------------------------------------------------

def execute (t : Terminal) (i : Interface) : Request → Response × Terminal
  | .display r => t.prompt r.text
  | .secureInit => t.secureInit
  | .secureState => (answering .success (.secureState t.secure), t)
  | .keyImport => let (code, t) := t.keyImport; (answering .success (.imported ⟨code⟩), t)
  | .fileSelect r => t.select i r
  | .fileRead r => (t.read i r, t)
  | .fileWrite r => t.write i r

/-- The request that a command makes, or the status that refuses it. -/
def readCommand (c : Command) : Except Status Request :=
  if c.header.cla ≠ commandClass then .error .instructionNotSupported
  else match Instruction.ofCode? c.header.ins with
    | none => .error .instructionNotSupported
    | some ins =>
      match Request.decode ins c.data with
      | .ok (r, _) => .ok r
      | .error _ => .error .wrongData

def recordOf (t : Terminal) (i : Interface) (c : Command) : CommandRecord :=
  let plain : CommandRecord :=
    ⟨i, c.header.ins, c.header.p1, t.selected.get i, none, c.data.length⟩
  match readCommand c with
  | .ok (.fileSelect r) => { plain with file := some r.name }
  | .ok (.fileRead r) => { plain with offset := some r.offset, length := r.length.toNat }
  | .ok (.fileWrite r) => { plain with offset := some r.offset, length := r.data.length }
  | _ => plain

/-- What a command answers and does, the log aside. -/
def obey (t : Terminal) (i : Interface) (c : Command) : Response × Terminal :=
  match readCommand c with
  | .ok r => t.execute i r
  | .error s => (bare s, t)

def isSilent (t : Terminal) : Bool :=
  match t.faults.dropResponsesAfter with
  | some n => n ≤ t.commands.size
  | none => false

/-- Handles a command; there is no response from a terminal that has stopped responding. -/
def handle (t : Terminal) (i : Interface) (c : Command) : Option Response × Terminal :=
  if t.isSilent then (none, t)
  else
    let record := t.recordOf i c
    let (answer, t) := t.obey i c
    (some answer, { t with commands := t.commands.push record })

end Terminal

end KeyInjection
