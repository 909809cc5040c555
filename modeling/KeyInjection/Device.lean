-- SUMMARY: Single commands to a terminal.
import KeyInjection.Session

/-!
# Device commands

A command is encoded, exchanged, and its response judged: by status alone, or also by reading the
body. A request that has no encoding fails before anything is sent.
-/

namespace KeyInjection

/-- A session that may fail. -/
abbrev Attempt (ε φ α : Type) := ExceptT φ (Session ε) α

namespace Device

/-- How long a response is waited for, in milliseconds, unless told otherwise. -/
def responseTimeoutMs : Nat := 5000

def submit (i : Interface) (c : Command) : Attempt ε Error Response :=
  ExceptT.mk (.exchange i c .done)

/-- Fails on a response that tells no success. -/
def check (r : Response) : Attempt ε Error Unit :=
  if r.status.isSuccess then pure () else throw (.status r.status)

/-- Exchanges a request, whatever the status of the response. -/
def exchange (i : Interface) (r : Request) : Attempt ε Error Response :=
  match r.command with
  | .ok c => submit i c
  | .error e => throw (.apdu e)

/-- Exchanges a request of which only success matters. -/
def command (i : Interface) (r : Request) : Attempt ε Error Unit := do
  check (← exchange i r)

def readBody (decode : Bytes → Except CodecError (α × Nat)) (r : Response) : Attempt ε Error α :=
  match decode r.body with
  | .ok (a, _) => pure a
  | .error e => throw (.apdu e)

def request (i : Interface) (r : Request) (decode : Bytes → Except CodecError (α × Nat)) :
    Attempt ε Error α := do
  let answer ← exchange i r
  check answer
  readBody decode answer

def display (i : Interface) (text : String) : Attempt ε Error Unit :=
  command i (.display (.prompt text))

def secureState (i : Interface) : Attempt ε Error SecureState :=
  request i .secureState SecureState.decode

def secureInit (i : Interface) : Attempt ε Error Unit := command i .secureInit

/-- Imports the uploaded key files; a code other than zero is a failure. -/
def keyImport (i : Interface) : Attempt ε Error Unit := do
  let answer ← request i .keyImport ImportReply.decode
  if answer.isOk then pure () else throw (.importRejected answer.code)

end Device

end KeyInjection
