-- SUMMARY: A channel that answers from a script.
import KeyInjection.Channel

/-!
# Scripted channels

Every command sent takes the next entry of the script, which tells whether sending fails and what
receiving then gives. The interface is not looked at. A script that is used up is a closed channel.
-/

namespace KeyInjection

/-- What a scripted channel does with a command. -/
inductive ScriptEntry where
  | respond (r : Response)
  | timeout
  | failReceive (e : Error)
  | failSend (e : Error)

/-- The rest of a script, the entry that is waiting to be received, and the commands sent. -/
structure Script where
  entries : List ScriptEntry
  pending : Option (Except Error (Option Response)) := none
  sent : Array (Interface × Command) := #[]

namespace Script

/-- What a sent command leaves to be received, unless sending fails. -/
def answer : ScriptEntry → Except Error (Except Error (Option Response))
  | .respond r => .ok (.ok (some r))
  | .timeout => .ok (.ok none)
  | .failReceive e => .ok (.error e)
  | .failSend e => .error e

def send (i : Interface) (c : Command) (s : Script) : Except Error Unit × Script :=
  match s.entries with
  | [] => (.error .disconnected, s)
  | entry :: entries =>
    match answer entry with
    | .ok pending => (.ok (), { entries, pending := some pending, sent := s.sent.push (i, c) })
    | .error e => (.error e, { s with entries })

/-- Receives what the command sent last left. -/
def receive (_ : Interface) (s : Script) : Except Error (Option Response) × Script :=
  match s.pending with
  | none => (.error .unexpectedResponse, s)
  | some answer => (answer, { s with pending := none })

end Script

def Channel.scripted : Channel Script := ⟨Script.send, Script.receive⟩

end KeyInjection
