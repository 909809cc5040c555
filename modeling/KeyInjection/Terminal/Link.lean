-- SUMMARY: The channel to a terminal in the same process.
import KeyInjection.Terminal.Handle

/-!
# In-process channels

Sending hands the command to the terminal at once and keeps the response until it is received; a
response that the terminal did not give is a wait that ends without one. A closed channel neither
sends nor receives.
-/

namespace KeyInjection

structure TerminalLink where
  terminal : Terminal
  /-- What was sent on each interface and not yet received: the response, or that there is none. -/
  pending : PerInterface (Option (Option Response)) := .both none
  closed : Bool := false

namespace TerminalLink

/-- Closes the channel and forgets what was not received. -/
def close (l : TerminalLink) : TerminalLink := { l with closed := true, pending := .both none }

/-- A new channel to the same terminal. -/
def reopen (l : TerminalLink) : TerminalLink := { terminal := l.terminal }

def send (i : Interface) (c : Command) (l : TerminalLink) : Except Error Unit × TerminalLink :=
  if l.closed then (.error .disconnected, l)
  else
    let (answer, terminal) := l.terminal.handle i c
    (.ok (), { l with terminal, pending := l.pending.set i (some answer) })

def receive (i : Interface) (l : TerminalLink) : Except Error (Option Response) × TerminalLink :=
  if l.closed then (.error .disconnected, l)
  else match l.pending.get i with
    | none => (.error .unexpectedResponse, l)
    | some answer => (.ok answer, { l with pending := l.pending.set i none })

end TerminalLink

def Channel.inProcess : Channel TerminalLink := ⟨TerminalLink.send, TerminalLink.receive⟩

end KeyInjection
