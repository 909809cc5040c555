-- SUMMARY: A peer that answers from a script.
import KeyInjection.Stream.Link

/-!
# Scripted peers

Every write is answered by the next entry of the script, which is whatever bytes it says, whether
they are a response or not. A script that is used up closes the stream.
-/

namespace KeyInjection

/-- The rest of a peer's script, what has not arrived yet, and what was written to the peer. -/
structure ScriptedPeer where
  entries : List Arrival
  coming : Arrival := ⟨[], none⟩
  written : Array Bytes := #[]
  deriving DecidableEq, Repr

namespace ScriptedPeer

/-- One arrival and then another; nothing follows an end. -/
def after (first second : Arrival) : Arrival :=
  match first.ending with
  | some _ => first
  | none => ⟨first.bytes ++ second.bytes, second.ending⟩

def write (b : Bytes) (p : ScriptedPeer) : Except String Unit × ScriptedPeer :=
  let written := p.written.push b
  match p.entries with
  | [] => (.ok (), { p with coming := after p.coming ⟨[], some .closed⟩, written })
  | entry :: entries => (.ok (), { entries, coming := after p.coming entry, written })

def wait (p : ScriptedPeer) : Arrival × ScriptedPeer := (p.coming, { p with coming := ⟨[], none⟩ })

end ScriptedPeer

def Peer.scripted : Peer ScriptedPeer := ⟨ScriptedPeer.write, ScriptedPeer.wait⟩

end KeyInjection
