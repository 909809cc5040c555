-- SUMMARY: A simulated terminal served over byte streams.
import KeyInjection.Stream.Link
import KeyInjection.Terminal.Handle

/-!
# Served terminals

A server reads request frames from a connection, has the terminal handle each command as soon as
its frame is whole, and writes back the responses that the terminal gives. A refused header ends
the connection; bytes that do not make a whole frame have no effect. The terminal is the same for
all connections.
-/

namespace KeyInjection

namespace Terminal

/-- What is left when a server has dealt with some bytes. -/
structure Served where
  terminal : Terminal
  replies : Bytes
  /-- The bytes of a frame that is not whole yet, unless the connection has ended. -/
  unread : Option Bytes
  deriving DecidableEq, Repr

/-- Deals with the bytes that have arrived on a connection. -/
def serve (t : Terminal) (b : Bytes) : Served :=
  match _front : Front.request b with
  | .incomplete => ⟨t, [], some b⟩
  | .refused _ _ => ⟨t, [], none⟩
  | .whole (i, c) rest =>
    let (answer, t) := t.handle i c
    let later := t.serve rest
    { later with replies := answer.elim [] Response.frame ++ later.replies }
termination_by b.length
decreasing_by exact Front.length_rest_request _front

end Terminal

structure Connection where
  terminal : Terminal
  /-- The bytes of a frame that is not whole yet, unless the server has ended the connection. -/
  unread : Option Bytes := some []
  /-- The response frames that have not arrived at the client. -/
  replies : Bytes := []
  deriving DecidableEq, Repr

namespace Connection

/-- Bytes from the client; after the end of the connection nothing reads them. -/
def write (b : Bytes) (c : Connection) : Except String Unit × Connection :=
  match c.unread with
  | none => (.ok (), c)
  | some unread =>
    let served := c.terminal.serve (unread ++ b)
    (.ok (), ⟨served.terminal, served.unread, c.replies ++ served.replies⟩)

/-- All responses arrive without delay. -/
def wait (c : Connection) : Arrival × Connection :=
  (⟨c.replies, if c.unread.isNone then some .closed else none⟩, { c with replies := [] })

end Connection

/-- A connection to a served terminal, seen from the client. -/
def Peer.served : Peer Connection := ⟨Connection.write, Connection.wait⟩

end KeyInjection
