-- SUMMARY: Commands, responses, and channels that carry them.
import KeyInjection.Apdu.Message
import KeyInjection.Apdu.Status
import KeyInjection.Error

/-!
# Channels

A channel carries encoded commands to a terminal and the responses back, one command in flight per
interface. It is given by what sending and receiving do to its state, so that every way a terminal
or a connection may behave is some channel. An exchange sends a command and waits for its response;
a response that does not come in time is a failure.
-/

namespace KeyInjection

structure Command where
  header : Header
  data : Bytes
  deriving DecidableEq, Repr

structure Response where
  status : Status
  body : Bytes
  deriving DecidableEq, Repr

def Request.command (r : Request) : Except CodecError Command :=
  r.payload.map fun data => ⟨r.header, data⟩

/-- A way to move commands and responses, with states `σ`. Receiving gives `none` when the wait ends
without a response. -/
structure Channel (σ : Type) where
  send : Interface → Command → σ → Except Error Unit × σ
  receive : Interface → σ → Except Error (Option Response) × σ

namespace Channel

/-- Sends a command and waits for its response. -/
def exchange (ch : Channel σ) (i : Interface) (c : Command) (s : σ) : Except Error Response × σ :=
  match ch.send i c s with
  | (.error e, s) => (.error e, s)
  | (.ok (), s) =>
    match ch.receive i s with
    | (.error e, s) => (.error e, s)
    | (.ok none, s) => (.error .requestTimeout, s)
    | (.ok (some r), s) => (.ok r, s)

end Channel

end KeyInjection
