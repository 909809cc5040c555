-- SUMMARY: The channel to a terminal over a byte stream.
import KeyInjection.Stream.Frame

/-!
# Stream links

Over a byte stream a command is sent by writing its frame, and received by waiting until a whole
response frame has arrived. The other end is a `Peer`: what it does with written bytes, and what
arrives from it while a wait lasts. Because a wait may end before everything has arrived, a peer
can answer late.

A wait that ends without a whole frame gives the stream up, as a response that comes later would
be taken for the answer to another command. A refused header does not: its stream stays open.
-/

namespace KeyInjection

/-- Why nothing more arrives on a stream. -/
inductive StreamEnd where
  | closed
  | broken (detail : String)
  deriving DecidableEq, Repr

/-- The failure of a reader that meets the end of a stream. -/
def StreamEnd.error : StreamEnd → Error
  | closed => .disconnected
  | broken detail => .io detail

/-- What arrives while a wait lasts. -/
structure Arrival where
  bytes : Bytes
  /-- Why nothing can arrive after these bytes, if nothing can. -/
  ending : Option StreamEnd := none
  deriving DecidableEq, Repr

/-- The other end of a byte stream, with states `π`. -/
structure Peer (π : Type) where
  /-- Takes written bytes, or tells why they cannot be written. -/
  write : Bytes → π → Except String Unit × π
  wait : π → Arrival × π

/-- A client's end of a byte stream. -/
structure StreamLink (π : Type) where
  peer : π
  /-- Bytes that have arrived and were not read. -/
  unread : Bytes := []
  ending : Option StreamEnd := none
  isOpen : Bool := true
  /-- The interface of the command that was sent last, until its response is received. -/
  pending : Option Interface := none
  deriving DecidableEq, Repr

namespace StreamLink

def close (l : StreamLink π) : StreamLink π := { l with isOpen := false }

/-- Gives the stream up after a wait that was in vain. -/
def giveUp (l : StreamLink π) : StreamLink π :=
  { l with unread := [], isOpen := false, pending := none }

/-- The bytes to write for a command. A payload that no frame may carry is refused before anything
else. -/
def outgoing (i : Interface) (c : Command) (l : StreamLink π) : Except Error Bytes :=
  if c.data.length > maxFramePayload then .error (.frame .invalidLength)
  else if !l.isOpen then .error .disconnected
  else .ok (c.frame i)

def send (p : Peer π) (i : Interface) (c : Command) (l : StreamLink π) :
    Except Error Unit × StreamLink π :=
  match l.outgoing i c with
  | .error e => (.error e, l)
  | .ok b =>
    match p.write b l.peer with
    | (.error detail, peer) => (.error (.io detail), { l with peer })
    | (.ok (), peer) => (.ok (), { l with peer, pending := some i })

def expecting (i : Interface) (l : StreamLink π) : Except Error Unit :=
  if l.pending ≠ some i then .error .unexpectedResponse
  else if !l.isOpen then .error .disconnected
  else .ok ()

def arrived (a : Arrival) (l : StreamLink π) : StreamLink π :=
  { l with unread := l.unread ++ a.bytes, ending := a.ending }

/-- Waits for the other end, unless nothing more can arrive. -/
def wait (p : Peer π) (l : StreamLink π) : StreamLink π :=
  match l.ending with
  | some _ => l
  | none => let (arrival, peer) := p.wait l.peer; { l with peer }.arrived arrival

/-- Reads a response from what has arrived, at the end of a wait. -/
def read (l : StreamLink π) : Except Error (Option Response) × StreamLink π :=
  match Front.response l.unread with
  | .whole r rest => (.ok (some r), { l with unread := rest, pending := none })
  | .refused e rest => (.error (.frame e), { l with unread := rest, pending := none })
  | .incomplete =>
    match l.ending with
    | some ending => (.error ending.error, { l with unread := [], pending := none })
    | none => (.ok none, l.giveUp)

def receive (p : Peer π) (i : Interface) (l : StreamLink π) :
    Except Error (Option Response) × StreamLink π :=
  match l.expecting i with
  | .error e => (.error e, l)
  | .ok () => (l.wait p).read

end StreamLink

def Channel.overStream (p : Peer π) : Channel (StreamLink π) :=
  ⟨StreamLink.send p, StreamLink.receive p⟩

end KeyInjection
