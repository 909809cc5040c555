-- SUMMARY: The program: sockets, files, the environment, and what is printed.
import KeyInjection.CommandLine.Run
import KeyInjection.KeyHost.Http.Exchange
import KeyInjection.Terminal.Server
import Std.Async.DNS
import Std.Async.Signal
import Std.Async.TCP
import Std.Async.Timer
import Std.Time.DateTime

/-!
# The program

Everything here moves bytes: between sockets and links, between local files and jobs, and from log
lines to the standard streams. What bytes are sent, what an answer means and what is logged is
decided elsewhere.
-/

open KeyInjection KeyInjection.CommandLine
open Std.Async (Selectable Selector)
open Std.Async.TCP.Socket (Client Server)

namespace KeyInjection.Program

-- ---------------------------------------------------------------------------
-- Printing
-- ---------------------------------------------------------------------------

/-- The number of a failure of the operating system, whichever way round it is counted. -/
def failureNumber (code : UInt32) : Nat := if code < 0x80000000 then code.toNat else (-code).toNat

def failureText : IO.Error → String
  | .alreadyExists _ code details | .otherError code details | .resourceBusy code details
  | .resourceVanished code details | .unsupportedOperation code details
  | .hardwareFault code details | .unsatisfiedConstraints code details
  | .illegalOperation code details | .protocolError code details | .timeExpired code details
  | .interrupted _ code details | .noFileOrDirectory _ code details
  | .invalidArgument _ code details | .permissionDenied _ code details
  | .resourceExhausted _ code details | .inappropriateType _ code details
  | .noSuchThing _ code details => s!"{details} (os error {failureNumber code})"
  | .unexpectedEof => "unexpected end of file"
  | .userError text => text

def timeOfDay : IO String := do
  let seconds := (← Std.Time.Timestamp.now).toSecondsSinceUnixEpoch.val.toNat % 86400
  let two (n : Nat) : String := if n < 10 then s!"0{n}" else toString n
  return s!"{two (seconds / 3600)}:{two (seconds / 60 % 60)}:{two (seconds % 60)}"

def printLine (threshold : LogThreshold) (l : LogLine) : IO Unit := do
  if threshold.shows l.level then
    let text := l.render (← timeOfDay)
    if l.level = .error then IO.eprintln text
    else
      IO.println text
      (← IO.getStdout).flush

-- ---------------------------------------------------------------------------
-- Sockets
-- ---------------------------------------------------------------------------

def pack (b : Bytes) : ByteArray := ⟨b.toArray⟩

/-- Waits for something, but no longer than until a time on the monotonic clock. -/
def waitUntil (deadline : Nat) (s : Selector α) : IO (Option α) := do
  let left := deadline - (← IO.monoMsNow)
  let waiting : Std.Async.Async (Option α) := do
    let timer ← Selector.sleep (.ofNat left)
    Selectable.one #[.case s fun a => return some a, .case timer fun _ => return none]
  waiting.block

/-- What arrives on a socket next, if something does in time. -/
def nextArrival (socket : Client) (deadline : Nat) : IO (Option Arrival) := do
  try
    match ← waitUntil deadline (socket.recvSelector 65536) with
    | none => return none
    | some none => return some ⟨[], some .closed⟩
    | some (some b) => return some ⟨b.toList, none⟩
  catch e => return some ⟨[], some (.broken (failureText e))⟩

/-- The network address of an endpoint; a zone is left to the system. -/
def socketAddress : Endpoint → Std.Net.SocketAddress
  | .short bytes port => .v4 ⟨⟨bytes⟩, port⟩
  | .long words _ port => .v6 ⟨⟨words⟩, port⟩

def connect (a : Std.Net.SocketAddress) : IO Client := do
  let socket ← Client.mk
  (socket.connect a).block
  socket.noDelay
  return socket

-- ---------------------------------------------------------------------------
-- Terminals
-- ---------------------------------------------------------------------------

/-- Waits until a response can be read from a link, its stream has ended, or the time is over. -/
partial def await (socket : Client) (deadline : Nat) (l : StreamLink Unit) :
    IO (StreamLink Unit) := do
  if Front.response l.unread != .incomplete || l.ending.isSome then return l
  match ← nextArrival socket deadline with
  | none => return l
  | some a => await socket deadline (l.arrived a)

def exchange (socket : Client) (timeoutMs : Nat) (link : IO.Ref (StreamLink Unit)) (i : Interface)
    (c : Command) : IO (Except Error Response) := do
  let l ← link.get
  match l.outgoing i c with
  | .error e => return .error e
  | .ok b =>
    try (socket.send (pack b)).block
    catch e => return .error (.io (failureText e))
    let l ← await socket ((← IO.monoMsNow) + timeoutMs) { l with pending := some i }
    let (answer, l) := l.read
    link.set l
    match answer with
    | .error e => return .error e
    | .ok none => return .error .requestTimeout
    | .ok (some r) => return .ok r

-- ---------------------------------------------------------------------------
-- Key hosts
-- ---------------------------------------------------------------------------

def resolve (a : Http.Address) : IO Std.Net.SocketAddress := do
  match Std.Net.IPv4Addr.ofString a.host, Std.Net.IPv6Addr.ofString a.host with
  | some address, _ => return .v4 ⟨address, a.port⟩
  | none, some address => return .v6 ⟨address, a.port⟩
  | none, none =>
    match (← (Std.Async.DNS.getAddrInfo a.host "").block).toList with
    | .v4 address :: _ => return .v4 ⟨address, a.port⟩
    | .v6 address :: _ => return .v6 ⟨address, a.port⟩
    | [] => throw (.userError "no address for the host")

partial def readAnswer (socket : Client) (deadline : Nat) (ended : Bool) (b : Bytes) :
    IO (Except Error Bytes) := do
  match Http.outcome? ended b with
  | some outcome => return outcome
  | none =>
    match ← nextArrival socket deadline with
    | none => return Http.unreachable "operation timed out"
    | some ⟨_, some (.broken detail)⟩ => return Http.unreachable detail
    | some ⟨more, ending⟩ => readAnswer socket deadline ending.isSome (b ++ more)

/-- Connects to a key host, if that can be done in time. -/
def connectWithin (timeoutMs : Nat) (a : Http.Address) : IO (Option Client) := do
  let connecting ← IO.asTask (do return some (← connect (← resolve a))) .dedicated
  let timer ← (Std.Async.Sleep.mk (.ofNat timeoutMs)).block
  let waiting : Std.Async.Async Unit := timer.wait
  let waiting ← waiting.asTask
  let connected ← IO.waitAny [connecting, waiting.map fun _ => none]
  timer.stop
  ofExcept connected

def post (connectTimeoutMs requestTimeoutMs : Nat) (url body : String) :
    IO (Except Error Bytes) := do
  match Http.Address.ofUrl? url with
  | none => return Http.unreachable "the address of the key host is no good"
  | some a =>
    try
      let deadline := (← IO.monoMsNow) + requestTimeoutMs
      match ← connectWithin (min connectTimeoutMs requestTimeoutMs) a with
      | none => return Http.unreachable "operation timed out"
      | some socket =>
        (socket.send (pack (Http.postBytes a body))).block
        readAnswer socket deadline false []
    catch e => return Http.unreachable (failureText e)

-- ---------------------------------------------------------------------------
-- Sessions
-- ---------------------------------------------------------------------------

/-- Plays a session in the world. -/
def play (exchange : Interface → Command → IO (Except Error Response))
    (post : String → String → IO (Except Error Bytes)) (publish : ε → IO Unit) : Session ε α → IO α
  | .done a => return a
  | .exchange i c next => do play exchange post publish (next (← exchange i c))
  | .post url body next => do play exchange post publish (next (← post url body))
  | .publish e next => do
    publish e
    play exchange post publish next

/-- Reads on in a local file, given the pieces read before, the latest first. -/
partial def readPieces (h : IO.FS.Handle) (past : List ByteArray) : IO LocalFile := do
  let gather (pieces : List ByteArray) : Bytes := (pieces.reverse.map (·.toList)).flatten
  try
    let piece ← h.read 65536
    if piece.isEmpty then return ⟨gather past, none⟩ else readPieces h (piece :: past)
  catch e => return ⟨gather past, some (failureText e)⟩

def openInput : Action → IO (Except String LocalFile)
  | .upload _ input _ _ => do
    try return .ok (← readPieces (← IO.FS.Handle.mk input .read) [])
    catch e => return .error (failureText e)
  | _ => return .ok ⟨[], none⟩

/-- Tells a failure, and gives the exit code that goes with it. -/
def fail (f : ActionFailure) : IO UInt32 := do
  IO.eprintln f.text
  return f.exitCode

def act (o : ActionOptions) : IO UInt32 := do
  match ← (connect (socketAddress o.device)).toBaseIO with
  | .error e =>
    printLine o.threshold o.unconnected
    fail (.operation (.io (failureText e)))
  | .ok socket =>
    let link ← IO.mkRef { peer := () }
    let (connectMs, requestMs) := match o.action with
      | .inject _ connectS requestS _ => (connectS * 1000, requestS * 1000)
      | _ => (0, 0)
    let job := o.action.job o.interface (← openInput o.action)
    let run := play (exchange socket o.timeoutMs link) (post connectMs requestMs)
      (printLine o.threshold)
    match ← run job.run with
    | .error f => fail f
    | .ok none => return 0
    | .ok (some (path, content)) =>
      try
        IO.FS.writeBinFile path (pack content)
        return 0
      catch e => fail (.localFile (failureText e))

-- ---------------------------------------------------------------------------
-- The simulator
-- ---------------------------------------------------------------------------

partial def serveConnection (terminal : IO.Ref Terminal) (socket : Client) (unread : Bytes) :
    IO Unit := do
  match ← (socket.recv? 65536).block with
  | none => return
  | some b =>
    let served ← terminal.modifyGet fun t => let s := t.serve (unread ++ b.toList); (s, s.terminal)
    if !served.replies.isEmpty then (socket.send (pack served.replies)).block
    match served.unread with
    | some unread => serveConnection terminal socket unread
    | none => (socket.shutdown).block

partial def acceptAll (terminal : IO.Ref Terminal) (server : Server) : IO Unit := do
  let socket ← server.accept.block
  socket.noDelay
  let _ ← IO.asTask (serveConnection terminal socket []) .dedicated
  acceptAll terminal server

/-- Serves a simulated terminal until the program is interrupted. -/
def simulate (o : SimulatorOptions) : IO UInt32 := do
  let terminal ← IO.mkRef (Terminal.seeded o.empty o.provisioned)
  try
    let server ← Server.mk
    server.bind (socketAddress o.listen)
    server.listen 128
    printLine o.threshold ⟨.info, "Launching terminal simulator..."⟩
    let interrupt ← Std.Async.Signal.Waiter.mk .sigint false
    let interrupted ← interrupt.wait
    let accepting ← IO.asTask (acceptAll terminal server) .dedicated
    let ended ← IO.waitAny [interrupted.map fun _ => (), accepting]
    interrupt.stop
    ofExcept ended
    printLine o.threshold ⟨.debug, "Exit!"⟩
    return 0
  catch e => fail (.localFile (failureText e))

end KeyInjection.Program

def main (arguments : List String) : IO UInt32 := do
  let environment : Environment := ⟨← IO.getEnv "RKI_DEVICE", ← IO.getEnv "RKI_HOST_URL"⟩
  match Invocation.read environment arguments with
  | .error .help =>
    IO.println usage
    return 0
  | .error (.misuse reason) =>
    IO.eprintln s!"error: {reason}"
    return 2
  | .ok (.act o) => Program.act o
  | .ok (.simulate o) => Program.simulate o
