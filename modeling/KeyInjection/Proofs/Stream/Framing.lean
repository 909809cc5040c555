-- SUMMARY: What a served terminal makes of the bytes of a connection, and a client of its commands.
import KeyInjection.Proofs.Stream.Frames
import KeyInjection.Proofs.Terminal.Handling
import KeyInjection.Terminal.Server

/-!
# Framing

A client may write any bytes to a served terminal, in pieces of any size. The terminal handles the
commands of the longest run of frames at their front, and nothing else has an effect on it
(`serve_spec`). What a stream link writes for the commands that it accepts is such a run
(`call_spec`), so the two ends agree on every command and on how long one may be
(`served_as_framed`).
-/

namespace KeyInjection

variable {π : Type}

/-! ## Serving any bytes -/

namespace Terminal

variable {t : Terminal} {b : Bytes}

/-- The responses to commands handled one after the other. -/
def responses (t : Terminal) : List (Interface × Command) → List Response
  | [] => []
  | (i, c) :: rest => (t.handle i c).1.toList ++ (t.handle i c).2.responses rest

/-- The server deals with the first whole frame and then with what follows it. -/
theorem serve_eq (t : Terminal) (b : Bytes) :
    t.serve b =
      match Front.request b with
      | .incomplete => ⟨t, [], some b⟩
      | .refused _ _ => ⟨t, [], none⟩
      | .whole (i, c) rest =>
        let later := (t.handle i c).2.serve rest
        { later with replies := (t.handle i c).1.elim [] Response.frame ++ later.replies } := by
  rw [serve]
  split <;> rename_i hfront <;> rw [hfront]

/-- Bytes that arrive later are dealt with after those that are there, unless the connection has
ended. -/
theorem serve_append (t : Terminal) (b more : Bytes) :
    t.serve (b ++ more) =
      match (t.serve b).unread with
      | none => t.serve b
      | some unread =>
        let later := (t.serve b).terminal.serve (unread ++ more)
        { later with replies := (t.serve b).replies ++ later.replies } := by
  induction hlength : b.length using Nat.strongRecOn generalizing t b with
  | _ n ih =>
    cases hfront : Front.request b with
    | incomplete =>
      rw [serve_eq t b, hfront]
      rfl
    | refused e rest =>
      have happend : Front.request (b ++ more) = .refused e (rest ++ more) := by
        rw [Front.request, Front.ofHeader_append (by rw [← Front.request, hfront]; simp),
          ← Front.request, hfront]
        rfl
      rw [serve_eq t b, serve_eq t (b ++ more), hfront, happend]
    | whole x rest =>
      have happend : Front.request (b ++ more) = .whole x (rest ++ more) := by
        rw [Front.request, Front.ofHeader_append (by rw [← Front.request, hfront]; simp),
          ← Front.request, hfront]
        rfl
      have hshorter := Front.length_rest_request hfront
      rw [serve_eq t b, serve_eq t (b ++ more), hfront, happend]
      dsimp only
      rw [ih rest.length (by omega) (t.handle x.1 x.2).2 rest rfl]
      rcases (t.handle x.1 x.2).2.serve rest with ⟨later, replies, _ | unread⟩
      · rfl
      · simp only [List.append_assoc]

/-- Of frames every command is handled. -/
theorem serve_frames {commands : List (Interface × Command)} (hframes : AreFrames commands b) :
    t.serve b = ⟨t.handleAll commands, (t.responses commands).flatMap Response.frame, some []⟩ := by
  induction hframes generalizing t with
  | nil => exact serve_eq t []
  | @cons i c _ rest _ hframe _ ih =>
    rw [serve_eq, hframe.request_append rest]
    dsimp only
    rw [ih, responses, List.flatMap_append]
    cases (t.handle i c).1 <;> simp

/-- The commands of the longest run of frames are handled; what follows it ends the connection if it
starts with a header that is refused, and is kept otherwise. -/
theorem serve_spec (t : Terminal) (b : Bytes) :
    ∃ commands frames rest, b = frames ++ rest ∧ AreFrames commands frames ∧ IsUnframed rest ∧
      ∃ unread, t.serve b =
          ⟨t.handleAll commands, (t.responses commands).flatMap Response.frame, unread⟩ ∧
        (IsRefused rest ∧ unread = none ∨ ¬ IsRefused rest ∧ unread = some rest) := by
  induction hlength : b.length using Nat.strongRecOn generalizing t b with
  | _ n ih =>
    have hserve := serve_eq t b
    cases hfront : Front.request b with
    | incomplete =>
      have hunframed : IsUnframed b := isUnframed_of_request (by rw [hfront]; simp)
      have hread : ¬ IsRefused b := by
        rintro hrefused
        obtain ⟨e, rest, hrefused⟩ := hrefused.request
        rw [hfront] at hrefused
        cases hrefused
      rw [hfront] at hserve
      exact ⟨[], [], b, rfl, .nil, hunframed, some b, hserve, .inr ⟨hread, rfl⟩⟩
    | refused e rest =>
      have hunframed : IsUnframed b := isUnframed_of_request (by rw [hfront]; simp)
      rw [hfront] at hserve
      exact ⟨[], [], b, rfl, .nil, hunframed, none, hserve,
        .inl ⟨Front.isRefused_of_request hfront, rfl⟩⟩
    | whole x rest =>
      have hshorter := Front.length_rest_request hfront
      obtain ⟨frame, hframe, rfl⟩ := Front.isFrame_of_request hfront
      obtain ⟨commands, frames, rest, rfl, hframes, hunframed, unread, hlater, hend⟩ :=
        ih rest.length (by omega) (t.handle x.1 x.2).2 rest rfl
      rw [hfront] at hserve
      simp only [hlater] at hserve
      refine ⟨x :: commands, frame ++ frames, rest, (List.append_assoc ..).symm,
        .cons hframe hframes, hunframed, unread, ?_, hend⟩
      rw [hserve, responses, List.flatMap_append]
      cases (t.handle x.1 x.2).1 <;> simp

end Terminal

/-! ## Connections -/

namespace Connection

/-- The connection after the client has written pieces, one after the other. -/
def writeAll (c : Connection) (pieces : List Bytes) : Connection :=
  pieces.foldl (fun c b => (c.write b).2) c

/-- A connection on which bytes were dealt with, and from which nothing has arrived yet. -/
def ofServed (s : Terminal.Served) : Connection := ⟨s.terminal, s.unread, s.replies⟩

/-- It does not matter how the bytes were cut into pieces. -/
theorem writeAll_ofServed (t : Terminal) (b : Bytes) (pieces : List Bytes) :
    (ofServed (t.serve b)).writeAll pieces = ofServed (t.serve (b ++ pieces.flatten)) := by
  induction pieces generalizing b with
  | nil => rw [List.flatten_nil, List.append_nil]; rfl
  | cons piece pieces ih =>
    have hwrite : ((ofServed (t.serve b)).write piece).2 = ofServed (t.serve (b ++ piece)) := by
      rw [Terminal.serve_append]
      rcases t.serve b with ⟨later, replies, _ | unread⟩ <;> rfl
    rw [List.flatten_cons, ← List.append_assoc, ← ih, ← hwrite]
    rfl

theorem writeAll_new (t : Terminal) (pieces : List Bytes) :
    Connection.writeAll { terminal := t } pieces = ofServed (t.serve pieces.flatten) := by
  have hnew : t.serve [] = ⟨t, [], some []⟩ := Terminal.serve_eq t []
  have hpieces := writeAll_ofServed t [] pieces
  rwa [hnew] at hpieces

end Connection

/-! ## Calls on a stream link -/

/-- The other end, with all the bytes that it has taken. -/
def Peer.taking (p : Peer π) : Peer (π × Bytes) where
  write b q := let (r, s) := p.write b q.1; (r, (s, if r.isOk then q.2 ++ b else q.2))
  wait q := let (arrival, s) := p.wait q.1; (arrival, (s, q.2))

namespace StreamLink

/-- What a client does with its link. -/
inductive Call where
  | send (i : Interface) (c : Command)
  | receive (i : Interface)

/-- Makes calls one after the other, and gives the commands that were accepted for sending. -/
def call (p : Peer π) : List Call → StreamLink π → List (Interface × Command) × StreamLink π
  | [], l => ([], l)
  | .send i c :: calls, l =>
    let (sent, l) := l.send p i c
    let (accepted, l) := call p calls l
    (if sent.isOk then (i, c) :: accepted else accepted, l)
  | .receive i :: calls, l => call p calls (l.receive p i).2

section

variable {p : Peer π} {i : Interface} {c : Command}

/-- What a link writes for a command is a frame of it. -/
theorem isFrame_of_outgoing {l : StreamLink π} {b : Bytes} (hwritten : l.outgoing i c = .ok b) :
    IsFrame i c b := by
  unfold outgoing at hwritten
  split at hwritten
  case isTrue => cases hwritten
  case isFalse hfits =>
    split at hwritten
    case isTrue => cases hwritten
    case isFalse =>
      cases hwritten
      exact isFrame_frame i (Nat.le_of_not_lt hfits)

/-- A command that does not fit into a frame is refused untouched. -/
theorem send_of_large {l : StreamLink π} (hlarge : maxFramePayload < c.data.length) :
    l.send p i c = (.error (.frame .invalidLength), l) := by
  have hrefused : l.outgoing i c = .error (.frame .invalidLength) := if_pos hlarge
  rw [send, hrefused]

/-- Any other command is written to an open link. -/
theorem send_of_fits {l : StreamLink π} (hopen : l.isOpen = true)
    (hfits : c.data.length ≤ maxFramePayload) :
    ∃ frame, IsFrame i c frame ∧ (l.send p i c).1 = (p.write frame l.peer).1.mapError Error.io ∧
      (l.send p i c).2.peer = (p.write frame l.peer).2 := by
  have hwritten : l.outgoing i c = .ok (c.frame i) := by
    rw [outgoing, if_neg (Nat.not_lt.2 hfits), hopen]
    rfl
  refine ⟨c.frame i, isFrame_of_outgoing hwritten, ?_⟩
  rw [send, hwritten]
  dsimp only
  rcases p.write (c.frame i) l.peer with ⟨_ | _, _⟩ <;> exact ⟨rfl, rfl⟩

/-- What the other end takes from sending is the frame of a command that is accepted. -/
theorem taken_send (l : StreamLink (π × Bytes)) :
    (∃ e, (l.send p.taking i c).1 = .error e ∧ (l.send p.taking i c).2.peer.2 = l.peer.2) ∨
      ∃ frame, IsFrame i c frame ∧ (l.send p.taking i c).1 = .ok () ∧
        (l.send p.taking i c).2.peer.2 = l.peer.2 ++ frame := by
  cases hwritten : l.outgoing i c with
  | error e =>
    have hsend : l.send p.taking i c = (.error e, l) := by rw [send, hwritten]
    exact .inl ⟨e, by rw [hsend], by rw [hsend]⟩
  | ok frame =>
    rcases hwrite : p.write frame l.peer.1 with ⟨detail | _, peer⟩
    · have htaking : p.taking.write frame l.peer = (.error detail, (peer, l.peer.2)) := by
        simp [Peer.taking, hwrite, Except.isOk, Except.toBool]
      have hsend : l.send p.taking i c =
          (.error (.io detail), { l with peer := (peer, l.peer.2) }) := by
        rw [send, hwritten]
        simp only [htaking]
      exact .inl ⟨.io detail, by rw [hsend], by rw [hsend]⟩
    · have htaking : p.taking.write frame l.peer = (.ok (), (peer, l.peer.2 ++ frame)) := by
        simp [Peer.taking, hwrite, Except.isOk, Except.toBool]
      have hsend : l.send p.taking i c =
          (.ok (), { l with peer := (peer, l.peer.2 ++ frame), pending := some i }) := by
        rw [send, hwritten]
        simp only [htaking]
      exact .inr ⟨frame, isFrame_of_outgoing hwritten, by rw [hsend], by rw [hsend]⟩

/-- Nothing is written by receiving. -/
theorem taken_receive (l : StreamLink (π × Bytes)) :
    (l.receive p.taking i).2.peer.2 = l.peer.2 := by
  have hread : ∀ l : StreamLink (π × Bytes), l.read.2.peer = l.peer := by
    intro l
    rw [read]
    split
    · rfl
    · rfl
    · split <;> rfl
  have hwait : (l.wait p.taking).peer.2 = l.peer.2 := by
    rw [wait]
    split <;> rfl
  rw [receive]
  split
  · rfl
  · rw [hread, hwait]

/-- What the other end takes of calls are the frames of the commands that are accepted. -/
theorem call_spec (calls : List Call) (l : StreamLink (π × Bytes)) :
    ∃ frames, (call p.taking calls l).2.peer.2 = l.peer.2 ++ frames ∧
      AreFrames (call p.taking calls l).1 frames := by
  induction calls generalizing l with
  | nil => exact ⟨[], (List.append_nil _).symm, .nil⟩
  | cons first calls ih =>
    cases first with
    | send i c =>
      obtain ⟨frames, hcalls, hframes⟩ := ih (l.send p.taking i c).2
      rcases taken_send (p := p) (i := i) (c := c) l with ⟨e, hsent, htaken⟩ |
        ⟨frame, hframe, hsent, htaken⟩
      · have haccepted : (call p.taking (.send i c :: calls) l).1 =
            (call p.taking calls (l.send p.taking i c).2).1 := by
          simp only [call, hsent]
          rfl
        rw [htaken] at hcalls
        exact ⟨frames, hcalls, by rwa [haccepted]⟩
      · have haccepted : (call p.taking (.send i c :: calls) l).1 =
            (i, c) :: (call p.taking calls (l.send p.taking i c).2).1 := by
          simp only [call, hsent]
          rfl
        rw [htaken, List.append_assoc] at hcalls
        exact ⟨frame ++ frames, hcalls, by rw [haccepted]; exact .cons hframe hframes⟩
    | receive i =>
      obtain ⟨frames, hcalls, hframes⟩ := ih (l.receive p.taking i).2
      rw [taken_receive] at hcalls
      exact ⟨frames, hcalls, hframes⟩

end

end StreamLink

/-! ## Both ends -/

theorem Bytes.littleEndian_mod (width n : Nat) :
    Bytes.littleEndian width (n % Nat.pow 256 width) = Bytes.littleEndian width n := by
  induction width generalizing n with
  | zero => rfl
  | succ width ih =>
    have hpow : Nat.pow 256 (width + 1) = 256 * Nat.pow 256 width := Nat.mul_comm ..
    have hbyte : UInt8.ofNat (n % (256 * Nat.pow 256 width)) = UInt8.ofNat n := by
      apply UInt8.toNat_inj.1
      rw [UInt8.toNat_ofNat', UInt8.toNat_ofNat']
      exact Nat.mod_mod_of_dvd n ⟨_, rfl⟩
    rw [Bytes.littleEndian, Bytes.littleEndian, hpow, hbyte, Nat.mod_mul_right_div_self, ih]

/-- A response frame has the status, two bytes that are zero, the length of the body, and the
body. -/
theorem Response.frame_eq (r : Response) :
    r.frame = Bytes.littleEndian 2 r.status.word.toNat ++ [0, 0] ++
      Bytes.littleEndian 4 r.body.length ++ r.body := by
  rw [← Bytes.littleEndian_mod 4 r.body.length]
  rfl

/-- Whatever a client writes to a served terminal, and in whatever pieces, the terminal handles the
commands of the longest run of frames at the front, sends back a frame for each response, and
otherwise stays as it is: the connection has ended if what follows starts with a header that is
refused, and what follows waits to become a frame if not. What a client's link writes for any calls
is the frames of the commands that it accepts, and is read as just these commands. An open link
refuses a command untouched if it does not fit into a frame, and writes any other as a frame. -/
theorem served_as_framed (t : Terminal) (p : Peer π) :
    (∀ pieces : List Bytes, ∃ commands frames rest,
      pieces.flatten = frames ++ rest ∧ AreFrames commands frames ∧
      (∀ commands' frames', AreFrames commands' frames' → frames' <+: pieces.flatten →
        commands' <+: commands ∧ frames' <+: frames) ∧
      ∃ unread, Connection.writeAll { terminal := t } pieces =
          ⟨t.handleAll commands, unread, (t.responses commands).flatMap fun r =>
            Bytes.littleEndian 2 r.status.word.toNat ++ [0, 0] ++
              Bytes.littleEndian 4 r.body.length ++ r.body⟩ ∧
        (IsRefused rest ∧ unread = none ∨ ¬ IsRefused rest ∧ unread = some rest)) ∧
    (∀ (calls : List StreamLink.Call) (l : StreamLink (π × Bytes)) (pieces : List Bytes),
      (StreamLink.call p.taking calls l).2.peer.2 = l.peer.2 ++ pieces.flatten →
        let accepted := (StreamLink.call p.taking calls l).1
        AreFrames accepted pieces.flatten ∧
          Connection.writeAll { terminal := t } pieces =
            ⟨t.handleAll accepted, some [], (t.responses accepted).flatMap Response.frame⟩) ∧
    ∀ (l : StreamLink π) (i : Interface) (c : Command), l.isOpen = true →
      (maxFramePayload < c.data.length →
        l.send p i c = (.error (.frame .invalidLength), l)) ∧
      (c.data.length ≤ maxFramePayload → ∃ frame, IsFrame i c frame ∧
        (l.send p i c).1 = (p.write frame l.peer).1.mapError Error.io ∧
        (l.send p i c).2.peer = (p.write frame l.peer).2) := by
  refine ⟨?_, ?_, ?_⟩
  · intro pieces
    obtain ⟨commands, frames, rest, hpieces, hframes, hunframed, unread, hserve, hend⟩ :=
      t.serve_spec pieces.flatten
    refine ⟨commands, frames, rest, hpieces, hframes, ?_, unread, ?_, hend⟩
    · intro commands' frames' hframes' hfront
      rw [hpieces] at hfront
      exact hframes.longest hframes' hunframed hfront
    · rw [Connection.writeAll_new, hserve, funext Response.frame_eq]
      rfl
  · intro calls l pieces hwritten
    obtain ⟨frames, htaken, hframes⟩ := StreamLink.call_spec (p := p) calls l
    obtain rfl : pieces.flatten = frames := List.append_cancel_left (hwritten.symm.trans htaken)
    refine ⟨hframes, ?_⟩
    rw [Connection.writeAll_new, Terminal.serve_frames hframes]
    rfl
  · intro l i c hopen
    exact ⟨StreamLink.send_of_large, StreamLink.send_of_fits hopen⟩

/-- A link to a terminal that is called for two commands; the frames are written to another
terminal in three pieces. -/
theorem served_as_framed_seeded :
    let select : Command := ⟨⟨0xd0, 0x30, 0, 0⟩, [0, 1, 0, 0, 0x61]⟩
    let state : Command := ⟨⟨0xd0, 0x21, 0, 0⟩, []⟩
    let calls : List StreamLink.Call :=
      [.send .secondary select, .receive .secondary, .send .primary state]
    let l : StreamLink (Connection × Bytes) :=
      { peer := ({ terminal := .seeded true false }, []) }
    let pieces : List Bytes := [[1, 0xd0, 0x30, 0, 0, 0, 0], [0, 5, 0, 0, 0, 0, 1],
      [0, 0, 0x61, 0, 0xd0, 0x21, 0, 0, 0, 0, 0, 0, 0, 0, 0]]
    let t := Terminal.seeded false true
    (StreamLink.call Peer.served.taking calls l).2.peer.2 = [] ++ pieces.flatten ∧
      AreFrames [(.secondary, select), (.primary, state)] pieces.flatten ∧
      (Connection.writeAll { terminal := t } pieces).terminal =
        t.handleAll [(.secondary, select), (.primary, state)] := by
  intro select state calls l pieces t
  have hwritten : (StreamLink.call Peer.served.taking calls l).2.peer.2 = [] ++ pieces.flatten := by
    decide +kernel
  have haccepted : (StreamLink.call Peer.served.taking calls l).1 =
      [(.secondary, select), (.primary, state)] := by decide +kernel
  obtain ⟨hframes, hconnection⟩ := (served_as_framed t .served).2.1 calls l pieces hwritten
  rw [haccepted] at hframes hconnection
  exact ⟨hwritten, hframes, congrArg Connection.terminal hconnection⟩

end KeyInjection
