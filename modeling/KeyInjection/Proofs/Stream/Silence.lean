-- SUMMARY: A terminal that stops responding ends a connection over a byte stream for good.
import KeyInjection.Proofs.Stream.Served
import KeyInjection.Proofs.Terminal.Interruption

/-!
# Silence over a byte stream

A terminal that stops responding leaves the client waiting in vain, and the client gives the stream
up. From then on nothing is written any more, so nothing that becomes of the terminal later can
show. A channel in the same process has nothing to give up: once the terminal responds again, it
works as a new one.

* `run_closed` says that a session over a stream that was given up meets failures only, and leaves
  everything as it is;
* `run_stopping` follows a session up to the command that gets no answer;
* `silence_is_final` puts the two together, for all operations and next to the same operations in
  the same process.
-/

namespace KeyInjection

variable {ε π η : Type}

/-! ## What is written to a peer -/

/-- The other end, with a list of all that was written to it. -/
def Peer.recording (p : Peer π) : Peer (π × List Bytes) where
  write b q := let (r, s) := p.write b q.1; (r, (s, q.2 ++ [b]))
  wait q := let (arrival, s) := p.wait q.1; (arrival, (s, q.2))

namespace StreamLink

/-- The link to a peer that has a list of what was written. -/
def noting (l : StreamLink π) (written : List Bytes) : StreamLink (π × List Bytes) :=
  { l with peer := (l.peer, written) }

/-- What sending a command writes. -/
def writes (i : Interface) (c : Command) (l : StreamLink π) : List Bytes :=
  match l.outgoing i c with
  | .ok b => [b]
  | .error _ => []

variable {p : Peer π} {l : StreamLink π} {i : Interface} {c : Command} {written : List Bytes}

theorem send_noting :
    (l.noting written).send p.recording i c =
      ((l.send p i c).1, (l.send p i c).2.noting (written ++ l.writes i c)) := by
  have hout : (l.noting written).outgoing i c = l.outgoing i c := rfl
  rw [send, send, writes, hout]
  cases l.outgoing i c with
  | error e => simp
  | ok b =>
    have hwrite : p.recording.write b (l.noting written).peer =
        ((p.write b l.peer).1, ((p.write b l.peer).2, written ++ [b])) := rfl
    dsimp only
    rw [hwrite]
    rcases p.write b l.peer with ⟨_ | _, _⟩ <;> rfl

theorem read_noting :
    (l.noting written).read = ((l.read).1, (l.read).2.noting written) := by
  obtain ⟨peer, unread, ending, isOpen, pending⟩ := l
  rw [read, read, noting]
  dsimp only
  cases Front.response unread with
  | whole r rest => rfl
  | refused e rest => rfl
  | incomplete => cases ending <;> rfl

theorem receive_noting :
    (l.noting written).receive p.recording i =
      ((l.receive p i).1, (l.receive p i).2.noting written) := by
  have hexpecting : (l.noting written).expecting i = l.expecting i := rfl
  have hwait : (l.noting written).wait p.recording = (l.wait p).noting written := by
    obtain ⟨peer, unread, ending, isOpen, pending⟩ := l
    cases ending <;> rfl
  rw [receive, receive, hexpecting, hwait]
  cases l.expecting i with
  | error e => rfl
  | ok _ => exact read_noting

/-- A list of what is written changes nothing, and an exchange adds to it what sending writes. -/
theorem exchange_noting :
    (Channel.overStream p.recording).exchange i c (l.noting written) =
      (((Channel.overStream p).exchange i c l).1,
        ((Channel.overStream p).exchange i c l).2.noting (written ++ l.writes i c)) := by
  have hsend : (Channel.overStream p.recording).send i c (l.noting written) =
      ((l.send p i c).1, (l.send p i c).2.noting (written ++ l.writes i c)) := send_noting
  have hreceive : ∀ (l : StreamLink π) (written : List Bytes),
      (Channel.overStream p.recording).receive i (l.noting written) =
        (((Channel.overStream p).receive i l).1,
          ((Channel.overStream p).receive i l).2.noting written) :=
    fun _ _ => receive_noting
  cases hsent : (Channel.overStream p).send i c l with
  | mk r l' =>
    rw [show l.send p i c = (r, l') from hsent] at hsend
    cases r with
    | error e => rw [Channel.exchange_of_send_error hsend, Channel.exchange_of_send_error hsent]
    | ok _ =>
      rw [Channel.exchange_of_send_ok hsend, Channel.exchange_of_send_ok hsent, hreceive]

/-! ## Exchanges with a silent terminal -/

/-- Over a stream that was given up nothing is written. -/
theorem exchange_of_closed (p : Peer π) (i : Interface) (hclosed : l.isOpen = false)
    (hdata : c.data.length ≤ maxFramePayload) :
    (Channel.overStream p).exchange i c l = (.error .disconnected, l) := by
  have hout : l.outgoing i c = .error .disconnected := by
    rw [outgoing, if_neg (Nat.not_lt.2 hdata), hclosed]
    rfl
  refine Channel.exchange_of_send_error ?_
  show l.send p i c = _
  rw [send, hout]

theorem writes_of_ready {l : StreamLink Connection} {t : Terminal} (hready : l.IsReady t)
    (hdata : c.data.length ≤ maxFramePayload) : l.writes i c = [c.frame i] := by
  rw [writes, outgoing, if_neg (Nat.not_lt.2 hdata), hready.isOpen_eq]
  rfl

/-- A terminal that has stopped responding reads the command and does nothing. The client waits in
vain and gives the stream up. -/
theorem exchange_silent {l : StreamLink Connection} {t : Terminal} (hready : l.IsReady t)
    (hdata : c.data.length ≤ maxFramePayload) (hsilent : t.isSilent = true) :
    (Channel.overStream .served).exchange i c l = (.error .requestTimeout, l.giveUp) := by
  have hserve : t.serve (c.frame i) = ⟨t, [], some []⟩ := by
    rw [← List.append_nil (c.frame i), Terminal.serve_frame t i hdata,
      Terminal.handle_of_isSilent hsilent, Terminal.serve_nil]
    rfl
  obtain ⟨peer, unread, ending, isOpen, pending⟩ := l
  obtain ⟨rfl, rfl, rfl, rfl⟩ :
      isOpen = true ∧ unread = [] ∧ ending = none ∧ peer = { terminal := t } :=
    ⟨hready.isOpen_eq, hready.unread_eq, hready.ending_eq, hready.peer_eq⟩
  let waiting : StreamLink Connection := { peer := { terminal := t }, pending := some i }
  have hsend : (Channel.overStream .served).send i c { peer := { terminal := t }, pending } =
      (.ok (), waiting) := by
    show send .served i c _ = _
    have hout : outgoing i c { peer := ({ terminal := t } : Connection), pending } =
        .ok (c.frame i) := by
      rw [outgoing, if_neg (Nat.not_lt.2 hdata)]
      rfl
    rw [send, hout]
    simp only [Peer.served, Connection.write, List.nil_append, hserve]
    rfl
  have hreceive : (Channel.overStream .served).receive i waiting = (.ok none, waiting.giveUp) := by
    have hexpecting : waiting.expecting i = .ok () := by simp [expecting, waiting]
    show waiting.receive .served i = _
    rw [receive, hexpecting]
    rfl
  rw [Channel.exchange_of_send_ok hsend, hreceive]
  rfl

end StreamLink

/-! ## Sessions over a stream that was given up -/

namespace Session

/-- Nothing that a session tries over a stream that was given up has any effect, whatever is at the
other end. -/
theorem run_closed (s : Session ε α) (p : Peer π) (h : KeyHost η) {l : StreamLink π}
    (hclosed : l.isOpen = false) (k : η)
    (hdata : ∀ x ∈ commandsOf (s.run (.of (.overStream p) h) (l, k)).steps,
      x.2.data.length ≤ maxFramePayload) :
    let out := s.run (.of (.overStream p) h) (l, k)
    out.state.1 = l ∧ ∀ answer ∈ answersOf out.steps, answer = .error .disconnected := by
  induction s generalizing k with
  | done a => exact ⟨rfl, nofun⟩
  | exchange i c next ih =>
    rw [run_exchange] at hdata ⊢
    simp only [commandsOf_cons, Step.command?, Option.toList_some, List.singleton_append,
      List.forall_mem_cons] at hdata
    have hexchange : (Surroundings.of (.overStream p) h).exchange i c (l, k) =
        (.error .disconnected, (l, k)) := by
      simp only [Surroundings.of, StreamLink.exchange_of_closed p i hclosed hdata.1]
    rw [hexchange] at hdata ⊢
    obtain ⟨hlink, hanswers⟩ := ih (.error .disconnected) k hdata.2
    exact ⟨hlink, by simpa [Step.answer?] using hanswers⟩
  | post url body next ih =>
    rw [run_post] at hdata ⊢
    exact ih _ _ hdata
  | publish e next ih =>
    rw [run_publish] at hdata ⊢
    exact ih k hdata

end Session

/-! ## Sessions with a terminal that stops responding -/

/-- The commands that the terminal is handed, and the responses that it gives, fit into frames. -/
def Terminal.FramesFit (t : Terminal) : List (Interface × Command) → Prop
  | [] => True
  | (i, c) :: rest =>
    (c.data.length ≤ maxFramePayload ∧ ∀ r ∈ (t.handle i c).1, r.body.length ≤ maxFramePayload) ∧
      (t.handle i c).2.FramesFit rest

instance Terminal.decidableFramesFit :
    (t : Terminal) → (commands : List (Interface × Command)) → Decidable (t.FramesFit commands)
  | _, [] => .isTrue trivial
  | t, (i, c) :: rest =>
    have := decidableFramesFit (t.handle i c).2 rest
    inferInstanceAs (Decidable (_ ∧ _))

theorem Terminal.FramesFit.data_le {t : Terminal} {commands : List (Interface × Command)}
    (hfits : t.FramesFit commands) : ∀ x ∈ commands, x.2.data.length ≤ maxFramePayload := by
  induction commands generalizing t with
  | nil => nofun
  | cons x rest ih =>
    intro y hy
    rcases List.mem_cons.1 hy with rfl | hy
    · exact hfits.1.1
    · exact ih hfits.2 y hy

def framesOf (commands : List (Interface × Command)) : List Bytes :=
  commands.map fun x => x.2.frame x.1

/-- Both records are the same up to a command that is not answered in time. After it nothing gets
through over the stream, and nothing is answered in the same process. -/
structure CutOff (before : List (Step ε)) (i : Interface) (c : Command)
    (streamed direct : List (Step ε)) : Prop where
  answered : ∀ answer ∈ answersOf before, ∃ r, answer = .ok r
  streamed_eq : ∃ after, streamed = before ++ .exchanged i c (.error .requestTimeout) :: after ∧
    ∀ answer ∈ answersOf after, answer = .error .disconnected
  direct_eq : ∃ after, direct = before ++ .exchanged i c (.error .requestTimeout) :: after ∧
    ∀ answer ∈ answersOf after, answer = .error .requestTimeout

theorem CutOff.cons {before streamed direct : List (Step ε)} {i : Interface} {c : Command}
    (hcut : CutOff before i c streamed direct) {step : Step ε}
    (hstep : ∀ answer ∈ step.answer?, ∃ r, answer = .ok r) :
    CutOff (step :: before) i c (step :: streamed) (step :: direct) := by
  obtain ⟨hanswered, ⟨after, rfl, hafter⟩, ⟨after', rfl, hafter'⟩⟩ := hcut
  refine ⟨?_, ⟨after, rfl, hafter⟩, ⟨after', rfl, hafter'⟩⟩
  intro answer hanswer
  rw [answersOf_cons, List.mem_append, Option.mem_toList] at hanswer
  exact hanswer.elim (hstep answer) (hanswered answer)

theorem CutOff.length_lt {before streamed direct : List (Step ε)} {i : Interface} {c : Command}
    (hcut : CutOff before i c streamed direct) :
    (commandsOf before).length < (commandsOf streamed).length := by
  obtain ⟨after, hstreamed, -⟩ := hcut.streamed_eq
  simp only [hstreamed, commandsOf_append, commandsOf_cons, Step.command?, Option.toList_some,
    List.length_append, List.length_singleton]
  omega

/-- A run over a stream and one with the terminal itself, which went the same way: the terminal has
responded to all of it, at most `n` commands. -/
structure PlayedAlike (n : Nat) (written : List Bytes)
    (out : Outcome ε (StreamLink (Connection × List Bytes) × η) α)
    (direct : Outcome ε (Terminal × η) α) : Prop where
  value_eq : out.value = direct.value
  steps_eq : out.steps = direct.steps
  answered : ∀ answer ∈ answersOf out.steps, ∃ r, answer = .ok r
  length_le : (commandsOf out.steps).length ≤ n
  state_eq : ∃ l : StreamLink Connection, l.IsReady direct.state.1 ∧
    out.state = (l.noting (written ++ framesOf (commandsOf out.steps)), direct.state.2)

/-- A run over a stream and one with the terminal itself, which stopped responding after `n`
commands: the stream was given up, the terminal is as these commands have made it, and nothing was
written after the command that was not answered. -/
def BrokenOff (t : Terminal) (n : Nat) (written : List Bytes)
    (out : Outcome ε (StreamLink (Connection × List Bytes) × η) α)
    (direct : Outcome ε (Terminal × η) α) : Prop :=
  ∃ before i c, CutOff before i c out.steps direct.steps ∧ (commandsOf before).length = n ∧
    direct.state.1 = t.handleAll (commandsOf before) ∧ out.state.1.isOpen = false ∧
    out.state.1.peer = ({ terminal := t.handleAll (commandsOf before) },
      written ++ framesOf (commandsOf before ++ [(i, c)]))

section

variable {t : Terminal} {n : Nat} {written : List Bytes} (step : Step ε)
variable {out : Outcome ε (StreamLink (Connection × List Bytes) × η) α}
variable {direct : Outcome ε (Terminal × η) α}

/-- One more step in front, which was not left without an answer. -/
theorem PlayedAlike.cons
    (hplayed : PlayedAlike n (written ++ framesOf step.command?.toList) out direct)
    (hstep : ∀ answer ∈ step.answer?, ∃ r, answer = .ok r) :
    PlayedAlike (n + step.command?.toList.length) written
      { out with steps := step :: out.steps } { direct with steps := step :: direct.steps } := by
  obtain ⟨hvalue, hsteps, hanswered, hlength, l, hready, hstate⟩ := hplayed
  refine ⟨hvalue, congrArg _ hsteps, ?_, ?_, l, hready, ?_⟩
  · intro answer hanswer
    rw [answersOf_cons, List.mem_append, Option.mem_toList] at hanswer
    exact hanswer.elim (hstep answer) (hanswered answer)
  · rw [commandsOf_cons, List.length_append]
    omega
  · rw [hstate, commandsOf_cons, framesOf, framesOf, framesOf, List.map_append, List.append_assoc]

theorem BrokenOff.cons (hbroken : BrokenOff (t.handleAll step.command?.toList) n
      (written ++ framesOf step.command?.toList) out direct)
    (hstep : ∀ answer ∈ step.answer?, ∃ r, answer = .ok r) :
    BrokenOff t (n + step.command?.toList.length) written
      { out with steps := step :: out.steps } { direct with steps := step :: direct.steps } := by
  obtain ⟨before, i, c, hcut, hlength, hterminal, hclosed, hpeer⟩ := hbroken
  refine ⟨step :: before, i, c, hcut.cons hstep, ?_, ?_, hclosed, ?_⟩
  · rw [commandsOf_cons, List.length_append]
    omega
  · rw [commandsOf_cons, Terminal.handleAll_append]
    exact hterminal
  · rw [commandsOf_cons, Terminal.handleAll_append, hpeer]
    simp [framesOf]

/-- Steps that are no exchanges change nothing of this. -/
theorem stopping_cons_of_quiet (hcommand : step.command? = none) (hanswer : step.answer? = none)
    (hrest : PlayedAlike n written out direct ∨ BrokenOff t n written out direct) :
    PlayedAlike n written
        { out with steps := step :: out.steps } { direct with steps := step :: direct.steps } ∨
      BrokenOff t n written
        { out with steps := step :: out.steps } { direct with steps := step :: direct.steps } := by
  have hstep : ∀ answer ∈ step.answer?, ∃ r, answer = .ok r := by simp [hanswer]
  refine hrest.imp (fun hplayed => ?_) fun hbroken => ?_
  · have hplayed : PlayedAlike n (written ++ framesOf step.command?.toList) out direct := by
      simpa [hcommand, framesOf] using hplayed
    simpa [hcommand] using hplayed.cons step hstep
  · have hbroken : BrokenOff (t.handleAll step.command?.toList) n
        (written ++ framesOf step.command?.toList) out direct := by
      simpa [hcommand, framesOf] using hbroken
    simpa [hcommand] using hbroken.cons step hstep

end

namespace Session

/-- Over a stream and in the same process a session goes the same way as long as the terminal
responds. If it goes beyond that, the stream is given up at the first command that is not
answered. -/
theorem run_stopping (s : Session ε α) (h : KeyHost η) {l : StreamLink Connection} {t : Terminal}
    {limit n : Nat} (hready : l.IsReady t) (hlimit : t.faults.dropResponsesAfter = some limit)
    (hn : limit - t.commands.size = n) (k : η) (written : List Bytes)
    (hfits : t.FramesFit (commandsOf
      (s.run (.of (.overStream Peer.served.recording) h) (l.noting written, k)).steps)) :
    let out := s.run (.of (.overStream Peer.served.recording) h) (l.noting written, k)
    let direct := s.run (.handling h) (t, k)
    PlayedAlike n written out direct ∨ BrokenOff t n written out direct := by
  induction s generalizing l t n k written with
  | done a =>
    refine .inl ⟨rfl, rfl, by simp [run_done], Nat.zero_le _, l, hready, ?_⟩
    simp [run_done, framesOf]
  | exchange i c next ih =>
    rw [run_exchange] at hfits
    rw [run_exchange, run_handling_exchange]
    obtain ⟨⟨hdata, hbody⟩, hlater⟩ := hfits
    have hexchange : (Surroundings.of (.overStream Peer.served.recording) h).exchange i c
        (l.noting written, k) =
          (((Channel.overStream .served).exchange i c l).1,
            ((Channel.overStream .served).exchange i c l).2.noting (written ++ [c.frame i]),
            k) := by
      simp only [Surroundings.of, StreamLink.exchange_noting,
        StreamLink.writes_of_ready hready hdata]
    rw [hexchange] at hlater ⊢
    dsimp only at hlater ⊢
    cases hsilent : t.isSilent with
    | true =>
      have hzero : n = 0 := by
        rw [Terminal.isSilent, hlimit] at hsilent
        have := of_decide_eq_true hsilent
        omega
      rw [StreamLink.exchange_silent hready hdata hsilent] at hlater ⊢
      rw [Terminal.handle_of_isSilent hsilent] at hlater ⊢
      obtain ⟨hlink, hdisconnected⟩ := run_closed (next (.error .requestTimeout))
        Peer.served.recording h (l := l.giveUp.noting (written ++ [c.frame i])) rfl k hlater.data_le
      have hleft : ((next (.error .requestTimeout)).run (.handling h) (t, k)).state.1 = t := by
        rw [terminal_of_run_handling, Terminal.handleAll_of_isSilent hsilent]
      obtain ⟨m, htimeouts⟩ := answersOf_run_silent (next (.error .requestTimeout)) h hsilent k
      refine .inr ⟨[], i, c, ⟨by simp, ⟨_, rfl, hdisconnected⟩, ⟨_, rfl, ?_⟩⟩, hzero.symm, hleft,
        ?_, ?_⟩
      · intro answer hanswer
        exact List.eq_of_mem_replicate (htimeouts ▸ hanswer)
      · exact congrArg (·.isOpen) hlink
      · refine (congrArg (·.peer) hlink).trans ?_
        show (l.peer, _) = _
        rw [hready.peer_eq]
        rfl
    | false =>
      have hhandle := Terminal.handle_of_responds hsilent i c
      have hanswer : (t.handle i c).1 = some (t.obey i c).1 := by rw [hhandle]
      obtain ⟨hsame, hstill⟩ := StreamLink.exchange_served hready hdata hanswer (hbody _ hanswer)
      have hroom : t.commands.size < limit := by
        rw [Terminal.isSilent, hlimit] at hsilent
        exact Nat.lt_of_not_le (of_decide_eq_false hsilent)
      have hsize : (t.handle i c).2.commands.size = t.commands.size + 1 := by
        rw [Terminal.handle_commands hsilent, Array.size_push]
      have hstep : ∀ answer ∈ (Step.exchanged (ε := ε) i c (.ok (t.obey i c).1)).answer?,
          ∃ r, answer = .ok r := by simp [Step.answer?]
      have hlimit' : (t.handle i c).2.faults.dropResponsesAfter = some limit := by
        rw [Terminal.handle_faults, hlimit]
      obtain rfl : n = (limit - (t.handle i c).2.commands.size) + 1 := by omega
      rw [hsame] at hlater ⊢
      rw [hanswer]
      have hrest := ih (.ok (t.obey i c).1) hstill hlimit' rfl k (written ++ [c.frame i]) hlater
      refine hrest.imp (fun hplayed => ?_) fun hbroken => ?_
      · exact hplayed.cons (.exchanged i c (.ok (t.obey i c).1)) hstep
      · exact hbroken.cons (.exchanged i c (.ok (t.obey i c).1)) hstep
  | post url body next ih =>
    rw [run_post] at hfits
    rw [run_post, run_handling_post]
    exact stopping_cons_of_quiet _ rfl rfl (ih _ hready hlimit hn _ written hfits)
  | publish e next ih =>
    rw [run_publish] at hfits
    rw [run_publish, run_publish]
    exact stopping_cons_of_quiet _ rfl rfl (ih hready hlimit hn k written hfits)

end Session

/-! ## Operations -/

/-- A terminal that does not stop responding answers everything that a session tries, and what was
under way on the channel before makes no difference. -/
theorem Session.run_inProcess_unlimited (s : Session ε α) (h : KeyHost η) {l : TerminalLink}
    (hopen : l.closed = false) (hunlimited : l.terminal.faults.dropResponsesAfter = none) (k : η) :
    let out := s.run (.of .inProcess h) (l, k)
    let fresh := s.run (.of .inProcess h) ({ terminal := l.terminal }, k)
    out.value = fresh.value ∧ out.steps = fresh.steps ∧
      out.state.1.terminal = fresh.state.1.terminal ∧ out.state.2 = fresh.state.2 ∧
      ∀ answer ∈ answersOf out.steps, ∃ r, answer = .ok r := by
  obtain ⟨hvalue, hsteps, ⟨-, hterminal⟩, hhost⟩ := run_inProcess_handling s h hopen k
  obtain ⟨hvalue', hsteps', ⟨-, hterminal'⟩, hhost'⟩ :=
    run_inProcess_handling s h (l := { terminal := l.terminal }) rfl k
  refine ⟨hvalue.trans hvalue'.symm, hsteps.trans hsteps'.symm, hterminal.trans hterminal'.symm,
    hhost.trans hhost'.symm, ?_⟩
  rw [hsteps]
  exact answersOf_run_unlimited s h hunlimited k

/-- Silence is final over a byte stream. Operations are performed over a new connection to a served
terminal that stops responding after `n` more commands, and next to it in the same process; their
commands, and the responses that the terminal gives, fit into frames.

Unless there are more than `n` commands the two do not differ, and everything is answered. Otherwise
they do not differ in the first `n`; the next command is written and not executed, and its answer
is a timeout. The stream is given up then: nothing more is written, and every later answer tells of
the disconnection, also for later operations, whatever becomes of the connection and its terminal.

In the same process the answers are timeouts only until the fault is lifted. From then on everything
is answered, as over a new channel to the terminal. -/
theorem silence_is_final (t : Terminal) (limit : Nat) (h : KeyHost η) (k : η) (ops : List Operation)
    (hlimit : t.faults.dropResponsesAfter = some limit)
    (hfits : t.FramesFit (commandsOf ((Operation.sequence ops).run
      (.of (.overStream Peer.served.recording) h) ((StreamLink.connected t).noting [], k)).steps)) :
    let n := limit - t.commands.size
    let streamed := (Operation.sequence ops).run (.of (.overStream Peer.served.recording) h)
      ((StreamLink.connected t).noting [], k)
    let direct := (Operation.sequence ops).run (.of .inProcess h) ({ terminal := t }, k)
    let sent := commandsOf streamed.steps
    let written := streamed.state.1.peer.2
    (sent.length ≤ n →
      streamed.value = direct.value ∧ streamed.steps = direct.steps ∧
        (∀ answer ∈ answersOf streamed.steps, ∃ r, answer = .ok r) ∧
        streamed.state.1.peer.1.terminal = direct.state.1.terminal ∧
        streamed.state.2 = direct.state.2 ∧ written = framesOf sent) ∧
    (n < sent.length →
      (∃ before i c, CutOff before i c streamed.steps direct.steps ∧
        (commandsOf before).length = n ∧
        streamed.state.1.peer.1.terminal = t.handleAll (commandsOf before) ∧
        direct.state.1.terminal = t.handleAll (commandsOf before) ∧
        written = framesOf (commandsOf before ++ [(i, c)])) ∧
      ∀ (connection : Connection) (later : List Operation) (k' : η),
        let link := { streamed.state.1 with peer := (connection, written) }
        let more := (Operation.sequence later).run (.of (.overStream Peer.served.recording) h)
          (link, k')
        (∀ x ∈ commandsOf more.steps, x.2.data.length ≤ maxFramePayload) →
          more.state.1 = link ∧ ∀ answer ∈ answersOf more.steps, answer = .error .disconnected) ∧
    ∀ (faults : Faults) (later : List Operation) (k' : η), faults.dropResponsesAfter = none →
      let lifted := { direct.state.1.terminal with faults }
      let more := (Operation.sequence later).run (.of .inProcess h)
        ({ direct.state.1 with terminal := lifted }, k')
      let fresh := (Operation.sequence later).run (.of .inProcess h) ({ terminal := lifted }, k')
      more.value = fresh.value ∧ more.steps = fresh.steps ∧
        more.state.1.terminal = fresh.state.1.terminal ∧ more.state.2 = fresh.state.2 ∧
        ∀ answer ∈ answersOf more.steps, ∃ r, answer = .ok r := by
  intro n streamed direct sent written
  obtain ⟨hvalue, hsteps, ⟨hopen, hterminal⟩, hhost⟩ :=
    Session.run_inProcess_handling (Operation.sequence ops) h (l := { terminal := t }) rfl k
  have hstopping := Session.run_stopping (Operation.sequence ops) h
    (StreamLink.isReady_connected t) hlimit rfl k [] hfits
  refine ⟨fun hall => ?_, fun hcut => ?_, ?_⟩
  · rcases hstopping with hplayed | ⟨before, i, c, hcutoff, hlength, -⟩
    · obtain ⟨l, hready, hstate⟩ := hplayed.state_eq
      refine ⟨hplayed.value_eq.trans hvalue.symm, hplayed.steps_eq.trans hsteps.symm,
        hplayed.answered, ?_, ?_, ?_⟩
      · refine (congrArg (·.1.peer.1.terminal) hstate).trans (Eq.trans ?_ hterminal.symm)
        exact congrArg Connection.terminal hready.peer_eq
      · exact (congrArg Prod.snd hstate).trans hhost.symm
      · exact (congrArg (·.1.peer.2) hstate).trans (List.nil_append _)
    · have hmore := hcutoff.length_lt
      rw [hlength] at hmore
      exact absurd hmore (Nat.not_lt.2 hall)
  · rcases hstopping with hplayed | ⟨before, i, c, hcutoff, hlength, hleft, hclosed, hpeer⟩
    · exact absurd hplayed.length_le (Nat.not_le.2 hcut)
    · refine ⟨⟨before, i, c, hsteps ▸ hcutoff, hlength, ?_, hterminal.trans hleft, ?_⟩, ?_⟩
      · exact congrArg (·.1.terminal) hpeer
      · exact (congrArg (·.2) hpeer).trans (List.nil_append _)
      · intro connection later k' link more hencodable
        exact Session.run_closed (Operation.sequence later) Peer.served.recording h
          (l := link) hclosed k' hencodable
  · intro faults later k' hunlimited
    exact Session.run_inProcess_unlimited (Operation.sequence later) h
      (l := { direct.state.1 with terminal := { direct.state.1.terminal with faults } })
      hopen hunlimited k'

/-- A seeded terminal that stops responding in the middle of a download. -/
theorem silence_is_final_seeded :
    let t := (Terminal.seeded false true).withLimit 2
    let ops : List Operation :=
      [.display .secondary "Ready", .download .primary "iksn.txt" ⟨4, 0, 0⟩, .secureState .primary]
    let streamed := (Operation.sequence ops).run (.of (.overStream Peer.served.recording) .scripted)
      ((StreamLink.connected t).noting [], .ofScript .unreachable)
    let direct := (Operation.sequence ops).run (.of .inProcess .scripted)
      ({ terminal := t }, .ofScript .unreachable)
    t.faults.dropResponsesAfter = some 2 ∧ t.FramesFit (commandsOf streamed.steps) ∧
      2 < (commandsOf streamed.steps).length ∧
      ∃ before i c, CutOff before i c streamed.steps direct.steps ∧
        (commandsOf before).length = 2 := by
  intro t ops streamed direct
  have hfits : t.FramesFit (commandsOf streamed.steps) := by decide +kernel
  have hcut : 2 < (commandsOf streamed.steps).length := by decide +kernel
  obtain ⟨-, hbeyond, -⟩ := silence_is_final t 2 .scripted (.ofScript .unreachable) ops rfl hfits
  obtain ⟨⟨before, i, c, hcutoff, hlength, -⟩, -⟩ := hbeyond hcut
  exact ⟨rfl, hfits, hcut, before, i, c, hcutoff, hlength⟩

end KeyInjection
