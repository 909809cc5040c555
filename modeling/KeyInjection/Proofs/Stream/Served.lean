-- SUMMARY: Exchanges over a byte stream with a served terminal are as in the same process.
import KeyInjection.Proofs.Device.Operations
import KeyInjection.Proofs.Terminal.Obeying
import KeyInjection.Terminal.Server

/-!
# Served terminals are transparent

Between exchanges nothing is under way on the stream in either direction. An exchange writes one
frame, which the server reads whole, and reads one frame, which is all that the server writes; so
the stream is empty again, and the answer is the terminal's. What is put through the stream are
frames, so this is said of commands and responses that fit into frames, and of terminals that
respond, since the client waits for the response.
-/

namespace KeyInjection

variable {η : Type}

namespace Terminal

/-! ## Serving -/

theorem serve_nil (t : Terminal) : t.serve [] = ⟨t, [], some []⟩ := by
  rw [serve]
  split
  case h_1 => rfl
  case h_2 hfront => cases hfront
  case h_3 hfront => cases hfront

/-- The command of a whole frame is handled before what follows it. -/
theorem serve_frame (t : Terminal) (i : Interface) {c : Command}
    (hfits : c.data.length ≤ maxFramePayload) (rest : Bytes) :
    t.serve (c.frame i ++ rest) =
      let later := (t.handle i c).2.serve rest
      { later with replies := (t.handle i c).1.elim [] Response.frame ++ later.replies } := by
  have hframe := Front.request_frame (i := i) hfits rest
  rw [serve]
  split
  case h_1 hfront =>
    rw [hframe] at hfront
    cases hfront
  case h_2 hfront =>
    rw [hframe] at hfront
    cases hfront
  case h_3 hfront =>
    rw [hframe] at hfront
    cases hfront
    rfl

end Terminal

/-! ## Exchanges -/

namespace StreamLink

def connected (t : Terminal) : StreamLink Connection := { peer := { terminal := t } }

/-- The link is open, and nothing is under way between its ends and the terminal behind it. -/
structure IsReady (l : StreamLink Connection) (t : Terminal) : Prop where
  isOpen_eq : l.isOpen = true
  unread_eq : l.unread = []
  ending_eq : l.ending = none
  peer_eq : l.peer = { terminal := t }

theorem isReady_connected (t : Terminal) : (connected t).IsReady t := ⟨rfl, rfl, rfl, rfl⟩

variable {l : StreamLink Connection} {t : Terminal} {i : Interface} {c : Command} {r : Response}

/-- A command that is sent is handled at once; the response is under way. -/
theorem send_served (hready : l.IsReady t) (hdata : c.data.length ≤ maxFramePayload)
    (hanswer : (t.handle i c).1 = some r) :
    l.send .served i c = (.ok (), { l with
      peer := { terminal := (t.handle i c).2, replies := r.frame }, pending := some i }) := by
  have hserve : t.serve (c.frame i) = ⟨(t.handle i c).2, r.frame, some []⟩ := by
    rw [← List.append_nil (c.frame i), Terminal.serve_frame t i hdata, Terminal.serve_nil, hanswer]
    simp
  have hwrite : Peer.served.write (c.frame i) l.peer =
      (.ok (), { terminal := (t.handle i c).2, replies := r.frame }) := by
    rw [hready.peer_eq]
    simp only [Peer.served, Connection.write, List.nil_append, hserve]
  have hfits : ¬ c.data.length > maxFramePayload := Nat.not_lt.2 hdata
  have hbytes : l.outgoing i c = .ok (c.frame i) := by
    rw [outgoing, if_neg hfits, hready.isOpen_eq]
    rfl
  rw [send, hbytes]
  simp only [hwrite]

/-- A response that is under way is received whole, and nothing else. -/
theorem receive_served (hopen : l.isOpen = true) (hunread : l.unread = [])
    (hending : l.ending = none) (hpending : l.pending = some i)
    (hpeer : l.peer = { terminal := t, replies := r.frame })
    (hbody : r.body.length ≤ maxFramePayload) :
    l.receive .served i =
      (.ok (some r), { l with peer := { terminal := t }, pending := none }) := by
  have hexpecting : l.expecting i = .ok () := by
    rw [expecting, if_neg (not_not_intro hpending), hopen]
    rfl
  have hfront : Front.response r.frame = .whole r [] := by
    rw [← List.append_nil r.frame]
    exact Front.response_frame hbody []
  have hwait : l.wait .served = { l with peer := { terminal := t }, unread := r.frame } := by
    simp [wait, hending, hpeer, Peer.served, Connection.wait, arrived, hunread]
  rw [receive, hexpecting]
  simp only [hwait, read, hfront]
  rw [hunread]

/-- An exchange goes as in the same process, and leaves nothing under way. -/
theorem exchange_served (hready : l.IsReady t) (hdata : c.data.length ≤ maxFramePayload)
    (hanswer : (t.handle i c).1 = some r) (hbody : r.body.length ≤ maxFramePayload) :
    ((Channel.overStream .served).exchange i c l).1 = .ok r ∧
      ((Channel.overStream .served).exchange i c l).2.IsReady (t.handle i c).2 := by
  rw [Channel.exchange_of_send_ok (send_served hready hdata hanswer)]
  have hreceive := receive_served (l := { l with
    peer := { terminal := (t.handle i c).2, replies := r.frame }, pending := some i })
    hready.isOpen_eq hready.unread_eq hready.ending_eq rfl rfl hbody
  rw [show (Channel.overStream .served).receive i _ = _ from hreceive]
  exact ⟨rfl, hready.isOpen_eq, hready.unread_eq, hready.ending_eq, rfl⟩

end StreamLink

/-! ## Operations -/

/-- What is exchanged in the step fits into frames. -/
def Step.Fits : Step ε → Prop
  | exchanged _ c answer =>
    c.data.length ≤ maxFramePayload ∧ ∀ r, answer = .ok r → r.body.length ≤ maxFramePayload
  | _ => True

instance : DecidablePred (Step.Fits (ε := ε))
  | .exchanged _ c (.ok r) =>
    decidable_of_iff (c.data.length ≤ maxFramePayload ∧ r.body.length ≤ maxFramePayload)
      (by simp [Step.Fits])
  | .exchanged _ c (.error _) =>
    decidable_of_iff (c.data.length ≤ maxFramePayload) (by simp [Step.Fits])
  | .posted .. | .published _ => .isTrue trivial

/-- Both channels are to the same terminal, which does not stop responding. -/
structure StreamLink.Mirrors (streamed : StreamLink Connection) (direct : TerminalLink) : Prop where
  closed_eq : direct.closed = false
  unlimited : direct.terminal.faults.dropResponsesAfter = none
  isReady : streamed.IsReady direct.terminal

/-- An exchange that fits into frames is the same on both. -/
theorem StreamLink.Mirrors.exchange {streamed : StreamLink Connection} {direct : TerminalLink}
    (hmirrors : streamed.Mirrors direct) (i : Interface) (c : Command)
    (hfits : (Step.exchanged (ε := ε) i c (Channel.inProcess.exchange i c direct).1).Fits) :
    (Channel.inProcess.exchange i c direct).1 =
        ((Channel.overStream .served).exchange i c streamed).1 ∧
      ((Channel.overStream .served).exchange i c streamed).2.Mirrors
        (Channel.inProcess.exchange i c direct).2 := by
  obtain ⟨hopen, hunlimited, hready⟩ := hmirrors
  obtain ⟨hanswer, hterminal, hstill⟩ := TerminalLink.exchange_handling hopen i c
  have hhandle : (direct.terminal.handle i c).1 = some (direct.terminal.obey i c).1 := by
    rw [Terminal.handle_of_responds (Terminal.isSilent_of_unlimited hunlimited)]
  rw [hhandle] at hanswer
  rw [hanswer] at hfits ⊢
  obtain ⟨hsame, hstillReady⟩ := exchange_served hready hfits.1 hhandle (hfits.2 _ rfl)
  refine ⟨hsame.symm, hstill, ?_, ?_⟩
  · rw [hterminal, Terminal.handle_faults, hunlimited]
  · rwa [hterminal]

/-- Operations performed over a byte stream with a served terminal that does not stop responding
end in the same results as in the same process, and leave the same records, the terminal in the
same state, and the key host in the same state, provided that all that they exchange fits into
frames. -/
theorem stream_transparent (t : Terminal) (h : KeyHost η) (k : η) (ops : List Operation)
    (hunlimited : t.faults.dropResponsesAfter = none)
    (hfits : ∀ x ∈ (Operation.performAll (.of .inProcess h) ops ({ terminal := t }, k)).1,
      ∀ step ∈ x.2, step.Fits) :
    let direct := Operation.performAll (.of .inProcess h) ops ({ terminal := t }, k)
    let streamed := Operation.performAll (.of (.overStream .served) h) ops (.connected t, k)
    streamed.1 = direct.1 ∧
      streamed.2.1.peer.terminal = direct.2.1.terminal ∧
      streamed.2.2 = direct.2.2 := by
  intro direct streamed
  have hsame : direct.1 = streamed.1 ∧
      (streamed.2.1.Mirrors direct.2.1 ∧ direct.2.2 = streamed.2.2) := by
    refine Operation.performAll_simulates (w := .of .inProcess h) (v := .of (.overStream .served) h)
      (R := fun s u => u.1.Mirrors s.1 ∧ s.2 = u.2) ?_ ?_ ops
      ⟨⟨rfl, hunlimited, StreamLink.isReady_connected t⟩, rfl⟩ hfits
    · rintro i c ⟨direct, k⟩ ⟨streamed, k'⟩ ⟨hmirrors, rfl⟩ hstep
      obtain ⟨hanswer, hmirrors⟩ := hmirrors.exchange i c hstep
      exact ⟨hanswer, hmirrors, rfl⟩
    · rintro url body ⟨direct, k⟩ ⟨streamed, k'⟩ ⟨hmirrors, rfl⟩
      exact ⟨rfl, hmirrors, rfl⟩
  obtain ⟨hresults, hmirrors, hhost⟩ := hsame
  refine ⟨hresults.symm, ?_, hhost.symm⟩
  rw [hmirrors.isReady.peer_eq]

/-- A few operations on both interfaces of a seeded terminal. -/
theorem stream_transparent_seeded :
    let ops : List Operation := [.display .secondary "Ready",
      .upload .secondary "note.txt" (textBytes "three pieces") 0 12 ⟨5, 0, 0⟩,
      .download .primary "note.txt" .download, .secureState .primary]
    let direct := Operation.performAll (.of .inProcess .scripted) ops
      ({ terminal := .seeded false true }, .ofScript .unreachable)
    let streamed := Operation.performAll (.of (.overStream .served) .scripted) ops
      (.connected (.seeded false true), .ofScript .unreachable)
    (Terminal.seeded false true).faults.dropResponsesAfter = none ∧
      (∀ x ∈ direct.1, ∀ step ∈ x.2, step.Fits) ∧
      streamed.1 = direct.1 ∧ streamed.2.1.peer.terminal = direct.2.1.terminal := by
  intro ops direct streamed
  have hfits : ∀ x ∈ direct.1, ∀ step ∈ x.2, step.Fits := by decide +kernel
  obtain ⟨hresults, hterminal, -⟩ :=
    stream_transparent (.seeded false true) .scripted (.ofScript .unreachable) ops rfl hfits
  exact ⟨rfl, hfits, hresults, hterminal⟩

end KeyInjection
