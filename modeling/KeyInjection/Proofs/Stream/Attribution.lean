-- SUMMARY: Which command the response that an exchange over a byte stream ends in belongs to.
import KeyInjection.Proofs.Channel.Exchange
import KeyInjection.Stream.Link

/-!
# Attribution of responses

A peer answers every frame it is sent with one response, in order, but what it writes may arrive
late: each wait brings some more of the bytes under way, and then the stream may end. An exchange
is attributed if the response it ends in is the one that the peer gave to that very command.

A link is clean if it is closed, or nothing of an earlier answer can still be read from it. Waits
that are in vain close the link, so exchanges keep it clean, all but one kind: when a response
announces more than a frame may carry, its header is refused and its body stays on the stream. Up
to there every exchange is attributed (`attributed_of_exchangesOn`); after it the next one need not
be, whatever the length that was refused (`exists_not_attributed`).
-/

namespace KeyInjection

variable {ρ : Type}

/-! ## Peers that answer -/

/-- A response whose length can be written in a header, though perhaps not read. -/
structure WireResponse where
  response : Response
  length_lt : response.body.length < 0x100000000

/-- What a wait brings: so many of the bytes under way, and perhaps the end of the stream. -/
structure Delivery where
  count : Nat
  ending : Option StreamEnd := none

/-- A peer that answers: its state, what it answered to which bytes, the bytes of its answers that
are under way, and what the next waits bring. -/
structure AnsweringPeer (ρ : Type) where
  state : ρ
  answered : List (Bytes × WireResponse) := []
  underWay : Bytes := []
  deliveries : List Delivery

/-- The peer that answers each frame with one response. Once all deliveries are made, nothing more
arrives. -/
def Peer.answering (answer : Bytes → ρ → WireResponse × ρ) : Peer (AnsweringPeer ρ) where
  write b p :=
    let (r, state) := answer b p.state
    (.ok (), { p with
      state
      answered := p.answered ++ [(b, r)]
      underWay := p.underWay ++ r.response.frame })
  wait p :=
    match p.deliveries with
    | [] => (⟨[], none⟩, p)
    | d :: deliveries =>
      (⟨p.underWay.take d.count, d.ending⟩,
        { p with underWay := p.underWay.drop d.count, deliveries })

/-- A new link to a peer that was not sent anything. -/
def StreamLink.fresh (s : ρ) (deliveries : List Delivery) : StreamLink (AnsweringPeer ρ) :=
  { peer := { state := s, deliveries } }

/-! ## Runs of exchanges -/

/-- An exchange that was made, with what the peer answered during it. -/
structure Exchange where
  interface : Interface
  command : Command
  result : Except Error Response
  heard : List (Bytes × WireResponse)

namespace Exchange

/-- A response is the one that the peer gave to the frame of this command, the only frame it was
sent. -/
def Attributed (e : Exchange) : Prop :=
  ∀ r, e.result = .ok r →
    ∃ a : WireResponse, e.heard = [(e.command.frame e.interface, a)] ∧ a.response = r

theorem attributed_of_error {e : Exchange} {cause : Error} (herror : e.result = .error cause) :
    e.Attributed := by
  intro r hr
  rw [herror] at hr
  cases hr

/-- The command was answered, but the header of the answer was refused. -/
def Refused (e : Exchange) : Prop :=
  e.heard ≠ [] ∧ ∃ cause, e.result = .error (.frame cause)

end Exchange

def exchangeOn (answer : Bytes → ρ → WireResponse × ρ) (i : Interface) (c : Command)
    (l : StreamLink (AnsweringPeer ρ)) : Exchange × StreamLink (AnsweringPeer ρ) :=
  let (result, l') := (Channel.overStream (.answering answer)).exchange i c l
  (⟨i, c, result, l'.peer.answered.drop l.peer.answered.length⟩, l')

def exchangesOn (answer : Bytes → ρ → WireResponse × ρ) :
    List (Interface × Command) → StreamLink (AnsweringPeer ρ) → List Exchange
  | [], _ => []
  | (i, c) :: rest, l =>
    let (e, l) := exchangeOn answer i c l
    e :: exchangesOn answer rest l

theorem exchangesOn_cons (answer : Bytes → ρ → WireResponse × ρ) (i : Interface) (c : Command)
    (rest : List (Interface × Command)) (l : StreamLink (AnsweringPeer ρ)) :
    exchangesOn answer ((i, c) :: rest) l =
      (exchangeOn answer i c l).1 :: exchangesOn answer rest (exchangeOn answer i c l).2 := rfl

/-! ## Fronts of frames that have arrived in part -/

namespace Front

/-- A front that follows what was read of `b` from the rest of it was there in `b`. -/
theorem response_take {b : Bytes} (n : Nat) (hdecided : response (b.take n) ≠ .incomplete) :
    response b = (response (b.take n)).followedBy (b.drop n) := by
  conv => lhs; rw [← List.take_append_drop n b]
  exact ofHeader_append hdecided

/-- The header of a response that is too long is refused; its body is left. -/
theorem response_frame_refused {a : WireResponse}
    (hlong : maxFramePayload < a.response.body.length) (rest : Bytes) :
    response (a.response.frame ++ rest) = .refused .invalidLength (a.response.body ++ rest) := by
  have hlength : (UInt32.ofNat a.response.body.length).toNat = a.response.body.length :=
    UInt32.toNat_ofNat_of_lt' a.length_lt
  have hword : Bytes.word32 ((ResponseFrame.mk a.response.status
      (UInt32.ofNat a.response.body.length)).bytes.drop 4) =
        UInt32.ofNat a.response.body.length := by
    rw [ResponseFrame.bytes, List.drop_left' (by simp)]
    simpa using Bytes.word32_ofWord32 (UInt32.ofNat a.response.body.length) []
  have hdecode : ResponseFrame.decode (ResponseFrame.mk a.response.status
      (UInt32.ofNat a.response.body.length)).bytes = .error .invalidLength := by
    rw [ResponseFrame.decode, if_neg (by simp), hword]
    exact if_pos (by rw [hlength]; exact hlong)
  rw [Response.frame, List.append_assoc, response, ofHeader,
    if_neg (by simp [ResponseFrame.length_bytes]), List.take_left' (ResponseFrame.length_bytes _),
    List.drop_left' (ResponseFrame.length_bytes _), hdecode]

/-- Of a response that has arrived in part, the front is the response only if all of it has
arrived, and refused only if it is too long. -/
theorem response_frame_take (a : WireResponse) (n : Nat) :
    response (a.response.frame.take n) = .incomplete ∨
      (response (a.response.frame.take n) = .whole a.response [] ∧
        a.response.frame.drop n = []) ∨
      (maxFramePayload < a.response.body.length ∧
        ∃ cause rest, response (a.response.frame.take n) = .refused cause rest) := by
  by_cases hdecided : response (a.response.frame.take n) = .incomplete
  · exact .inl hdecided
  have hfront := response_take n hdecided
  by_cases hlong : maxFramePayload < a.response.body.length
  · have hrefused := response_frame_refused hlong []
    rw [List.append_nil, List.append_nil, hfront] at hrefused
    refine .inr (.inr ⟨hlong, ?_⟩)
    cases hpart : response (a.response.frame.take n) with
    | incomplete => exact absurd hpart hdecided
    | refused cause rest => exact ⟨cause, rest, rfl⟩
    | whole r rest =>
      rw [hpart] at hrefused
      cases hrefused
  · have hwhole := response_frame (Nat.le_of_not_lt hlong) []
    rw [List.append_nil, hfront] at hwhole
    refine .inr (.inl ?_)
    cases hpart : response (a.response.frame.take n) with
    | incomplete => exact absurd hpart hdecided
    | refused cause rest =>
      rw [hpart] at hwhole
      cases hwhole
    | whole r rest =>
      rw [hpart] at hwhole
      obtain ⟨rfl, hrest⟩ := Front.whole.inj hwhole
      obtain ⟨rfl, hdrop⟩ := List.append_eq_nil_iff.1 hrest
      exact ⟨rfl, hdrop⟩

end Front

/-! ## One exchange -/

/-- The link is closed, or nothing of an earlier answer can still be read from it. -/
def StreamLink.Clean (l : StreamLink (AnsweringPeer ρ)) : Prop :=
  l.isOpen = false ∨ (l.unread = [] ∧ (l.ending ≠ none ∨ l.peer.underWay = []))

theorem StreamLink.clean_fresh (s : ρ) (deliveries : List Delivery) :
    (fresh s deliveries).Clean := .inr ⟨rfl, .inr rfl⟩

theorem StreamLink.read_of_whole {l : StreamLink ρ} {r : Response} {rest : Bytes}
    (hfront : Front.response l.unread = .whole r rest) :
    l.read = (.ok (some r), { l with unread := rest, pending := none }) := by
  rw [read, hfront]

theorem StreamLink.read_of_refused {l : StreamLink ρ} {cause : CodecError} {rest : Bytes}
    (hfront : Front.response l.unread = .refused cause rest) :
    l.read = (.error (.frame cause), { l with unread := rest, pending := none }) := by
  rw [read, hfront]

/-- A wait that ends without a whole frame leaves a link that has ended, or is given up. -/
theorem StreamLink.read_clean {l : StreamLink (AnsweringPeer ρ)}
    (hfront : Front.response l.unread = .incomplete) (i : Interface) (c : Command)
    (heard : List (Bytes × WireResponse)) :
    let e : Exchange := ⟨i, c, ofReceived l.read.1, heard⟩
    e.Attributed ∧ l.read.2.Clean ∧ ¬ e.Refused := by
  rw [StreamLink.read, hfront]
  dsimp only
  cases hending : l.ending with
  | some ending =>
    refine ⟨Exchange.attributed_of_error rfl, .inr ⟨rfl, .inl (by simp)⟩, ?_⟩
    rintro ⟨-, cause, hcause⟩
    cases ending <;> cases hcause
  | none =>
    refine ⟨Exchange.attributed_of_error rfl, .inl rfl, ?_⟩
    rintro ⟨-, cause, hcause⟩
    cases hcause

/-- The link once a command has been answered. -/
def StreamLink.sent (i : Interface) (b : Bytes) (a : WireResponse × ρ)
    (l : StreamLink (AnsweringPeer ρ)) : StreamLink (AnsweringPeer ρ) :=
  { l with
    peer := { l.peer with
      state := a.2
      answered := l.peer.answered ++ [(b, a.1)]
      underWay := l.peer.underWay ++ a.1.response.frame }
    pending := some i }

variable {answer : Bytes → ρ → WireResponse × ρ} {i : Interface} {c : Command}
  {l : StreamLink (AnsweringPeer ρ)}

/-- Over an open link a command that a frame may carry is answered, and the link is read once. -/
theorem exchangeOn_sent (hopen : l.isOpen = true) (hfits : c.data.length ≤ maxFramePayload)
    {arrived after : StreamLink (AnsweringPeer ρ)} {received : Except Error (Option Response)}
    (hwait : (l.sent i (c.frame i) (answer (c.frame i) l.peer.state)).wait (.answering answer) =
      arrived) (hread : arrived.read = (received, after)) :
    exchangeOn answer i c l =
      (⟨i, c, ofReceived received, after.peer.answered.drop l.peer.answered.length⟩, after) := by
  let a := answer (c.frame i) l.peer.state
  have hsend : (Channel.overStream (.answering answer)).send i c l =
      (.ok (), l.sent i (c.frame i) a) := by
    have hout : l.outgoing i c = .ok (c.frame i) := by
      rw [StreamLink.outgoing, if_neg (Nat.not_lt.2 hfits), if_neg (by simp [hopen])]
    show l.send (.answering answer) i c = _
    rw [StreamLink.send, hout]
    rfl
  have hreceive : (Channel.overStream (.answering answer)).receive i (l.sent i (c.frame i) a) =
      (received, after) := by
    have hexpected : (l.sent i (c.frame i) a).expecting i = .ok () := by
      simp [StreamLink.expecting, StreamLink.sent, hopen]
    show (l.sent i (c.frame i) a).receive (.answering answer) i = _
    rw [StreamLink.receive, hexpected]
    show StreamLink.read _ = _
    rw [hwait, hread]
  unfold exchangeOn
  rw [Channel.exchange_of_send_ok hsend, hreceive]

/-- Otherwise it fails before anything is written. -/
theorem exchangeOn_unsent (answer : Bytes → ρ → WireResponse × ρ) (i : Interface)
    (hunsent : ¬ (l.isOpen = true ∧ c.data.length ≤ maxFramePayload)) :
    ∃ e, exchangeOn answer i c l = (⟨i, c, .error e, []⟩, l) := by
  obtain ⟨e, hout⟩ : ∃ e, l.outgoing i c = .error e := by
    unfold StreamLink.outgoing
    split
    case isTrue => exact ⟨_, rfl⟩
    case isFalse hfits =>
      rw [if_pos (by simpa using fun hopen => hunsent ⟨hopen, Nat.le_of_not_lt hfits⟩)]
      exact ⟨_, rfl⟩
  have hsend : (Channel.overStream (.answering answer)).send i c l = (.error e, l) := by
    show l.send (.answering answer) i c = _
    rw [StreamLink.send, hout]
  refine ⟨e, ?_⟩
  unfold exchangeOn
  rw [Channel.exchange_of_send_error hsend]
  simp

/-- An exchange over a clean link is attributed, and leaves the link clean unless it was refused
for a response that is too long. -/
theorem exchangeOn_clean (answer : Bytes → ρ → WireResponse × ρ) (i : Interface) (c : Command)
    (hclean : l.Clean) :
    let made := exchangeOn answer i c l
    made.1.Attributed ∧ ((made.2.Clean ∧ ¬ made.1.Refused) ∨
      (made.1.Refused ∧ ∃ a : WireResponse, made.1.heard = [(c.frame i, a)] ∧
        maxFramePayload < a.response.body.length)) := by
  by_cases hsent : l.isOpen = true ∧ c.data.length ≤ maxFramePayload
  case neg =>
    obtain ⟨e, heq⟩ := exchangeOn_unsent answer i hsent
    rw [heq]
    exact ⟨Exchange.attributed_of_error rfl, .inl ⟨hclean, fun hrefused => hrefused.1 rfl⟩⟩
  obtain ⟨hopen, hfits⟩ := hsent
  rw [exchangeOn_sent hopen hfits rfl (Prod.eta _).symm]
  generalize answer (c.frame i) l.peer.state = a
  obtain ⟨hunread, hrest⟩ : l.unread = [] ∧ (l.ending ≠ none ∨ l.peer.underWay = []) := by
    rcases hclean with hclosed | hclean
    · rw [hopen] at hclosed
      cases hclosed
    · exact hclean
  have hincomplete : Front.response [] = .incomplete := rfl
  cases hending : l.ending with
  | some ending =>
    have hwait : (l.sent i (c.frame i) a).wait (.answering answer) = l.sent i (c.frame i) a := by
      rw [StreamLink.wait]
      simp [StreamLink.sent, hending]
    rw [hwait]
    have hnothing : Front.response (l.sent i (c.frame i) a).unread = .incomplete := by
      rw [← hincomplete, ← hunread]
      rfl
    obtain ⟨hattributed, hclean⟩ := StreamLink.read_clean hnothing i c _
    exact ⟨hattributed, .inl hclean⟩
  | none =>
    have hway : l.peer.underWay = [] := hrest.resolve_left (fun h => h hending)
    cases hdeliveries : l.peer.deliveries with
    | nil =>
      have hwait : ((l.sent i (c.frame i) a).wait (.answering answer)).unread = [] := by
        simp [StreamLink.wait, StreamLink.sent, StreamLink.arrived, Peer.answering, hending,
          hdeliveries, hunread]
      obtain ⟨hattributed, hclean⟩ := StreamLink.read_clean (by rw [hwait, hincomplete]) i c _
      exact ⟨hattributed, .inl hclean⟩
    | cons d deliveries =>
      let arrived : StreamLink (AnsweringPeer ρ) :=
        { l with
          peer :=
            { state := a.2
              answered := l.peer.answered ++ [(c.frame i, a.1)]
              underWay := a.1.response.frame.drop d.count
              deliveries }
          unread := a.1.response.frame.take d.count
          ending := d.ending
          pending := some i }
      have hwait : (l.sent i (c.frame i) a).wait (.answering answer) = arrived := by
        simp [StreamLink.wait, StreamLink.sent, StreamLink.arrived, Peer.answering, hending,
          hdeliveries, hunread, hway, arrived]
      rw [hwait]
      rcases Front.response_frame_take a.1 d.count with
        hpart | ⟨hwhole, hall⟩ | ⟨hlong, e, rest, hrefused⟩
      · obtain ⟨hattributed, hclean⟩ := StreamLink.read_clean (l := arrived) hpart i c _
        exact ⟨hattributed, .inl hclean⟩
      · rw [StreamLink.read_of_whole (l := arrived) hwhole]
        refine ⟨fun r hr => ?_, .inl ⟨.inr ⟨rfl, .inr hall⟩, ?_⟩⟩
        · cases hr
          exact ⟨a.1, by simp [arrived], rfl⟩
        · rintro ⟨-, cause, hcause⟩
          cases hcause
      · rw [StreamLink.read_of_refused (l := arrived) hrefused]
        exact ⟨Exchange.attributed_of_error rfl,
          .inr ⟨⟨by simp [arrived], e, rfl⟩, a.1, by simp [arrived], hlong⟩⟩

/-! ## Runs -/

/-- As long as no answer is refused, every exchange is attributed. -/
theorem attributed_of_exchangesOn {requests : List (Interface × Command)} (hclean : l.Clean)
    {earlier later : List Exchange} {e : Exchange}
    (hrun : exchangesOn answer requests l = earlier ++ e :: later)
    (hearlier : ∀ x ∈ earlier, ¬ x.Refused) :
    e.Attributed ∧ (e.Refused → ∃ a : WireResponse,
      e.heard = [(e.command.frame e.interface, a)] ∧
        maxFramePayload < a.response.body.length) := by
  -- Every exchange before the one in question leaves a clean link to the next.
  induction requests generalizing l earlier with
  | nil =>
    rw [exchangesOn] at hrun
    cases earlier <;> cases hrun
  | cons request rest ih =>
    obtain ⟨i, c⟩ := request
    obtain ⟨hattributed, hafter⟩ := exchangeOn_clean answer i c hclean
    rw [exchangesOn_cons] at hrun
    cases earlier with
    | nil =>
      obtain ⟨rfl, -⟩ := List.cons.inj hrun
      refine ⟨hattributed, fun hrefused => ?_⟩
      rcases hafter with ⟨-, hread⟩ | hlong
      · exact absurd hrefused hread
      · exact hlong.2
    | cons x earlier =>
      obtain ⟨rfl, hrest⟩ := List.cons.inj hrun
      rcases hafter with ⟨hnext, -⟩ | ⟨hrefused, -⟩
      · exact ih hnext hrest fun x hx => hearlier x (List.mem_cons_of_mem _ hx)
      · exact absurd hrefused (hearlier _ (List.mem_cons_self ..))

/-! ## Refused answers -/

/-- An answer of `n` bytes that begin with the frame of another response. -/
def WireResponse.carrying (forged : Response) (n : Nat) (hfits : forged.frame.length ≤ n)
    (hn : n < 0x100000000) : WireResponse where
  response := ⟨.success, forged.frame ++ List.replicate (n - forged.frame.length) 0⟩
  length_lt := by
    rw [List.length_append, List.length_replicate]
    omega

section

variable {n : Nat} {forged : Response} (hfits : forged.frame.length ≤ n) (hn : n < 0x100000000)

theorem WireResponse.length_carrying : (carrying forged n hfits hn).response.body.length = n := by
  show (forged.frame ++ List.replicate (n - forged.frame.length) 0).length = n
  rw [List.length_append, List.length_replicate]
  omega

theorem WireResponse.length_frame (a : WireResponse) :
    a.response.frame.length = 8 + a.response.body.length := by
  rw [Response.frame, List.length_append, ResponseFrame.length_bytes]
  rfl

/-- The first frame is answered by `first`, every later one by `later`. -/
def answerOnce (first later : WireResponse) (_ : Bytes) (asked : Bool) : WireResponse × Bool :=
  (if asked then later else first, true)

/-- After an answer that is refused, the next exchange can end in whatever response the body of the
refused one begins with. -/
theorem exchangesOn_forged (hlong : maxFramePayload < n)
    (hforged : forged.body.length ≤ maxFramePayload) (given : WireResponse) {i j : Interface}
    {c d : Command} (hc : c.data.length ≤ maxFramePayload) (hd : d.data.length ≤ maxFramePayload) :
    exchangesOn (answerOnce (.carrying forged n hfits hn) given) [(i, c), (j, d)]
        (.fresh false [⟨8 + n, none⟩, ⟨0, none⟩]) =
      [⟨i, c, .error (.frame .invalidLength), [(c.frame i, .carrying forged n hfits hn)]⟩,
        ⟨j, d, .ok forged, [(d.frame j, given)]⟩] := by
  let long := WireResponse.carrying forged n hfits hn
  have hlength : long.response.body.length = n := WireResponse.length_carrying hfits hn
  -- The body of the first answer is left on the stream, behind the header that was refused.
  let left : StreamLink (AnsweringPeer Bool) :=
    { peer :=
        { state := true
          answered := [(c.frame i, long)]
          deliveries := [⟨0, none⟩] }
      unread := long.response.body }
  have hfirst : exchangeOn (answerOnce long given) i c (.fresh false [⟨8 + n, none⟩, ⟨0, none⟩]) =
      (⟨i, c, .error (.frame .invalidLength), [(c.frame i, long)]⟩, left) := by
    have hframe : long.response.frame.length ≤ 8 + n :=
      Nat.le_of_eq (by rw [long.length_frame, hlength])
    have hwait : ((StreamLink.fresh false [⟨8 + n, none⟩, ⟨0, none⟩]).sent i (c.frame i)
        (long, true)).wait (.answering (answerOnce long given)) =
          { left with unread := long.response.frame, pending := some i } := by
      simp [StreamLink.wait, StreamLink.sent, StreamLink.fresh, StreamLink.arrived, Peer.answering,
        List.take_of_length_le hframe, List.drop_of_length_le hframe, left]
    have hrefused : Front.response long.response.frame =
        .refused .invalidLength long.response.body := by
      simpa using Front.response_frame_refused (a := long) (by rw [hlength]; exact hlong) []
    rw [exchangeOn_sent rfl hc hwait (StreamLink.read_of_refused hrefused)]
    rfl
  have hsecond : (exchangeOn (answerOnce long given) j d left).1 =
      ⟨j, d, .ok forged, [(d.frame j, given)]⟩ := by
    have hwait : (left.sent j (d.frame j) (given, true)).wait (.answering (answerOnce long given)) =
        { left.sent j (d.frame j) (given, true) with
          peer := { (left.sent j (d.frame j) (given, true)).peer with deliveries := [] } } := by
      simp [StreamLink.wait, StreamLink.sent, StreamLink.arrived, Peer.answering, left]
    have hwhole := Front.response_frame hforged (List.replicate (n - forged.frame.length) 0)
    rw [exchangeOn_sent rfl hd hwait (StreamLink.read_of_whole hwhole)]
    rfl
  rw [exchangesOn_cons, exchangesOn_cons, exchangesOn, hfirst, hsecond]

end

/-- With every length that is refused there is a run with an exchange that is not attributed: a
terminal that refuses to tell the state of its secure storage appears to have all keys in place. -/
theorem exists_not_attributed {n : Nat} (hlong : maxFramePayload < n) (hn : n < 0x100000000) :
    ∃ (answer : Bytes → Bool → WireResponse × Bool) (deliveries : List Delivery)
        (requests : List (Interface × Command)) (first second : Exchange),
      exchangesOn answer requests (.fresh false deliveries) = [first, second] ∧
        (∃ a : WireResponse, first.heard = [(first.command.frame first.interface, a)] ∧
          a.response.body.length = n) ∧
        ¬ second.Attributed := by
  let query : Command := ⟨Request.secureState.header, []⟩
  let forged : Response := ⟨.success, SecureState.provisioned.bytes⟩
  let given : WireResponse := ⟨⟨.securityStatus, []⟩, by decide⟩
  have hlength : maxFramePayload = 1048576 := rfl
  have hfits : forged.frame.length ≤ n := by
    show 12 ≤ n
    omega
  refine ⟨_, _, _, _, _, exchangesOn_forged hfits hn hlong (by decide) given
    (i := .primary) (j := .primary) (c := query) (d := query) (by decide) (by decide),
    ⟨_, rfl, WireResponse.length_carrying hfits hn⟩, ?_⟩
  intro hattributed
  obtain ⟨a, hheard, hresponse⟩ := hattributed forged rfl
  obtain ⟨-, rfl⟩ := Prod.mk.inj (List.cons.inj hheard).1
  exact absurd (congrArg (·.status) hresponse) (by decide)

/-! ## When exchanges are attributed -/

/-- In every run of exchanges each one is attributed as long as none before it was refused, and
only an answer that announces more than a frame may carry is refused. After such an answer, of
whatever length that a header can tell, attribution fails in some runs: the condition cannot be
dropped. -/
theorem attributed_until_refused (answer : Bytes → ρ → WireResponse × ρ) (s : ρ)
    (deliveries : List Delivery) (requests : List (Interface × Command)) :
    (∀ (earlier later : List Exchange) (e : Exchange),
      exchangesOn answer requests (.fresh s deliveries) = earlier ++ e :: later →
        (∀ x ∈ earlier, ¬ x.Refused) →
          e.Attributed ∧ (e.Refused → ∃ a : WireResponse,
            e.heard = [(e.command.frame e.interface, a)] ∧
              maxFramePayload < a.response.body.length)) ∧
    ∀ n, maxFramePayload < n → n < 0x100000000 →
      ∃ (answer : Bytes → Bool → WireResponse × Bool) (deliveries : List Delivery)
          (requests : List (Interface × Command)) (first second : Exchange),
        exchangesOn answer requests (.fresh false deliveries) = [first, second] ∧
          (∃ a : WireResponse, first.heard = [(first.command.frame first.interface, a)] ∧
            a.response.body.length = n) ∧
          ¬ second.Attributed := by
  constructor
  · intro earlier later e hrun hearlier
    exact attributed_of_exchangesOn (StreamLink.clean_fresh s deliveries) hrun hearlier
  · intro n hlong hn
    exact exists_not_attributed hlong hn

/-- Not every exchange is attributed: an answer of one byte more than a frame carries is enough. -/
theorem not_always_attributed :
    ¬ ∀ (ρ : Type) (answer : Bytes → ρ → WireResponse × ρ) (s : ρ) (deliveries : List Delivery)
        (requests : List (Interface × Command)),
      ∀ e ∈ exchangesOn answer requests (.fresh s deliveries), e.Attributed := by
  intro halways
  obtain ⟨answer, deliveries, requests, first, second, hrun, -, hsecond⟩ :=
    exists_not_attributed (n := maxFramePayload + 1) (Nat.lt_succ_self _) (by decide)
  refine hsecond (halways Bool answer false deliveries requests second ?_)
  rw [hrun]
  exact List.mem_cons_of_mem _ (List.mem_cons_self ..)

end KeyInjection
