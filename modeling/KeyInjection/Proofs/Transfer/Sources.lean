-- SUMMARY: An upload from a source does what an upload of a buffer with the same bytes does.
import KeyInjection.Channel.Script
import KeyInjection.Proofs.Session.Runs
import KeyInjection.Proofs.Transfer.Dialogue

/-!
# Uploads from sources

A source delivers some bytes if reading brings them in order, as many at a time as the source
likes, and nothing once all have been brought. Gathering evens this out: whatever the sizes of the
pieces that the source gives, `gather` fills each room that it is asked to fill, and comes back with
less only when the bytes run out. So the pieces that are written are those that a buffer is cut
into, and the two kinds of upload are one session. From a source of which nothing is known still
some pieces are written, and then the upload is closed or fails as the source does
(`exists_writeFrom_eq`).
-/

namespace KeyInjection

variable {τ : Type}

/-! ## What a source delivers -/

namespace ByteSource

variable {src : ByteSource τ} {s : τ} {data : Bytes} {room : Nat}

/-- `left` tells which bytes a source has still to give: reading, with some room for them, takes
bytes off their front, at least one unless there are none. -/
structure Tracks (src : ByteSource τ) (left : τ → Bytes → Prop) : Prop where
  read {s : τ} {data : Bytes} {room : Nat} (hleft : left s data) (hroom : 0 < room) :
    ∃ piece rest s', src.read room s = (.ok piece, s') ∧ data = piece ++ rest ∧
      piece.length ≤ room ∧ (data ≠ [] → piece ≠ []) ∧ left s' rest

/-- From this state the source gives these bytes, in pieces of any sizes, and then no more. -/
def Delivers (src : ByteSource τ) (s : τ) (data : Bytes) : Prop :=
  ∃ left, src.Tracks left ∧ left s data

theorem Delivers.read (hdelivers : src.Delivers s data) (hroom : 0 < room) :
    ∃ piece rest s', src.read room s = (.ok piece, s') ∧ data = piece ++ rest ∧
      piece.length ≤ room ∧ (data ≠ [] → piece ≠ []) ∧ src.Delivers s' rest := by
  obtain ⟨left, htracks, hleft⟩ := hdelivers
  obtain ⟨piece, rest, s', hread, hdata, hfits, hsome, hrest⟩ := htracks.read hleft hroom
  exact ⟨piece, rest, s', hread, hdata, hfits, hsome, left, htracks, hrest⟩

/-- After a piece that was read, gathering goes on with the room that is left. -/
theorem gatherAfter_of_read {s' : τ} {piece : Bytes} (hread : src.read room s = (.ok piece, s'))
    (hsome : piece ≠ []) (hfits : piece.length ≤ room) (past : List Bytes) :
    src.gatherAfter past room s = src.gatherAfter (piece :: past) (room - piece.length) s' := by
  have hadvanced : 0 < piece.length := List.length_pos_iff.2 hsome
  have hpiece : piece.take room = piece := List.take_of_length_le hfits
  rw [gatherAfter, dif_neg (Nat.ne_of_gt (Nat.lt_of_lt_of_le hadvanced hfits)), hread]
  simp only [hpiece]
  rw [dif_pos hadvanced]

/-- Gathering brings as many bytes as there is room for, or all that are left. -/
theorem gatherAfter_of_delivers (hdelivers : src.Delivers s data) (past : List Bytes) :
    ∃ s', src.gatherAfter past room s = (.ok (past.reverse.flatten ++ data.take room), s') ∧
      src.Delivers s' (data.drop room) := by
  -- The induction is on the room, which every piece that is given takes some of.
  induction room using Nat.strongRecOn generalizing past s data with
  | _ room ih =>
    by_cases hfull : room = 0
    · subst hfull
      rw [gatherAfter, dif_pos rfl]
      exact ⟨s, by simp, by simpa using hdelivers⟩
    obtain ⟨piece, rest, s', hread, rfl, hfits, hsome, hrest⟩ :=
      hdelivers.read (Nat.pos_of_ne_zero hfull)
    by_cases hended : piece = []
    · have hnone : piece ++ rest = [] := Classical.byContradiction fun hmore => hsome hmore hended
      obtain ⟨rfl, rfl⟩ := List.append_eq_nil_iff.1 hnone
      rw [gatherAfter, dif_neg hfull, hread]
      exact ⟨s', by simp, by simpa using hrest⟩
    · have hadvanced : 0 < piece.length := List.length_pos_iff.2 hended
      obtain ⟨s'', hgather, hleft⟩ :=
        ih (room - piece.length) (Nat.sub_lt (Nat.pos_of_ne_zero hfull) hadvanced) hrest
          (piece :: past)
      rw [gatherAfter_of_read hread hended hfits, hgather]
      refine ⟨s'', ?_, ?_⟩
      · simp [List.take_append, List.take_of_length_le hfits]
      · simpa [List.drop_append, List.drop_of_length_le hfits] using hleft

theorem gather_of_delivers (room : Nat) (hdelivers : src.Delivers s data) :
    ∃ s', src.gather room s = (.ok (data.take room), s') ∧ src.Delivers s' (data.drop room) := by
  simpa [gather] using gatherAfter_of_delivers hdelivers []

/-! ## Sources that deal out pieces -/

/-- A source that deals out the given pieces, one at a time; what there is no room for is kept for
the next read. -/
def dealing : ByteSource (List Bytes) where
  read room
    | [] => (.ok [], [])
    | piece :: rest =>
      (.ok (piece.take room), if piece.length ≤ room then rest else piece.drop room :: rest)
  close _ := []

theorem tracks_dealing :
    dealing.Tracks fun pieces data => [] ∉ pieces ∧ data = pieces.flatten := by
  refine ⟨?_⟩
  rintro (_ | ⟨piece, rest⟩) _ room ⟨hsome, rfl⟩ hroom
  · exact ⟨[], [], [], rfl, rfl, Nat.zero_le _, id, by simp, rfl⟩
  obtain ⟨hpiece, hrest⟩ := not_or.1 fun h => hsome (List.mem_cons.2 h)
  have hlength : 0 < piece.length := List.length_pos_iff.2 (Ne.symm hpiece)
  have hgiven : piece.take room ≠ [] := by
    apply List.length_pos_iff.1
    rw [List.length_take]
    omega
  refine ⟨piece.take room, piece.drop room ++ rest.flatten, _, rfl, ?_, ?_, fun _ => hgiven, ?_⟩
  · rw [← List.append_assoc, List.take_append_drop]
    rfl
  · exact List.length_take_le ..
  · by_cases hfits : piece.length ≤ room
    · simp [hfits, hrest, List.drop_of_length_le hfits]
    · have hkept : piece.drop room ≠ [] := by
        apply List.length_pos_iff.1
        rw [List.length_drop]
        omega
      simp [hfits, hrest, Ne.symm hkept]

theorem delivers_dealing {pieces : List Bytes} (hsome : [] ∉ pieces) :
    dealing.Delivers pieces pieces.flatten := ⟨_, tracks_dealing, hsome, rfl⟩

end ByteSource

/-! ## Uploads -/

namespace Transfer

open ByteSource

variable {ε σ : Type} {src : ByteSource τ} {s : τ} {i : Interface} {options : TransferOptions}
variable {report : Nat → ε}

/-- Writing pieces takes the first one and then goes on with the rest. -/
theorem run_writeEach_cons (sent : Nat) (pace : Pace) (piece : Bytes) (rest : List Bytes)
    (k : Nat × Pace → Attempt ε Error α) :
    (writeEach i options report sent pace (piece :: rest) >>= k).run =
      if 0x100000000 ≤ sent then pure (.error .fileTooLarge)
      else (writePiece i options.delayMs sent piece : Attempt ε Error Unit).run >>= fun
        | .error e => pure (.error e)
        | .ok () => (do
          if pace.isDue piece.length then Session.emit (report (sent + piece.length))
          (writeEach i options report (sent + piece.length) (pace.advance piece.length) rest >>= k
            ).run) := by
  rw [writeEach]
  split
  · rfl
  · simp only [bind_assoc, ExceptT.run_bind]
    congr 1
    funext r
    cases r with
    | error e => rfl
    | ok _ =>
      dsimp only
      split <;> rfl

/-- A piece that was gathered is written, and then what comes after it. -/
theorem writeFrom_of_gather {s' : τ} {piece : Bytes} {rest : List Bytes} {sent : Nat}
    {k : Nat × Pace → Attempt ε Error Nat}
    (hgather : src.gather options.maxChunk s = (.ok piece, s')) (hpiece : 0 < piece.length)
    (pace : Pace)
    (hrest : ∀ pace, Prod.fst <$> writeFrom src i options report (sent + piece.length) pace s' =
      (writeEach i options report (sent + piece.length) pace rest >>= k).run) :
    Prod.fst <$> writeFrom src i options report sent pace s =
      (writeEach i options report sent pace (piece :: rest) >>= k).run := by
  rw [run_writeEach_cons, writeFrom, hgather]
  simp only [hpiece, true_and]
  by_cases hsent : sent < 0x100000000
  · rw [dif_pos hsent, if_neg (Nat.not_le.2 hsent)]
    simp only [map_bind]
    congr 1
    funext r
    cases r with
    | error e => rfl
    | ok _ =>
      dsimp only
      rw [← hrest]
      split
      · exact map_bind ..
      · rfl
  · rw [dif_neg hsent, if_pos (Nat.le_of_not_lt hsent)]
    rfl

/-- What a source still delivers is written like the pieces that it is cut into. -/
theorem writeFrom_eq_writePieces (hchunk : 0 < options.maxChunk) {data : Bytes}
    (hdelivers : src.Delivers s data) (sent : Nat) (pace : Pace) :
    Prod.fst <$> writeFrom src i options report sent pace s =
      (writePieces i options report sent pace (Bytes.pieces options.maxChunk data)).run := by
  -- The induction follows the pieces: gathering brings the next one whole.
  induction data using Bytes.pieces_induction hchunk generalizing s sent pace with
  | nil =>
    obtain ⟨s', hgather, -⟩ := gather_of_delivers options.maxChunk hdelivers
    rw [Bytes.pieces_nil, writePieces, writeFrom, hgather]
    simp only [List.take_nil, List.length_nil, Nat.lt_irrefl, false_and, dite_false, if_false]
    split <;> rfl
  | step data hmore ih =>
    obtain ⟨s', hgather, hrest⟩ := gather_of_delivers options.maxChunk hdelivers
    have hpiece : 0 < (data.take options.maxChunk).length := by
      have := List.length_pos_iff.2 hmore
      rw [List.length_take]
      omega
    rw [Bytes.pieces_of_ne_nil hchunk hmore, writePieces_eq]
    refine writeFrom_of_gather hgather hpiece pace fun pace => ?_
    rw [← writePieces_eq]
    exact ih hrest _ pace

/-- An upload from a source selects its file, and once it is selected writes what the source
gives. -/
theorem uploadFrom_eq (hchunk : options.maxChunk ≠ 0) (name : String) :
    uploadFrom src s i name options report =
      (selectForWriting i name : Attempt ε Error Unit).run >>= fun
        | .error e => pure (some (.error e), src.close s)
        | .ok () => Prod.map id src.close <$> writeBuffered src i options report s := by
  unfold uploadFrom
  rw [if_neg hchunk]
  rfl

/-- So it does what writing does, if there is a buffer for its pieces. -/
theorem uploadFrom_of_writeFrom (hchunk : options.maxChunk ≠ 0)
    (hbuffer : options.maxChunk ≤ maxBuffer) {a : Attempt ε Error Nat}
    (hwrites : Prod.fst <$> writeFrom src i options report 0 (.start options.granularity) s = a.run)
    (name : String) :
    Prod.fst <$> uploadFrom src s i name options report =
      some <$> (selectForWriting i name >>= fun _ => a : Attempt ε Error Nat).run := by
  have hall : Prod.fst <$> Prod.map id src.close <$> writeBuffered src i options report s =
      some <$> a.run := by
    rw [writeBuffered, if_neg (Nat.not_lt.2 hbuffer), ← hwrites]
    simp only [Functor.map_map]
    rfl
  rw [uploadFrom_eq hchunk, ExceptT.run_bind, map_bind, map_bind]
  congr 1
  funext r
  cases r with
  | error e => rfl
  | ok _ => exact hall

/-- As sessions, an upload from a source and one of a part of a buffer with the same bytes cannot be
told apart. -/
theorem uploadFrom_eq_uploadRange {buffer : Bytes} {offset length : Nat}
    (hrange : offset + length ≤ buffer.length) (hbuffer : options.maxChunk ≤ maxBuffer)
    (hdelivers : src.Delivers s ((buffer.drop offset).take length)) (name : String) :
    Prod.fst <$> uploadFrom src s i name options report =
      some <$> (uploadRange buffer offset length i name options report).run := by
  by_cases hchunk : options.maxChunk = 0
  · unfold uploadFrom uploadRange
    rw [if_pos hchunk, if_pos hchunk]
    rfl
  · have hpositive : 0 < options.maxChunk := Nat.pos_of_ne_zero hchunk
    rw [uploadFrom_of_writeFrom hchunk hbuffer (writeFrom_eq_writePieces hpositive hdelivers 0 _)]
    unfold uploadRange
    rw [if_neg hchunk, if_neg (Nat.not_lt.2 hrange)]

/-- A source that delivers the bytes of a part of a buffer, dealt out in whatever pieces, is
uploaded just as that part is, if there is a buffer for its pieces: in all surroundings the same
commands are submitted and get the same answers, the same progress is reported in the same places,
and the end is the same. -/
theorem source_agrees_with_buffer (src : ByteSource τ) (s : τ) (buffer : Bytes)
    (offset length : Nat) (i : Interface) (name : String) (options : TransferOptions)
    (report : Nat → ε) (hrange : offset + length ≤ buffer.length)
    (hdelivers : src.Delivers s ((buffer.drop offset).take length))
    (hbuffer : options.maxChunk ≤ maxBuffer) (w : Surroundings σ) (x : σ) :
    let streamed := (uploadFrom src s i name options report).run w x
    let buffered := (uploadRange buffer offset length i name options report).run.run w x
    streamed.value.1 = some buffered.value ∧ streamed.steps = buffered.steps ∧
      streamed.state = buffered.state := by
  intro streamed buffered
  have hmap := Session.run_map w Prod.fst (uploadFrom src s i name options report) x
  rw [uploadFrom_eq_uploadRange hrange hbuffer hdelivers, Session.run_map] at hmap
  exact ⟨(congrArg Outcome.value hmap).symm, (congrArg Outcome.steps hmap).symm,
    (congrArg Outcome.state hmap).symm⟩

/-- Five bytes dealt out one, two and two, to be written two at a time to a terminal that stops
answering at the second write. -/
theorem source_agrees_with_buffer_dealt :
    let pieces : List Bytes := [[1], [2, 3], [4, 5]]
    let buffer : Bytes := [0, 1, 2, 3, 4, 5, 6]
    let silent : Script :=
      { entries := [.respond ⟨.success, [0, 0, 0, 0]⟩, .respond ⟨.success, []⟩, .timeout] }
    let w := Surroundings.of .scripted .scripted
    let x := (silent, ScriptedHost.ofScript .unreachable)
    let streamed := (uploadFrom .dealing pieces .primary "file" ⟨2, 0, 0⟩ id).run w x
    let buffered := (uploadRange buffer 1 5 .primary "file" ⟨2, 0, 0⟩ id).run.run w x
    1 + 5 ≤ buffer.length ∧ ByteSource.dealing.Delivers pieces ((buffer.drop 1).take 5) ∧
      2 ≤ maxBuffer ∧ streamed.value.1 = some buffered.value ∧ streamed.steps = buffered.steps ∧
      streamed.state = buffered.state := by
  intro pieces buffer silent w x streamed buffered
  have hdelivers : ByteSource.dealing.Delivers pieces pieces.flatten := delivers_dealing (by decide)
  exact ⟨by decide, hdelivers, by decide,
    source_agrees_with_buffer .dealing pieces buffer 1 5 .primary "file" ⟨2, 0, 0⟩ id (by decide)
      hdelivers (by decide) w x⟩

end Transfer

end KeyInjection
