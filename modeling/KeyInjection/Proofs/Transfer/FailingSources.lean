-- SUMMARY: What an upload from a source that fails has written and reported by then.
import KeyInjection.Proofs.Transfer.Progress
import KeyInjection.Proofs.Transfer.Sources
import KeyInjection.Proofs.Transfer.Upload
import KeyInjection.Proofs.Transfer.Validation

/-!
# Uploads from sources that fail

A source may fail after it has given some bytes. Gathering then gives the full pieces that these
bytes have, and what was gathered of one more piece is lost. So an upload from such a source writes
the full pieces, with the reports that are due on the way, and ends in the failure of the source,
without the report that a completed upload makes at its end.
-/

namespace KeyInjection

variable {ε σ τ η : Type}

/-! ## Sources that fail -/

namespace ByteSource

variable {src : ByteSource τ} {s : τ} {data : Bytes} {detail : String} {room : Nat}

/-- `left` tells which bytes a source has still to give before it fails: reading, with some room for
them, takes bytes off their front, and fails once there are none. -/
structure Breaks (src : ByteSource τ) (detail : String) (left : τ → Bytes → Prop) : Prop where
  read {s : τ} {data : Bytes} {room : Nat} (hleft : left s data) (hmore : data ≠ [])
    (hroom : 0 < room) :
    ∃ piece rest s', src.read room s = (.ok piece, s') ∧ data = piece ++ rest ∧ piece ≠ [] ∧
      piece.length ≤ room ∧ left s' rest
  fail {s : τ} {room : Nat} (hleft : left s []) (hroom : 0 < room) :
    ∃ s', src.read room s = (.error detail, s')

/-- From this state the source gives these bytes, in pieces of any sizes, and then fails. -/
def FailsAfter (src : ByteSource τ) (s : τ) (data : Bytes) (detail : String) : Prop :=
  ∃ left, src.Breaks detail left ∧ left s data

theorem FailsAfter.read (hfails : src.FailsAfter s data detail) (hmore : data ≠ [])
    (hroom : 0 < room) :
    ∃ piece rest s', src.read room s = (.ok piece, s') ∧ data = piece ++ rest ∧ piece ≠ [] ∧
      piece.length ≤ room ∧ src.FailsAfter s' rest detail := by
  obtain ⟨left, hbreaks, hleft⟩ := hfails
  obtain ⟨piece, rest, s', hread, hdata, hsome, hfits, hrest⟩ := hbreaks.read hleft hmore hroom
  exact ⟨piece, rest, s', hread, hdata, hsome, hfits, left, hbreaks, hrest⟩

theorem FailsAfter.fail (hfails : src.FailsAfter s [] detail) (hroom : 0 < room) :
    ∃ s', src.read room s = (.error detail, s') := by
  obtain ⟨left, hbreaks, hleft⟩ := hfails
  exact hbreaks.fail hleft hroom

/-- While there are bytes enough, gathering fills the room. -/
theorem gatherAfter_of_failsAfter (hfails : src.FailsAfter s data detail) (past : List Bytes)
    (henough : room ≤ data.length) :
    ∃ s', src.gatherAfter past room s = (.ok (past.reverse.flatten ++ data.take room), s') ∧
      src.FailsAfter s' (data.drop room) detail := by
  -- The induction is on the room, which every piece that is given takes some of.
  induction room using Nat.strongRecOn generalizing past s data with
  | _ room ih =>
    by_cases hfull : room = 0
    · subst hfull
      rw [gatherAfter, dif_pos rfl]
      exact ⟨s, by simp, by simpa using hfails⟩
    have hroom : 0 < room := Nat.pos_of_ne_zero hfull
    have hmore : data ≠ [] := List.length_pos_iff.1 (Nat.lt_of_lt_of_le hroom henough)
    obtain ⟨piece, rest, s', hread, rfl, hsome, hfits, hrest⟩ := hfails.read hmore hroom
    have hadvanced : 0 < piece.length := List.length_pos_iff.2 hsome
    rw [List.length_append] at henough
    obtain ⟨s'', hgather, hleft⟩ := ih (room - piece.length) (Nat.sub_lt hroom hadvanced) hrest
      (piece :: past) (by omega)
    rw [gatherAfter_of_read hread hsome hfits, hgather]
    refine ⟨s'', ?_, ?_⟩
    · simp [List.take_append, List.take_of_length_le hfits]
    · simpa [List.drop_append, List.drop_of_length_le hfits] using hleft

/-- Once there are fewer, it fails as the source does. -/
theorem gatherAfter_of_failsWithin (hfails : src.FailsAfter s data detail) (past : List Bytes)
    (hshort : data.length < room) : ∃ s', src.gatherAfter past room s = (.error detail, s') := by
  induction room using Nat.strongRecOn generalizing past s data with
  | _ room ih =>
    have hroom : 0 < room := Nat.lt_of_le_of_lt (Nat.zero_le _) hshort
    by_cases hmore : data = []
    · subst hmore
      obtain ⟨s', hread⟩ := hfails.fail hroom
      rw [gatherAfter, dif_neg (Nat.ne_of_gt hroom), hread]
      exact ⟨s', rfl⟩
    · obtain ⟨piece, rest, s', hread, rfl, hsome, hfits, hrest⟩ := hfails.read hmore hroom
      have hadvanced : 0 < piece.length := List.length_pos_iff.2 hsome
      rw [List.length_append] at hshort
      rw [gatherAfter_of_read hread hsome hfits]
      exact ih (room - piece.length) (Nat.sub_lt hroom hadvanced) hrest (piece :: past) (by omega)

theorem gather_of_failsAfter (hfails : src.FailsAfter s data detail)
    (henough : room ≤ data.length) :
    ∃ s', src.gather room s = (.ok (data.take room), s') ∧
      src.FailsAfter s' (data.drop room) detail := by
  simpa [gather] using gatherAfter_of_failsAfter hfails [] henough

theorem gather_of_failsWithin (hfails : src.FailsAfter s data detail)
    (hshort : data.length < room) : ∃ s', src.gather room s = (.error detail, s') :=
  gatherAfter_of_failsWithin hfails [] hshort

/-- A source that deals out the given pieces and then fails. -/
def breaking (detail : String) : ByteSource (List Bytes) where
  read room
    | [] => (.error detail, [])
    | pieces => dealing.read room pieces
  close _ := []

theorem failsAfter_breaking (detail : String) {pieces : List Bytes} (hsome : [] ∉ pieces) :
    (breaking detail).FailsAfter pieces pieces.flatten detail := by
  refine ⟨fun pieces data => [] ∉ pieces ∧ data = pieces.flatten, ⟨?_, ?_⟩, hsome, rfl⟩
  · rintro pieces data room hleft hmore hroom
    obtain ⟨piece, rest, s', hread, hdata, hfits, hgiven, hrest⟩ :=
      tracks_dealing.read hleft hroom
    refine ⟨piece, rest, s', ?_, hdata, hgiven hmore, hfits, hrest⟩
    cases pieces with
    | nil => exact absurd hleft.2 hmore
    | cons => exact hread
  · rintro pieces room ⟨hsome, hnone⟩ hroom
    cases pieces with
    | nil => exact ⟨[], rfl⟩
    | cons piece rest =>
      have hpiece : piece = [] := (List.append_eq_nil_iff.1 hnone.symm).1
      exact absurd (List.mem_cons.2 (.inl hpiece.symm)) hsome

end ByteSource

/-! ## What is written before the failure -/

namespace Transfer

open ByteSource Device

variable {src : ByteSource τ} {s : τ} {data : Bytes} {detail : String} {i : Interface}
variable {options : TransferOptions} {report : Nat → ε}

/-- The pieces of the bytes that are not shorter than the others. -/
def fullPieces (size : Nat) (b : Bytes) : List Bytes := (Bytes.pieces size b).take (b.length / size)

theorem fullPieces_of_lt {size : Nat} {b : Bytes} (hshort : b.length < size) :
    fullPieces size b = [] := by
  rw [fullPieces, Nat.div_eq_of_lt hshort, List.take_zero]

theorem fullPieces_of_le {size : Nat} (hsize : 0 < size) {b : Bytes} (henough : size ≤ b.length) :
    fullPieces size b = b.take size :: fullPieces size (b.drop size) := by
  have hmore : b ≠ [] := List.length_pos_iff.1 (Nat.lt_of_lt_of_le hsize henough)
  rw [fullPieces, Bytes.pieces_of_ne_nil hsize hmore, Nat.div_eq_sub_div hsize henough,
    List.take_succ_cons, fullPieces, List.length_drop]

/-- The full pieces are all pieces of the bytes that they are made of. -/
theorem fullPieces_eq {size : Nat} (hsize : 0 < size) (b : Bytes) :
    fullPieces size b = Bytes.pieces size (b.take (b.length / size * size)) :=
  Bytes.take_pieces hsize b _

theorem map_length_fullPieces {size : Nat} (hsize : 0 < size) (b : Bytes) :
    (fullPieces size b).map List.length = List.replicate (b.length / size) size := by
  induction b using Bytes.pieces_induction hsize with
  | nil => simp [fullPieces]
  | step b _ ih =>
    by_cases henough : size ≤ b.length
    · rw [fullPieces_of_le hsize henough, List.map_cons, List.length_take_of_le henough, ih,
        List.length_drop, Nat.div_eq_sub_div hsize henough, List.replicate_succ]
    · have hshort : b.length < size := Nat.lt_of_not_le henough
      rw [fullPieces_of_lt hshort, Nat.div_eq_of_lt hshort]
      rfl

theorem length_fullPieces {size : Nat} (hsize : 0 < size) (b : Bytes) :
    (fullPieces size b).length = b.length / size := by
  rw [← List.length_map, map_length_fullPieces hsize, List.length_replicate]

/-- From a source that fails the full pieces are written, and the end is its failure. -/
theorem writeFrom_of_failsAfter (hchunk : 0 < options.maxChunk)
    (hfails : src.FailsAfter s data detail) (sent : Nat) (pace : Pace) :
    Prod.fst <$> writeFrom src i options report sent pace s =
      (writeEach i options report sent pace (fullPieces options.maxChunk data) >>= fun _ =>
        throw (.localIo detail) : Attempt ε Error Nat).run := by
  -- The induction follows the pieces: gathering brings the next one whole, or fails.
  induction data using Bytes.pieces_induction hchunk generalizing s sent pace with
  | nil =>
    obtain ⟨s', hgather⟩ := gather_of_failsWithin hfails hchunk
    rw [fullPieces_of_lt hchunk, writeFrom, hgather]
    rfl
  | step data hmore ih =>
    by_cases henough : options.maxChunk ≤ data.length
    · obtain ⟨s', hgather, hrest⟩ := gather_of_failsAfter hfails henough
      have hpiece : 0 < (data.take options.maxChunk).length := by
        rw [List.length_take_of_le henough]
        exact hchunk
      rw [fullPieces_of_le hchunk henough]
      exact writeFrom_of_gather hgather hpiece pace fun pace => ih hrest _ pace
    · have hshort : data.length < options.maxChunk := Nat.lt_of_not_le henough
      obtain ⟨s', hgather⟩ := gather_of_failsWithin hfails hshort
      rw [fullPieces_of_lt hshort, writeFrom, hgather]
      rfl

end Transfer

/-! ## What is reported before the failure -/

namespace Pace

/-- Of pieces of one size each last one of so many as make up a granularity is reported; `seen` of
them have moved since the report before. -/
theorem along_replicate {p : Pace} {size every seen : Nat} (hsize : 0 < size)
    (hevery : every = max 1 (p.granularity ⌈/⌉ size)) (hpending : p.pending = seen * size)
    (hseen : seen < every) (n : Nat) :
    p.along (List.replicate n size) =
      (List.range ((seen + n) / every)).map fun r => p.moved + ((r + 1) * every - seen) * size := by
  induction n generalizing p seen with
  | zero => simp [along, Nat.div_eq_of_lt hseen]
  | succ n ih =>
    have hdue : p.isDue size = true ↔ every = seen + 1 := by
      have hreached : p.isDue size = true ↔ p.granularity ⌈/⌉ size ≤ seen + 1 := by
        rw [ceilDiv_le_iff_le_mul hsize, Nat.mul_comm, Nat.succ_mul, ← hpending]
        exact decide_eq_true_iff
      rw [hreached]
      omega
    rw [List.replicate_succ, along]
    by_cases hlast : every = seen + 1
    · have hnow : p.isDue size = true := hdue.2 hlast
      have hnone : (p.advance size).pending = 0 * size := by simp [advance, hnow]
      have hrest := ih (by simpa using hevery) hnone (by omega)
      have hcount : (seen + (n + 1)) / every = n / every + 1 := by
        rw [hlast, ← Nat.add_div_right n (Nat.succ_pos seen)]
        congr 1
        omega
      rw [(advance_of_isDue hnow).1, hrest, hcount, List.range_succ_eq_map, List.map_cons,
        List.map_map, Nat.zero_add, List.singleton_append]
      congr 1
      · have hone : (0 + 1) * every - seen = 1 := by omega
        rw [hone, Nat.one_mul]
      · refine List.map_congr_left fun r _ => ?_
        have hnext : (r + 1 + 1) * every - seen = 1 + (r + 1) * every := by
          rw [Nat.succ_mul (r + 1)]
          omega
        rw [moved_advance, Function.comp_apply, hnext, Nat.add_mul 1, Nat.one_mul, Nat.sub_zero,
          Nat.add_assoc]
    · have hnot : p.isDue size = false := by
        rw [← Bool.not_eq_true, hdue]
        exact hlast
      have hmore : (p.advance size).pending = (seen + 1) * size := by
        simp [advance, hnot, hpending, Nat.succ_mul]
      have hrest := ih (by simpa using hevery) hmore (by omega)
      rw [(advance_of_not_isDue hnot).1, hrest, List.nil_append, Nat.add_right_comm seen 1 n,
        Nat.add_assoc seen n 1]
      refine List.map_congr_left fun r _ => ?_
      have hnext : (r + 1) * every - seen = 1 + ((r + 1) * every - (seen + 1)) := by
        rw [Nat.succ_mul]
        omega
      rw [moved_advance, hnext, Nat.add_mul 1, Nat.one_mul, Nat.add_assoc]

end Pace

/-- A channel on which every command gets the same response. -/
def Channel.answering (r : Response) : Channel Unit :=
  ⟨fun _ _ s => (.ok (), s), fun _ s => (.ok (some r), s)⟩

namespace Transfer

open ByteSource Device

variable {src : ByteSource τ} {s : τ} {data : Bytes} {detail : String} {i : Interface}
variable {options : TransferOptions} {report : Nat → ε} {steps : List (Step ε)}

/-- Writes that succeed report what is due on the way. -/
theorem eventsOf_writeEach {sent : Nat} {pace : Pace} {pieces : List Bytes} {v : Nat × Pace}
    (hmoved : pace.moved = sent) (hsome : [] ∉ pieces)
    (hrecords : Records (writeEach i options report sent pace pieces) steps (.ok v)) :
    eventsOf steps = (pace.along (pieces.map List.length)).map report := by
  obtain ⟨q, hpaces, -, hdone⟩ := paces_of_records_writeEach hmoved hsome hrecords
  rw [hpaces.eventsOf_eq, (hdone v rfl).2]

/-! ## Uploads -/

/-- Up to the failure of its source an upload writes through the full pieces. -/
theorem writesThrough_of_failing {r : Except Error Nat} (hchunk : 0 < options.maxChunk)
    (hsize : data.length ≤ 0x100000000)
    (hrecords : Records (writeEach i options report 0 (.start options.granularity)
      (fullPieces options.maxChunk data) >>= fun _ =>
        throw (.localIo detail) : Attempt ε Error Nat) steps r) :
    ∃ writes written, talkOf steps = writes.map (AnsweredWrite.step i) ∧
      WritesThrough options 0 (data.take (data.length / options.maxChunk * options.maxChunk))
        writes written ∧
      ∀ n, written = .ok n → r = .error (.localIo detail) ∧
        eventsOf steps = ((Pace.start options.granularity).along
          (List.replicate (data.length / options.maxChunk) options.maxChunk)).map report := by
  have hmoved : (Pace.start options.granularity).moved = 0 := rfl
  have hsome : [] ∉ fullPieces options.maxChunk data := fun hnil =>
    absurd (Bytes.length_of_mem_pieces (List.mem_of_mem_take hnil)).1 (Nat.lt_irrefl 0)
  have hthrough : ∀ {talk : List (Step ε)} {result},
      Leaves (writeEach i options report 0 (.start options.granularity)
        (fullPieces options.maxChunk data)) talk result →
      ∃ writes, talk = writes.map (AnsweredWrite.step i) ∧
        WritesThrough options 0 (data.take (data.length / options.maxChunk * options.maxChunk))
          writes (result.map Prod.fst) := by
    intro talk result hleaves
    rw [fullPieces_eq hchunk] at hleaves
    refine (Writes.of_leaves_writeEach hchunk hleaves).writesThrough hchunk ?_
    rw [List.length_take]
    omega
  rcases records_bind.1 hrecords with ⟨each, v, last, rfl, heach, hlast⟩ | ⟨e, heach, rfl⟩
  · obtain ⟨rfl, rfl⟩ := records_throw.1 hlast
    obtain ⟨writes, hwrites, hthrough⟩ := hthrough heach.leaves
    rw [List.append_nil]
    refine ⟨writes, _, hwrites, hthrough, fun n _ => ⟨rfl, ?_⟩⟩
    rw [eventsOf_writeEach hmoved hsome heach, map_length_fullPieces hchunk]
  · obtain ⟨writes, hwrites, hthrough⟩ := hthrough heach.leaves
    exact ⟨writes, _, hwrites, hthrough, nofun⟩

/-- An upload whose file is not selected, or for whose pieces there is no buffer, ends with the
answer to the selection and gives its source up. -/
theorem run_uploadFrom_unread (src : ByteSource τ) (s : τ) (i : Interface) (report : Nat → ε)
    {name : String} {c : Command} (hchunk : options.maxChunk ≠ 0)
    (hcode : (Request.fileSelect ⟨.truncate, name⟩).command = .ok c) (w : Surroundings σ) (x : σ) :
    let asked := w.exchange i c x
    (∀ e, sizeTold (.fileCreateFailed name) asked.1 = .error e →
      (uploadFrom src s i name options report).run w x =
        ⟨(some (.error e), src.close s), asked.2, [.exchanged i c asked.1]⟩) ∧
    (maxBuffer < options.maxChunk → ∀ size, sizeTold (.fileCreateFailed name) asked.1 = .ok size →
      (uploadFrom src s i name options report).run w x =
        ⟨(none, src.close s), asked.2, [.exchanged i c asked.1]⟩) := by
  intro asked
  rw [uploadFrom_eq hchunk, run_selectForWriting i hcode]
  constructor
  · intro e htold
    refine (Session.run_exchange ..).trans ?_
    simp only [Session.bind]
    rw [htold]
    rfl
  · intro hlarge size htold
    refine (Session.run_exchange ..).trans ?_
    simp only [Session.bind]
    rw [htold, writeBuffered, if_pos hlarge]
    rfl

/-- With its file selected and a buffer for its pieces, it goes on to write. -/
theorem run_uploadFrom_of_writeFrom {name : String} {c : Command} (hchunk : options.maxChunk ≠ 0)
    (hbuffer : options.maxChunk ≤ maxBuffer)
    (hcode : (Request.fileSelect ⟨.truncate, name⟩).command = .ok c) {a : Attempt ε Error Nat}
    (hwrites : Prod.fst <$> writeFrom src i options report 0 (.start options.granularity) s = a.run)
    {w : Surroundings σ} {x : σ} {size : Nat}
    (htold : sizeTold (.fileCreateFailed name) (w.exchange i c x).1 = .ok size) :
    let asked := w.exchange i c x
    let written := a.run.run w asked.2
    (Prod.fst <$> uploadFrom src s i name options report).run w x =
      ⟨some written.value, written.state, .exchanged i c asked.1 :: written.steps⟩ := by
  intro asked written
  have hattempt : (selectForWriting i name >>= fun _ => a : Attempt ε Error Nat).run.run w x =
      ⟨written.value, written.state, .exchanged i c asked.1 :: written.steps⟩ := by
    rw [ExceptT.run_bind, run_selectForWriting i hcode]
    refine (Session.run_exchange ..).trans ?_
    simp only [Session.bind]
    rw [htold]
    rfl
  rw [uploadFrom_of_writeFrom hchunk hbuffer hwrites, Session.run_map, hattempt]

/-- An upload from a source that fails, with a buffer for its pieces, to a terminal that answers the
selection with a size and everything with success. -/
theorem written_of_failsAfter {start : τ} (hfails : src.FailsAfter start data detail)
    (hsize : data.length < 0x100000000) (ch : Channel σ) (h : KeyHost η) (s : σ) (k : η)
    {name : String} {c : Command} (hcode : (Request.fileSelect ⟨.truncate, name⟩).command = .ok c)
    (hchunk : 0 < options.maxChunk) (hbuffer : options.maxChunk ≤ maxBuffer) (report : Nat → ε) :
    let w := Surroundings.of ch.recording h.recording
    let x := ((s, []), (k, []))
    let out := (uploadFrom src start i name options report).run w x
    let full := data.length / options.maxChunk
    TellsSize (w.exchange i c x).1 →
    (∀ answer ∈ answersOf out.steps, ∃ r, answer = .ok r ∧ r.status.isSuccess = true) →
    ∃ writes : List AnsweredWrite,
      out.state.1.2 = (i, c) :: writes.map (fun x => (i, x.command)) ∧ out.state.2.2 = [] ∧
      writes.length = full ∧
      (∃ written, WritesThrough options 0 (data.take (full * options.maxChunk)) writes written) ∧
      out.value.1 = some (.error (.localIo detail)) ∧
      eventsOf out.steps = ((Pace.start options.granularity).along
        (List.replicate full options.maxChunk)).map report := by
  intro w x out full htells hsuccess
  obtain ⟨size, htold⟩ := (tellsSize_iff (.fileCreateFailed name)).1 htells
  have hwrites : Prod.fst <$> writeFrom src i options report 0 (.start options.granularity) start =
      _ := writeFrom_of_failsAfter hchunk hfails 0 (.start options.granularity)
  have hrun := run_uploadFrom_of_writeFrom (Nat.ne_of_gt hchunk) hbuffer hcode hwrites htold
  rw [Session.run_map] at hrun
  obtain ⟨writes, written, htalk, hthrough, hended⟩ :=
    writesThrough_of_failing hchunk (Nat.le_of_lt hsize) (records_run w _ (w.exchange i c x).2)
  have hsteps : out.steps = .exchanged i c (w.exchange i c x).1 :: _ := congrArg Outcome.steps hrun
  have htalk : talkOf out.steps =
      .exchanged i c (w.exchange i c x).1 :: writes.map (AnsweredWrite.step i) := by
    rw [hsteps]
    exact congrArg (_ :: ·) htalk
  obtain ⟨hsent, hposted⟩ := recorded_of_talk htalk
  have hanswers : answersOf out.steps = (w.exchange i c x).1 :: writes.map (·.answer) := by
    rw [← answersOf_talkOf, htalk]
    exact congrArg (_ :: ·) (answersOf_map_exchanged ..)
  rw [hanswers] at hsuccess
  have hall : ∀ x ∈ writes, x.Succeeds := fun x hx =>
    hsuccess x.answer (List.mem_cons_of_mem _ (List.mem_map_of_mem hx))
  obtain ⟨hlength, hwritten⟩ := hthrough.complete hall
  obtain ⟨hvalue, hevents⟩ := hended _ hwritten
  have hlength : writes.length = full := by
    rw [hlength, ← Bytes.length_pieces hchunk, ← fullPieces_eq hchunk, length_fullPieces hchunk]
  refine ⟨writes, hsent, hposted, hlength, ⟨_, hthrough⟩, ?_, ?_⟩
  · exact (congrArg Outcome.value hrun).trans (congrArg some hvalue)
  · rw [hsteps]
    exact hevents

/-- An upload from a source that fails. To a terminal that answers every command with success, and
the selection with a size, it writes the full pieces of the bytes that the source has given, each
behind the one before, and then ends in the failure of the source. Nothing else is submitted, and
what is reported are the ends of such pieces only, each last one of so many as make up a
granularity. If the name cannot be sent, nothing is submitted. If the answer to the selection tells
no size, the upload fails there, and if no buffer has room for a piece, it panics there. In these
cases nothing is read of the source. -/
theorem upload_from_failing (src : ByteSource τ) (start : τ) {data : Bytes} {detail : String}
    (hfails : src.FailsAfter start data detail) (hsize : data.length < 0x100000000)
    (ch : Channel σ) (h : KeyHost η) (s : σ) (k : η) (i : Interface) (name : String)
    (options : TransferOptions) (hchunk : 1 ≤ options.maxChunk) (report : Nat → ε) :
    let w := Surroundings.of ch.recording h.recording
    let x := ((s, []), (k, []))
    let out := (uploadFrom src start i name options report).run w x
    let watched := (uploadFrom src.recording (start, []) i name options report).run w x
    let unread : τ × List Nat := (src.close start, [])
    let encodable := 0 < (textBytes name).length ∧ (textBytes name).length ≤ SelectRequest.maxName
    let full := data.length / options.maxChunk
    let every := max 1 (options.granularity ⌈/⌉ options.maxChunk)
    (¬ encodable → watched = ⟨(some (.error (.apdu .invalidLength)), unread), x, []⟩) ∧
    (encodable → ∃ c, (Request.fileSelect ⟨.truncate, name⟩).command = .ok c ∧
      let asked := w.exchange i c x
      (¬ TellsSize asked.1 → ∃ e, sizeTold (.fileCreateFailed name) asked.1 = .error e ∧
        watched = ⟨(some (.error e), unread), asked.2, [.exchanged i c asked.1]⟩) ∧
      (TellsSize asked.1 → maxBuffer < options.maxChunk →
        watched = ⟨(none, unread), asked.2, [.exchanged i c asked.1]⟩) ∧
      (TellsSize asked.1 → options.maxChunk ≤ maxBuffer →
        (∀ answer ∈ answersOf out.steps, ∃ r, answer = .ok r ∧ r.status.isSuccess = true) →
        ∃ (writes : List AnsweredWrite) (counts : List Nat),
          out.state.1.2 = (i, c) :: writes.map (fun x => (i, x.command)) ∧
          out.state.2.2 = [] ∧
          writes.length = full ∧
          (∀ j x, writes[j]? = some x → x.request.offset.toNat = j * options.maxChunk ∧
            x.request.delayMs = options.delayMs ∧ x.request.data.length = options.maxChunk) ∧
          carried writes = data.take (full * options.maxChunk) ∧
          out.value.1 = some (.error (.localIo detail)) ∧
          eventsOf out.steps = counts.map report ∧
          counts = (List.range (full / every)).map (fun r => (r + 1) * every * options.maxChunk) ∧
          ∀ n ∈ counts, n ≤ full * options.maxChunk)) := by
  intro w x out watched unread encodable full every
  have hsome : options.maxChunk ≠ 0 := Nat.ne_of_gt hchunk
  refine ⟨fun hnot => ?_, fun hname => ?_⟩
  · have hlimits : ¬ (Message.request (.fileSelect ⟨.truncate, name⟩)).WithinLimits := hnot
    rw [Message.withinLimits_fileSelect_iff, not_not] at hlimits
    have hrefused : Refused options True name (.apdu .invalidLength) := .name hsome trivial hlimits
    show Session.run w (uploadFrom src.recording (start, []) i name options report) x = _
    rw [hrefused.uploadFrom_eq]
    rfl
  obtain ⟨c, hcode⟩ := exists_command_fileSelect .truncate hname
  obtain ⟨hunselected, hunbuffered⟩ :=
    run_uploadFrom_unread src.recording (start, []) i report hsome hcode w x
  refine ⟨c, hcode, fun hnot => ?_, fun htells hlarge => ?_, fun htells hbuffer hsuccess => ?_⟩
  · cases htold : sizeTold (.fileCreateFailed name) (w.exchange i c x).1 with
    | error e => exact ⟨e, rfl, hunselected e htold⟩
    | ok size => exact absurd ((tellsSize_iff _).2 ⟨size, htold⟩) hnot
  · obtain ⟨size, htold⟩ := (tellsSize_iff (.fileCreateFailed name)).1 htells
    exact hunbuffered hlarge size htold
  · obtain ⟨writes, hsent, hposted, hlength, ⟨written, hthrough⟩, hvalue, hevents⟩ :=
      written_of_failsAfter hfails hsize ch h s k hcode hchunk hbuffer report htells hsuccess
    have hcarried := hthrough.carried_eq hchunk
    rw [hlength, List.take_take, Nat.min_self] at hcarried
    have hbound : full * options.maxChunk ≤ data.length := Nat.div_mul_le_self ..
    have hcounts : (Pace.start options.granularity).along (List.replicate full options.maxChunk) =
        (List.range (full / every)).map fun r => (r + 1) * every * options.maxChunk := by
      have hevery : every = max 1 ((Pace.start options.granularity).granularity ⌈/⌉
          options.maxChunk) := rfl
      rw [Pace.along_replicate hchunk hevery (Nat.zero_mul _).symm (by omega)]
      simp [Pace.start]
    rw [hcounts] at hevents
    refine ⟨writes, _, hsent, hposted, hlength, ?_, hcarried, hvalue, hevents, rfl, ?_⟩
    · intro j x hx
      refine ⟨?_, hthrough.delay_eq x (List.mem_of_getElem? hx), ?_⟩
      · rw [hthrough.offset_eq_add_mul hchunk hx, Nat.zero_add]
      · exact hthrough.length_data_eq (List.length_take_of_le hbound) hx
    · intro n hn
      obtain ⟨r, hr, rfl⟩ := List.mem_map.1 hn
      have hmost : (r + 1) * every ≤ full / every * every :=
        Nat.mul_le_mul_right _ (List.mem_range.1 hr)
      exact Nat.mul_le_mul_right _ (Nat.le_trans hmost (Nat.div_mul_le_self ..))

/-- Five bytes dealt out one, two and two by a source that then fails, to be written two at a time
and reported every four; and without a name, to the same terminal. -/
theorem upload_from_failing_dealt :
    let pieces : List Bytes := [[1], [2, 3], [4, 5]]
    let told : Response := ⟨.success, [0, 0, 0, 0]⟩
    let w := Surroundings.of (Channel.answering told).recording KeyHost.scripted.recording
    let x := (((), []), (ScriptedHost.ofScript .unreachable, []))
    let source := ByteSource.breaking "read failed"
    let out := (uploadFrom source pieces .primary "file" ⟨2, 4, 7⟩ id).run w x
    let unnamed := (uploadFrom source.recording (pieces, []) .primary "" ⟨2, 4, 7⟩ id).run w x
    source.FailsAfter pieces [1, 2, 3, 4, 5] "read failed" ∧
      (0 < (textBytes "file").length ∧ (textBytes "file").length ≤ SelectRequest.maxName) ∧
      (∃ (c : Command) (writes : List AnsweredWrite),
        (Request.fileSelect ⟨.truncate, "file"⟩).command = .ok c ∧
        TellsSize (w.exchange .primary c x).1 ∧ 2 ≤ maxBuffer ∧
        (∀ answer ∈ answersOf out.steps, ∃ r, answer = .ok r ∧ r.status.isSuccess = true) ∧
        out.state.1.2 = (.primary, c) :: writes.map (fun x => (.primary, x.command)) ∧
        writes.length = 2 ∧ carried writes = [1, 2, 3, 4] ∧
        out.value.1 = some (.error (.localIo "read failed")) ∧ eventsOf out.steps = [4]) ∧
      unnamed = ⟨(some (.error (.apdu .invalidLength)), ([], [])), x, []⟩ := by
  intro pieces told w x source out unnamed
  have hname : 0 < (textBytes "file").length ∧
      (textBytes "file").length ≤ SelectRequest.maxName := by decide +kernel
  have hfails : source.FailsAfter pieces pieces.flatten "read failed" :=
    failsAfter_breaking "read failed" (by decide)
  have hsuccess : ∀ answer ∈ answersOf out.steps,
      ∃ r, answer = .ok r ∧ r.status.isSuccess = true :=
    Session.forall_mem_answersOf_run (fun _ _ _ => ⟨told, rfl, rfl⟩) _ _
  obtain ⟨-, hnamed⟩ := upload_from_failing source pieces hfails (by decide) (.answering told)
    .scripted () (.ofScript .unreachable) .primary "file" ⟨2, 4, 7⟩ (by decide) (id : Nat → Nat)
  obtain ⟨hunnamed, -⟩ := upload_from_failing source pieces hfails (by decide) (.answering told)
    .scripted () (.ofScript .unreachable) .primary "" ⟨2, 4, 7⟩ (by decide) (id : Nat → Nat)
  obtain ⟨c, hcode, -, -, hwritten⟩ := hnamed hname
  have htells : TellsSize (w.exchange .primary c x).1 := ⟨told, ⟨0⟩, 4, rfl, rfl, rfl, by decide⟩
  have hbuffer : 2 ≤ maxBuffer := by decide
  obtain ⟨writes, counts, hsent, -, hlength, -, hcarried, hvalue, hevents, rfl, -⟩ :=
    hwritten htells hbuffer hsuccess
  exact ⟨hfails, hname, ⟨c, writes, hcode, htells, hbuffer, hsuccess, hsent,
    hlength.trans (by decide), hcarried.trans (by decide), hvalue, hevents.trans (by decide)⟩,
    hunnamed (by decide +kernel)⟩

/-- A terminal that answers everything with success does not see an upload through to the failure of
its source if the file has no name, if the answer to the selection has no size in it, or if no
buffer has room for a piece. -/
theorem upload_from_failing_unselected :
    let pieces : List Bytes := [[1], [2, 3], [4, 5]]
    let told : Response := ⟨.success, [0, 0, 0, 0]⟩
    let run := fun (name : String) (chunk : Nat) (r : Response) =>
      (uploadFrom (.breaking "read failed") pieces .primary name ⟨chunk, 4, 7⟩ (id : Nat → Nat)).run
        (.of (Channel.answering r).recording KeyHost.scripted.recording)
        (((), []), (.ofScript .unreachable, []))
    let unnamed := run "" 2 told
    let untold := run "file" 2 ⟨.success, []⟩
    let unbuffered := run "file" 0x8000000000000000 told
    (ByteSource.breaking "read failed").FailsAfter pieces [1, 2, 3, 4, 5] "read failed" ∧
      (unnamed.state.1.2 = [] ∧ unnamed.value.1 = some (.error (.apdu .invalidLength))) ∧
      ((∀ answer ∈ answersOf untold.steps, ∃ r, answer = .ok r ∧ r.status.isSuccess = true) ∧
        untold.state.1.2.length = 1 ∧ untold.value.1 = some (.error (.apdu .invalidLength))) ∧
      (∀ answer ∈ answersOf unbuffered.steps, ∃ r, answer = .ok r ∧ r.status.isSuccess = true) ∧
        unbuffered.state.1.2.length = 1 ∧ unbuffered.value.1 = none := by
  intro pieces told run unnamed untold unbuffered
  have hsucceeds : ∀ (p : Session Nat (Option (Except Error Nat) × List Bytes)) (r : Response),
      r.status.isSuccess = true → ∀ answer ∈ answersOf (p.run
        (.of (Channel.answering r).recording KeyHost.scripted.recording)
        (((), []), (ScriptedHost.ofScript .unreachable, []))).steps,
        ∃ r, answer = .ok r ∧ r.status.isSuccess = true :=
    fun p r hstatus => Session.forall_mem_answersOf_run (fun _ _ _ => ⟨r, rfl, hstatus⟩) p _
  refine ⟨failsAfter_breaking "read failed" (by decide), ?_, ⟨hsucceeds _ _ rfl, rfl, rfl⟩,
    hsucceeds _ _ rfl, rfl, rfl⟩
  · have hrefused : Refused ⟨2, 4, 7⟩ True "" (.apdu .invalidLength) :=
      .name (by decide) trivial (.inl rfl)
    have hdone : uploadFrom (.breaking "read failed") pieces .primary "" ⟨2, 4, 7⟩
        (id : Nat → Nat) = .done (some (.error (.apdu .invalidLength)), []) :=
      hrefused.uploadFrom_eq _
    have hunnamed : unnamed = (Session.done (some (.error (.apdu .invalidLength)), [])).run _ _ :=
      congrArg (fun p => Session.run _ p _) hdone
    rw [hunnamed]
    exact ⟨rfl, rfl⟩

end Transfer

end KeyInjection
