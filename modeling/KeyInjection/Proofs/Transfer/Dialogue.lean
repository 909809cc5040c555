-- SUMMARY: The dialogues that downloads and uploads can have with a terminal.
import KeyInjection.Proofs.Device.Dialogue
import KeyInjection.Transfer.Download
import KeyInjection.Transfer.Upload

/-!
# Dialogues of transfers

A transfer selects its file and then moves it piece by piece. The relations follow the pieces: each
read and each write starts where the one before it ended, the first at zero, and the first exchange
that goes wrong is the last one. The theorems `….of_leaves` say that, whatever the terminal answers,
a transfer has no other dialogue.
-/

namespace KeyInjection.Transfer

open Device

variable {ε : Type}

/-! ## Selections -/

/-- The selection of a file, which ends in the size that the terminal tells, or in `refusal` if it
tells that there is no such file. -/
inductive Selects (i : Interface) (r : SelectRequest) (refusal : Error) :
    List (Step ε) → Except Error Nat → Prop where
  | failed {talk : List (Step ε)} {e : Error} (hask : Asks i (.fileSelect r) talk (.error e)) :
      Selects i r refusal talk (.error e)
  | refused {talk : List (Step ε)} {answer : Response}
      (hask : Asks i (.fileSelect r) talk (.ok answer))
      (hstatus : answer.status.isSuccess = false) : Selects i r refusal talk (.error refusal)
  | unreadable {talk : List (Step ε)} {answer : Response} {e : CodecError}
      (hask : Asks i (.fileSelect r) talk (.ok answer)) (hstatus : answer.status.isSuccess = true)
      (hbody : SelectReply.decode answer.body = .error e) :
      Selects i r refusal talk (.error (.apdu e))
  | negative {talk : List (Step ε)} {answer : Response} {reply : SelectReply} {n : Nat}
      (hask : Asks i (.fileSelect r) talk (.ok answer)) (hstatus : answer.status.isSuccess = true)
      (hbody : SelectReply.decode answer.body = .ok (reply, n)) (hsize : reply.size.toInt < 0) :
      Selects i r refusal talk (.error refusal)
  | selected {talk : List (Step ε)} {answer : Response} {reply : SelectReply} {n size : Nat}
      (hask : Asks i (.fileSelect r) talk (.ok answer)) (hstatus : answer.status.isSuccess = true)
      (hbody : SelectReply.decode answer.body = .ok (reply, n)) (hsize : reply.size.toInt = size) :
      Selects i r refusal talk (.ok size)

/-! ## Downloads -/

/-- The read that a download of `total` bytes in pieces of `chunk` bytes makes at an offset. -/
structure IsRead (chunk total offset : Nat) (r : ReadRequest) : Prop where
  total_eq : r.total.toNat = total
  offset_eq : r.offset.toNat = offset
  length_eq : r.length.toNat = min chunk (total - offset)

/-- The reads of a download from an offset on, which end in the pieces of the rest of the file. -/
inductive Reads (i : Interface) (chunk total : Nat) :
    Nat → List (Step ε) → Except Error (List Bytes) → Prop where
  | done : Reads i chunk total total [] (.ok [])
  | failed {offset : Nat} {r : ReadRequest} {talk : List (Step ε)} {e : Error}
      (hmore : offset < total) (hread : IsRead chunk total offset r)
      (hask : Asks i (.fileRead r) talk (.error e)) : Reads i chunk total offset talk (.error e)
  | refused {offset : Nat} {r : ReadRequest} {talk : List (Step ε)} {answer : Response}
      (hmore : offset < total) (hread : IsRead chunk total offset r)
      (hask : Asks i (.fileRead r) talk (.ok answer))
      (hrefused : answer.status.isSuccess = false ∨ answer.body = []) :
      Reads i chunk total offset talk (.error (.transferFailed offset))
  /-- Of a longer answer only what was asked for is accepted. -/
  | read {offset : Nat} {r : ReadRequest} {first rest : List (Step ε)} {answer : Response}
      {piece : Bytes} {result : Except Error (List Bytes)}
      (hmore : offset < total) (hread : IsRead chunk total offset r)
      (hask : Asks i (.fileRead r) first (.ok answer)) (hstatus : answer.status.isSuccess = true)
      (hpiece : piece = answer.body.take (min chunk (total - offset))) (hsome : piece ≠ [])
      (hrest : Reads i chunk total (offset + piece.length) rest result) :
      Reads i chunk total offset (first ++ rest) (result.map (piece :: ·))

/-- A download, which ends in the pieces that make up the file. -/
inductive Downloads (i : Interface) (name : String) (chunk : Nat) :
    List (Step ε) → Except Error (List Bytes) → Prop where
  | zeroChunk (hchunk : chunk = 0) : Downloads i name chunk [] (.error .zeroChunk)
  | unselected {talk : List (Step ε)} {e : Error} (hchunk : 0 < chunk)
      (hselect : Selects i ⟨.read, name⟩ (.fileNotFound name) talk (.error e)) :
      Downloads i name chunk talk (.error e)
  | empty {talk : List (Step ε)} (hchunk : 0 < chunk)
      (hselect : Selects i ⟨.read, name⟩ (.fileNotFound name) talk (.ok 0)) :
      Downloads i name chunk talk (.error (.emptyFile name))
  | read {first rest : List (Step ε)} {total : Nat} {result : Except Error (List Bytes)}
      (hchunk : 0 < chunk) (htotal : 0 < total)
      (hselect : Selects i ⟨.read, name⟩ (.fileNotFound name) first (.ok total))
      (hreads : Reads i chunk total 0 rest result) : Downloads i name chunk (first ++ rest) result

/-! ## Uploads -/

/-- The write of the first piece of a content, after `sent` bytes. -/
structure IsWrite (options : TransferOptions) (sent : Nat) (content : Bytes) (r : WriteRequest) :
    Prop where
  offset_eq : r.offset.toNat = sent
  delay_eq : r.delayMs = options.delayMs
  data_eq : r.data = content.take options.maxChunk

/-- The writes of a content, after `sent` bytes, which end in the number of bytes written in
all. -/
inductive Writes (i : Interface) (options : TransferOptions) :
    Nat → Bytes → List (Step ε) → Except Error Nat → Prop where
  | done {sent : Nat} : Writes i options sent [] [] (.ok sent)
  /-- No offset is left to write at. -/
  | tooLarge {sent : Nat} {content : Bytes} (hmore : content ≠ []) (hsent : 0x100000000 ≤ sent) :
      Writes i options sent content [] (.error .fileTooLarge)
  | failed {sent : Nat} {content : Bytes} {r : WriteRequest} {talk : List (Step ε)} {e : Error}
      (hmore : content ≠ []) (hwrite : IsWrite options sent content r)
      (hask : Asks i (.fileWrite r) talk (.error e)) : Writes i options sent content talk (.error e)
  | refused {sent : Nat} {content : Bytes} {r : WriteRequest} {talk : List (Step ε)}
      {answer : Response} (hmore : content ≠ []) (hwrite : IsWrite options sent content r)
      (hask : Asks i (.fileWrite r) talk (.ok answer)) (hstatus : answer.status.isSuccess = false) :
      Writes i options sent content talk (.error (.transferFailed sent))
  | written {sent : Nat} {content : Bytes} {r : WriteRequest} {first rest : List (Step ε)}
      {answer : Response} {result : Except Error Nat} (hmore : content ≠ [])
      (hwrite : IsWrite options sent content r) (hask : Asks i (.fileWrite r) first (.ok answer))
      (hstatus : answer.status.isSuccess = true)
      (hrest : Writes i options (sent + r.data.length) (content.drop options.maxChunk) rest
        result) :
      Writes i options sent content (first ++ rest) result

/-- An upload of a content, which ends in its length. -/
inductive Uploads (i : Interface) (name : String) (options : TransferOptions) (content : Bytes) :
    List (Step ε) → Except Error Nat → Prop where
  | zeroChunk (hchunk : options.maxChunk = 0) :
      Uploads i name options content [] (.error .zeroChunk)
  | unselected {talk : List (Step ε)} {e : Error} (hchunk : 0 < options.maxChunk)
      (hselect : Selects i ⟨.truncate, name⟩ (.fileCreateFailed name) talk (.error e)) :
      Uploads i name options content talk (.error e)
  | written {first rest : List (Step ε)} {size : Nat} {result : Except Error Nat}
      (hchunk : 0 < options.maxChunk)
      (hselect : Selects i ⟨.truncate, name⟩ (.fileCreateFailed name) first (.ok size))
      (hwrites : Writes i options 0 content rest result) :
      Uploads i name options content (first ++ rest) result

/-! ## Transfers have no other dialogues -/

/-- Selects a file and gives the terminal's reply, which tells a size that is not negative. -/
def selectReply (i : Interface) (r : SelectRequest) (refusal : Error) :
    Attempt ε Error SelectReply := do
  let answer ← Device.exchange i (.fileSelect r)
  if !answer.status.isSuccess then throw refusal
  let reply ← Device.readBody SelectReply.decode answer
  if reply.size < 0 then throw refusal
  return reply

theorem selectForReading_eq (i : Interface) (name : String) :
    (selectForReading i name : Attempt ε Error Nat) = do
      let reply ← selectReply i ⟨.read, name⟩ (.fileNotFound name)
      if reply.size = 0 then throw (.emptyFile name)
      return reply.size.toNatClampNeg := by
  unfold selectForReading selectReply
  simp only [bind_assoc]
  congr 1
  funext answer
  split
  · rfl
  · simp only [bind_assoc]
    congr 1
    funext reply
    split
    · rfl
    · simp

theorem selectForWriting_eq (i : Interface) (name : String) :
    (selectForWriting i name : Attempt ε Error Unit) = do
      let _reply ← selectReply i ⟨.truncate, name⟩ (.fileCreateFailed name)
      return () := by
  unfold selectForWriting selectReply
  simp only [bind_assoc]
  congr 1
  funext answer
  split
  · rfl
  · simp only [bind_assoc]
    congr 1
    funext reply
    split
    · rfl
    · simp

/-- What a selection tells, once a reply has been judged. -/
theorem Selects.of_leaves {i : Interface} {r : SelectRequest} {refusal : Error}
    {talk : List (Step ε)} {result : Except Error SelectReply}
    (hleaves : Leaves (selectReply i r refusal) talk result) :
    (∃ reply, result = .ok reply ∧ 0 ≤ reply.size.toInt ∧
      Selects i r refusal talk (.ok reply.size.toNatClampNeg)) ∨
      ∃ e, result = .error e ∧ Selects i r refusal talk (.error e) := by
  rcases leaves_bind.1 hleaves with ⟨first, answer, second, rfl, hask, hjudge⟩ | ⟨e, hask, rfl⟩
  · have hask := Asks.of_leaves hask
    split at hjudge
    case isTrue hstatus =>
      obtain ⟨rfl, rfl⟩ := leaves_throw.1 hjudge
      exact .inr ⟨_, rfl, by simpa using Selects.refused hask (by simpa using hstatus)⟩
    case isFalse hstatus =>
      have hstatus : answer.status.isSuccess = true := by simpa using hstatus
      rcases leaves_bind.1 hjudge with ⟨nothing, reply, rest, rfl, hread, hsize⟩ | ⟨e, hread, rfl⟩
      · obtain ⟨rfl, ⟨v, n, hbody, hv⟩ | ⟨e, -, he⟩⟩ := leaves_readBody.1 hread
        · cases hv
          split at hsize
          case isTrue hnegative =>
            obtain ⟨rfl, rfl⟩ := leaves_throw.1 hsize
            have hnegative : reply.size.toInt < 0 := Int32.lt_iff_toInt_lt.1 hnegative
            exact .inr ⟨_, rfl, by simpa using Selects.negative hask hstatus hbody hnegative⟩
          case isFalse hnegative =>
            obtain ⟨rfl, rfl⟩ := leaves_pure.1 hsize
            have hsize : 0 ≤ reply.size.toInt := by
              rw [Int32.lt_iff_toInt_lt] at hnegative
              simpa using hnegative
            have htold : reply.size.toInt = reply.size.toNatClampNeg :=
              (Int.toNat_of_nonneg hsize).symm
            exact .inl ⟨reply, rfl, hsize, by simpa using Selects.selected hask hstatus hbody htold⟩
        · cases he
      · obtain ⟨rfl, ⟨v, n, -, hv⟩ | ⟨e', hbody, he⟩⟩ := leaves_readBody.1 hread
        · cases hv
        · cases he
          exact .inr ⟨_, rfl, by simpa using Selects.unreadable hask hstatus hbody⟩
  · exact .inr ⟨e, rfl, .failed (.of_leaves hask)⟩

/-- Of a selection for writing only the failure is kept. -/
theorem Selects.of_leaves_selectForWriting {i : Interface} {name : String} {talk : List (Step ε)}
    {result : Except Error Unit} (hleaves : Leaves (selectForWriting i name) talk result) :
    (result = .ok () ∧
      ∃ size, Selects i ⟨.truncate, name⟩ (.fileCreateFailed name) talk (.ok size)) ∨
      ∃ e, result = .error e ∧
        Selects i ⟨.truncate, name⟩ (.fileCreateFailed name) talk (.error e) := by
  rw [selectForWriting_eq] at hleaves
  rcases leaves_bind.1 hleaves with ⟨first, reply, second, rfl, hreply, hdone⟩ | ⟨e, hreply, rfl⟩
  · obtain ⟨rfl, rfl⟩ := leaves_pure.1 hdone
    rw [List.append_nil]
    obtain ⟨_, -, -, hselect⟩ | ⟨e, he, -⟩ := Selects.of_leaves hreply
    · exact .inl ⟨rfl, _, hselect⟩
    · cases he
  · obtain ⟨_, hok, -, -⟩ | ⟨e', he, hselect⟩ := Selects.of_leaves hreply
    · cases hok
    · exact .inr ⟨e', congrArg Except.error (Except.error.inj he), hselect⟩

theorem isRead_ofNat (chunk : Nat) {total offset : Nat} (htotal : total < 0x100000000)
    (hoffset : offset < total) :
    IsRead chunk total offset
      ⟨UInt32.ofNat total, UInt32.ofNat offset, UInt32.ofNat (min chunk (total - offset))⟩ where
  total_eq := UInt32.toNat_ofNat_of_lt' htotal
  offset_eq := UInt32.toNat_ofNat_of_lt' (by show offset < 0x100000000; omega)
  length_eq := UInt32.toNat_ofNat_of_lt' (by show min chunk (total - offset) < 0x100000000; omega)

theorem Reads.of_leaves {i : Interface} {chunk total : Nat} {report : Share → ε}
    (hchunk : 0 < chunk) (htotal : total < 0x100000000) {offset : Nat} (hoffset : offset ≤ total)
    {pace : Pace} {past : List Bytes} {talk : List (Step ε)} {result : Except Error Bytes}
    (hleaves : Leaves (readFrom i chunk total report offset pace past) talk result) :
    ∃ rest, Reads i chunk total offset talk rest ∧
      result = rest.map fun pieces => past.reverse.flatten ++ pieces.flatten := by
  -- The induction is on the bytes still to come, of which every accepted piece brings some.
  induction hleft : total - offset using Nat.strongRecOn
    generalizing offset pace past talk result with
  | _ left ih =>
    rw [readFrom] at hleaves
    split at hleaves
    case isFalse hdone =>
      obtain rfl : offset = total := by omega
      obtain ⟨rfl, rfl⟩ := leaves_pure.1 (leaves_report.1 hleaves)
      exact ⟨.ok [], .done, by simp [Except.map]⟩
    case isTrue hmore =>
      have hread := isRead_ofNat chunk htotal hmore
      rcases leaves_bind.1 hleaves with ⟨first, answer, second, rfl, hask, hrest⟩ | ⟨e, hask, rfl⟩
      · have hask := Asks.of_leaves hask
        dsimp only at hrest
        split at hrest
        case isFalse hrefused =>
          obtain ⟨rfl, rfl⟩ := leaves_throw.1 hrest
          have hrefused : answer.status.isSuccess = false ∨ answer.body = [] := by
            cases hstatus : answer.status.isSuccess with
            | false => exact .inl rfl
            | true =>
              simp only [hstatus, true_and, List.length_take] at hrefused
              exact .inr (List.length_eq_zero_iff.1 (by omega))
          exact ⟨_, by simpa using Reads.refused hmore hread hask hrefused, rfl⟩
        case isTrue haccepted =>
          obtain ⟨hstatus, hsome⟩ := haccepted
          have hlength :
              (answer.body.take (min chunk (total - offset))).length ≤ total - offset := by
            simp only [List.length_take]
            omega
          obtain ⟨rest, hreads, rfl⟩ := ih _ (by omega) (by omega) (leaves_report.1 hrest) rfl
          refine ⟨_, .read hmore hread hask hstatus rfl (List.length_pos_iff.1 hsome) hreads, ?_⟩
          cases rest <;> simp [Except.map]
      · exact ⟨_, .failed hmore hread (.of_leaves hask), rfl⟩

theorem Downloads.of_leaves {i : Interface} {name : String} {options : TransferOptions}
    {report : Share → ε} {talk : List (Step ε)} {result : Except Error Bytes}
    (hleaves : Leaves (download i name options report) talk result) :
    ∃ pieces, Downloads i name options.maxChunk talk pieces ∧ result = pieces.map List.flatten := by
  unfold download at hleaves
  split at hleaves
  case isTrue hchunk =>
    obtain ⟨rfl, rfl⟩ := leaves_throw.1 hleaves
    exact ⟨_, .zeroChunk hchunk, rfl⟩
  case isFalse hchunk =>
    have hchunk : 0 < options.maxChunk := Nat.pos_of_ne_zero hchunk
    rw [selectForReading_eq, bind_assoc] at hleaves
    rcases leaves_bind.1 hleaves with
      ⟨first, reply, second, rfl, hselect, hrest⟩ | ⟨e, hselect, rfl⟩
    · obtain ⟨_, hreply, hsize, hselect⟩ | ⟨e, he, -⟩ := Selects.of_leaves hselect
      · cases hreply
        split at hrest
        case isTrue hzero =>
          obtain ⟨rfl, rfl⟩ := leaves_throw.1 hrest
          have hempty : reply.size.toNatClampNeg = 0 := by rw [hzero]; rfl
          rw [hempty] at hselect
          exact ⟨_, by simpa using Downloads.empty hchunk hselect, rfl⟩
        case isFalse hzero =>
          have hpositive : 0 < reply.size.toNatClampNeg := by
            have hne : reply.size.toInt ≠ 0 := fun h => hzero (Int32.toInt_inj.1 h)
            show 0 < reply.size.toInt.toNat
            omega
          have hfits : reply.size.toNatClampNeg < 0x100000000 := by
            have := reply.size.toInt_lt
            show reply.size.toInt.toNat < 0x100000000
            omega
          obtain ⟨rest, hreads, rfl⟩ := Reads.of_leaves hchunk hfits (Nat.zero_le _) hrest
          exact ⟨rest, .read hchunk hpositive hselect hreads, by cases rest <;> simp [Except.map]⟩
      · cases he
    · obtain ⟨_, hreply, -, -⟩ | ⟨e', he, hselect⟩ := Selects.of_leaves hselect
      · cases hreply
      · cases he
        exact ⟨_, .unselected hchunk hselect, rfl⟩

theorem isWrite_ofNat (options : TransferOptions) {sent : Nat} (hsent : sent < 0x100000000)
    (content : Bytes) :
    IsWrite options sent content
      ⟨UInt32.ofNat sent, options.delayMs, content.take options.maxChunk⟩ where
  offset_eq := UInt32.toNat_ofNat_of_lt' hsent
  delay_eq := rfl
  data_eq := rfl

/-- Writing a piece ends as its exchange does, but for a status that tells no success. -/
theorem leaves_writePiece {i : Interface} {delayMs : UInt16} {offset : Nat} {piece : Bytes}
    {talk : List (Step ε)} {result : Except Error Unit}
    (hleaves : Leaves (writePiece i delayMs offset piece) talk result) :
    (∃ e, Asks i (.fileWrite ⟨UInt32.ofNat offset, delayMs, piece⟩) talk (.error e) ∧
      result = .error e) ∨
      ∃ answer, Asks i (.fileWrite ⟨UInt32.ofNat offset, delayMs, piece⟩) talk (.ok answer) ∧
        ((answer.status.isSuccess = true ∧ result = .ok ()) ∨
          (answer.status.isSuccess = false ∧ result = .error (.transferFailed offset))) := by
  rcases leaves_bind.1 hleaves with ⟨first, answer, second, rfl, hask, hjudge⟩ | ⟨e, hask, rfl⟩
  · split at hjudge
    case isTrue hstatus =>
      obtain ⟨rfl, rfl⟩ := leaves_throw.1 hjudge
      exact .inr ⟨answer, by simpa using Asks.of_leaves hask, .inr ⟨by simpa using hstatus, rfl⟩⟩
    case isFalse hstatus =>
      obtain ⟨rfl, rfl⟩ := leaves_pure.1 hjudge
      exact .inr ⟨answer, by simpa using Asks.of_leaves hask, .inl ⟨by simpa using hstatus, rfl⟩⟩
  · exact .inl ⟨e, .of_leaves hask, rfl⟩

/-- Writes pieces one after the other, after `sent` bytes, as `writePieces` does up to the end. -/
def writeEach (i : Interface) (options : TransferOptions) (report : Nat → ε) (sent : Nat)
    (pace : Pace) : List Bytes → Attempt ε Error (Nat × Pace)
  | [] => return (sent, pace)
  | piece :: rest => do
    if 0x100000000 ≤ sent then throw .fileTooLarge
    writePiece i options.delayMs sent piece
    let next := sent + piece.length
    if pace.isDue piece.length then ExceptT.lift (Session.emit (report next))
    writeEach i options report next (pace.advance piece.length) rest

/-- What is done once all pieces are written: the report that is due at the end. -/
def closeWrites (report : Nat → ε) : Nat × Pace → Attempt ε Error Nat
  | (written, pace) => do
    if pace.isDueAtEnd then ExceptT.lift (Session.emit (report written))
    return written

theorem writePieces_eq (i : Interface) (options : TransferOptions) (report : Nat → ε) (sent : Nat)
    (pace : Pace) (pieces : List Bytes) :
    writePieces i options report sent pace pieces =
      writeEach i options report sent pace pieces >>= closeWrites report := by
  induction pieces generalizing sent pace with
  | nil => rfl
  | cons piece rest ih =>
    rw [writePieces, writeEach]
    split
    · rfl
    · simp only [ih, bind_assoc]
      congr 1
      funext _
      split
      · simp only [bind_assoc]
      · rfl

theorem Writes.of_leaves_writeEach {i : Interface} {options : TransferOptions} {report : Nat → ε}
    (hchunk : 0 < options.maxChunk) {content : Bytes} {sent : Nat} {pace : Pace}
    {talk : List (Step ε)} {result : Except Error (Nat × Pace)}
    (hleaves : Leaves (writeEach i options report sent pace
      (Bytes.pieces options.maxChunk content)) talk result) :
    Writes i options sent content talk (result.map Prod.fst) := by
  induction content using Bytes.pieces_induction hchunk generalizing sent pace talk result with
  | nil =>
    rw [Bytes.pieces_nil, writeEach] at hleaves
    obtain ⟨rfl, rfl⟩ := leaves_pure.1 hleaves
    exact .done
  | step content hmore ih =>
    rw [Bytes.pieces_of_ne_nil hchunk hmore, writeEach] at hleaves
    split at hleaves
    case isTrue hsent =>
      obtain ⟨rfl, rfl⟩ := leaves_throw.1 hleaves
      exact .tooLarge hmore hsent
    case isFalse hsent =>
      have hwrite := isWrite_ofNat options (Nat.lt_of_not_le hsent) content
      rcases leaves_bind.1 hleaves with ⟨first, v, second, rfl, hpiece, hrest⟩ | ⟨e, hpiece, rfl⟩
      · obtain ⟨e, -, he⟩ | ⟨answer, hask, ⟨hstatus, -⟩ | ⟨-, he⟩⟩ := leaves_writePiece hpiece
        · cases he
        · exact .written hmore hwrite hask hstatus (ih (leaves_report.1 hrest))
        · cases he
      · obtain ⟨e', hask, he⟩ | ⟨answer, hask, ⟨-, he⟩ | ⟨hstatus, he⟩⟩ := leaves_writePiece hpiece
        · cases he
          exact .failed hmore hwrite hask
        · cases he
        · cases he
          exact .refused hmore hwrite hask hstatus

theorem Writes.of_leaves {i : Interface} {options : TransferOptions} {report : Nat → ε}
    (hchunk : 0 < options.maxChunk) {content : Bytes} {sent : Nat} {pace : Pace}
    {talk : List (Step ε)} {result : Except Error Nat}
    (hleaves : Leaves (writePieces i options report sent pace
      (Bytes.pieces options.maxChunk content)) talk result) :
    Writes i options sent content talk result := by
  rw [writePieces_eq] at hleaves
  rcases leaves_bind.1 hleaves with ⟨first, ⟨written, pace'⟩, second, rfl, heach, hend⟩ |
    ⟨e, heach, rfl⟩
  · obtain ⟨rfl, rfl⟩ := leaves_pure.1 (leaves_report.1 hend)
    rw [List.append_nil]
    exact .of_leaves_writeEach hchunk heach
  · exact .of_leaves_writeEach hchunk heach

/-- The upload of a part of a buffer. -/
theorem Uploads.of_leaves_range {i : Interface} {name : String} {options : TransferOptions}
    {report : Nat → ε} {data : Bytes} {offset length : Nat}
    (hrange : offset + length ≤ data.length) {talk : List (Step ε)} {result : Except Error Nat}
    (hleaves : Leaves (uploadRange data offset length i name options report) talk result) :
    Uploads i name options ((data.drop offset).take length) talk result := by
  unfold uploadRange at hleaves
  dsimp only at hleaves
  split at hleaves
  case isTrue hchunk =>
    obtain ⟨rfl, rfl⟩ := leaves_throw.1 hleaves
    exact .zeroChunk hchunk
  case isFalse hchunk =>
    have hchunk : 0 < options.maxChunk := Nat.pos_of_ne_zero hchunk
    rw [if_neg (Nat.not_lt.2 hrange)] at hleaves
    rcases leaves_bind.1 hleaves with ⟨first, _, second, rfl, hselect, hrest⟩ | ⟨e, hselect, rfl⟩
    · obtain ⟨-, size, hselect⟩ | ⟨e, he, -⟩ := Selects.of_leaves_selectForWriting hselect
      · exact .written hchunk hselect (.of_leaves hchunk hrest)
      · cases he
    · obtain ⟨hok, -⟩ | ⟨e', he, hselect⟩ := Selects.of_leaves_selectForWriting hselect
      · cases hok
      · cases he
        exact .unselected hchunk hselect

theorem Uploads.of_leaves {i : Interface} {name : String} {options : TransferOptions}
    {report : Nat → ε} {data : Bytes} {talk : List (Step ε)} {result : Except Error Nat}
    (hleaves : Leaves (upload data i name options report) talk result) :
    Uploads i name options data talk result := by
  have huploads := Uploads.of_leaves_range (Nat.le_of_eq (Nat.zero_add _)) hleaves
  rwa [List.drop_zero, List.take_length] at huploads

/-! ## What completed transfers have moved -/

/-- Reads that succeed bring everything from their offset on. -/
theorem Reads.length_eq {i : Interface} {chunk total offset : Nat} {talk : List (Step ε)}
    {pieces : List Bytes} (hreads : Reads i chunk total offset talk (.ok pieces)) :
    offset + pieces.flatten.length = total := by
  generalize hok : (.ok pieces : Except Error (List Bytes)) = result at hreads
  induction hreads generalizing pieces with
  | done =>
    cases hok
    rfl
  | failed => cases hok
  | refused => cases hok
  | @read _ _ _ _ _ _ result _ _ _ _ _ _ _ ih =>
    cases result with
    | error e => cases hok
    | ok later =>
      cases hok
      have := ih rfl
      simp only [List.flatten_cons, List.length_append]
      omega

/-- No piece that was accepted is empty. -/
theorem Reads.nil_not_mem {i : Interface} {chunk total offset : Nat} {talk : List (Step ε)}
    {pieces : List Bytes} (hreads : Reads i chunk total offset talk (.ok pieces)) :
    [] ∉ pieces := by
  generalize hok : (.ok pieces : Except Error (List Bytes)) = result at hreads
  induction hreads generalizing pieces with
  | done =>
    cases hok
    exact List.not_mem_nil
  | failed => cases hok
  | refused => cases hok
  | @read _ _ _ _ _ _ result _ _ _ _ _ hsome _ ih =>
    cases result with
    | error e => cases hok
    | ok later =>
      cases hok
      intro hnil
      rcases List.mem_cons.1 hnil with hnil | hnil
      · exact hsome hnil.symm
      · exact ih rfl hnil

/-- A download that succeeds has brought something, in pieces none of which is empty. -/
theorem Downloads.nonempty {i : Interface} {name : String} {chunk : Nat} {talk : List (Step ε)}
    {pieces : List Bytes} (hdownload : Downloads i name chunk talk (.ok pieces)) :
    0 < pieces.flatten.length ∧ [] ∉ pieces := by
  cases hdownload with
  | read _ htotal _ hreads =>
    have := hreads.length_eq
    exact ⟨by omega, hreads.nil_not_mem⟩

/-- Writes that succeed end in the number of bytes written. -/
theorem Writes.eq_add_length {i : Interface} {options : TransferOptions} {sent n : Nat}
    {content : Bytes} {talk : List (Step ε)}
    (hwrites : Writes i options sent content talk (.ok n)) : n = sent + content.length := by
  generalize hok : (.ok n : Except Error Nat) = result at hwrites
  induction hwrites with
  | done =>
    cases hok
    rfl
  | tooLarge => cases hok
  | failed => cases hok
  | refused => cases hok
  | written _ hwrite _ _ _ ih =>
    rw [ih hok, hwrite.data_eq, List.length_take, List.length_drop]
    omega

theorem Uploads.eq_length {i : Interface} {name : String} {options : TransferOptions} {n : Nat}
    {content : Bytes} {talk : List (Step ε)}
    (huploads : Uploads i name options content talk (.ok n)) : n = content.length := by
  cases huploads with
  | written _ _ hwrites => simpa using hwrites.eq_add_length

theorem Uploads.chunk_pos {i : Interface} {name : String} {options : TransferOptions} {n : Nat}
    {content : Bytes} {talk : List (Step ε)}
    (huploads : Uploads i name options content talk (.ok n)) : 0 < options.maxChunk := by
  cases huploads with
  | written hchunk => exact hchunk

end KeyInjection.Transfer
