-- SUMMARY: The commands that device commands and transfers submit, as lists of requests.
import KeyInjection.Proofs.Apdu.RoundTrip
import KeyInjection.Proofs.Transfer.Dialogue
import KeyInjection.Proofs.Transfer.Pieces

/-!
# Transcripts of transfers

The commands of a dialogue are those of a list of requests. A download that succeeds has made the
reads that its pieces call for, an upload that succeeds all its writes; one that fails has made
only the first of them.
-/

namespace KeyInjection

variable {ε : Type}

/-- The talk is with the terminal alone, and submits the commands of these requests. -/
structure Submits (i : Interface) (rs : List Request) (talk : List (Step ε)) : Prop where
  commands_eq : commandsOf talk = submissions i rs
  posts_eq : postsOf talk = []

theorem Submits.nil {i : Interface} : Submits i [] ([] : List (Step ε)) := ⟨rfl, rfl⟩

theorem Submits.append {i : Interface} {first second : List Request} {talk rest : List (Step ε)}
    (hfirst : Submits i first talk) (hsecond : Submits i second rest) :
    Submits i (first ++ second) (talk ++ rest) where
  commands_eq := by
    rw [commandsOf_append, hfirst.commands_eq, hsecond.commands_eq, submissions_append]
  posts_eq := by rw [postsOf_append, hfirst.posts_eq, hsecond.posts_eq, List.nil_append]

/-! ## Single commands -/

namespace Device

theorem Asks.submits {i : Interface} {r : Request} {talk : List (Step ε)}
    {answer : Except Error Response} (hask : Asks i r talk answer) : Submits i [r] talk := by
  cases hask with
  | unsent hcode => exact ⟨by simp [Request.submission, hcode], rfl⟩
  | sent hcode => exact ⟨by simp [Request.submission, hcode, Step.command?], rfl⟩

theorem Commands.submits {i : Interface} {r : Request} {talk : List (Step ε)}
    {result : Except Error Unit} (hcommand : Commands i r talk result) : Submits i [r] talk := by
  cases hcommand with
  | failed hask | refused hask | accepted hask => exact hask.submits

theorem Requests.submits {i : Interface} {r : Request}
    {decode : Bytes → Except CodecError (α × Nat)} {talk : List (Step ε)} {result : Except Error α}
    (hrequest : Requests i r decode talk result) : Submits i [r] talk := by
  cases hrequest with
  | failed hask | refused hask | unreadable hask | answered hask => exact hask.submits

theorem Imports.submits {i : Interface} {talk : List (Step ε)} {result : Except Error Unit}
    (himport : Imports i talk result) : Submits i [.keyImport] talk := by
  cases himport with
  | failed hask | rejected hask | imported hask => exact hask.submits

end Device

namespace Transfer

open Device

theorem Selects.submits {i : Interface} {r : SelectRequest} {refusal : Error}
    {talk : List (Step ε)} {result : Except Error Nat} (hselect : Selects i r refusal talk result) :
    Submits i [.fileSelect r] talk := by
  cases hselect with
  | failed hask | refused hask | unreadable hask | negative hask | selected hask =>
    exact hask.submits

/-! ## Downloads -/

/-- The reads that bring these pieces of a file of `total` bytes, from an offset on. -/
def readRequests (chunk total : Nat) : Nat → List Bytes → List Request
  | _, [] => []
  | offset, piece :: rest =>
    .fileRead
      ⟨UInt32.ofNat total, UInt32.ofNat offset, UInt32.ofNat (min chunk (total - offset))⟩ ::
      readRequests chunk total (offset + piece.length) rest

def downloadRequests (name : String) (chunk total : Nat) (pieces : List Bytes) : List Request :=
  .fileSelect ⟨.read, name⟩ :: readRequests chunk total 0 pieces

/-- The read of a file of `total` bytes at an offset. -/
def readAt (chunk total offset : Nat) : Request :=
  .fileRead ⟨UInt32.ofNat total, UInt32.ofNat offset, UInt32.ofNat (min chunk (total - offset))⟩

/-- Reads that bring pieces of one size stand at the multiples of that size. -/
theorem readRequests_pieces {size : Nat} (hsize : 0 < size) (chunk total offset : Nat) (b : Bytes) :
    readRequests chunk total offset (Bytes.pieces size b) =
      (List.range (b.length ⌈/⌉ size)).map fun j => readAt chunk total (offset + j * size) := by
  induction b using Bytes.pieces_induction hsize generalizing offset with
  | nil => simp [readRequests]
  | step b hmore ih =>
    rw [Bytes.pieces_of_ne_nil hsize hmore, ceilDiv_of_pos hsize (List.length_pos_iff.2 hmore),
      List.range_succ_eq_map, List.map_cons, List.map_map, readRequests, ih, List.length_drop,
      Nat.zero_mul, Nat.add_zero]
    refine congrArg (_ :: ·) (List.map_congr_left fun j hj => ?_)
    -- There are more pieces, so this one is full.
    have hfull : 0 < b.length - size :=
      Nat.lt_of_le_of_lt (Nat.zero_le _) ((lt_ceilDiv_iff hsize).1 (List.mem_range.1 hj))
    rw [List.length_take, Nat.min_eq_left (by omega), Function.comp_apply, Nat.succ_mul,
      Nat.add_assoc, Nat.add_comm size]

theorem fileRead_of_mem_readRequests {chunk total offset : Nat} {pieces : List Bytes} {r : Request}
    (hr : r ∈ readRequests chunk total offset pieces) : ∃ x, r = .fileRead x := by
  induction pieces generalizing offset with
  | nil => cases hr
  | cons piece rest ih =>
    rcases List.mem_cons.1 hr with rfl | hr
    · exact ⟨_, rfl⟩
    · exact ih hr

theorem IsRead.eq {chunk total offset : Nat} {r : ReadRequest}
    (hread : IsRead chunk total offset r) :
    r = ⟨UInt32.ofNat total, UInt32.ofNat offset, UInt32.ofNat (min chunk (total - offset))⟩ := by
  rw [← hread.total_eq, ← hread.offset_eq]
  cases r with
  | mk t o l =>
    have hlength : UInt32.ofNat (min chunk (total - offset)) = l := by
      rw [← hread.length_eq, UInt32.ofNat_toNat]
    rw [hread.total_eq, hread.offset_eq, hlength, ← hread.total_eq, ← hread.offset_eq]
    simp

/-- Reads are those of the pieces brought, but for a last one that failed. -/
theorem Reads.submits {i : Interface} {chunk total offset : Nat} {talk : List (Step ε)}
    {result : Except Error (List Bytes)} (hreads : Reads i chunk total offset talk result) :
    ∃ pieces, Submits i (readRequests chunk total offset pieces) talk ∧
      ∀ brought, result = .ok brought → pieces = brought := by
  induction hreads with
  | done => exact ⟨[], .nil, fun _ hr => by cases hr; rfl⟩
  | failed _ hread hask | refused _ hread hask =>
    have hsubmits := hask.submits
    rw [hread.eq] at hsubmits
    exact ⟨[[]], hsubmits, fun _ hr => by cases hr⟩
  | @read _ _ _ _ _ piece result _ hread hask _ _ _ _ ih =>
    obtain ⟨pieces, hlater, hbrought⟩ := ih
    have hsubmits := hask.submits.append hlater
    rw [hread.eq] at hsubmits
    refine ⟨piece :: pieces, hsubmits, fun brought hr => ?_⟩
    cases result with
    | error e => cases hr
    | ok later =>
      cases hr
      rw [hbrought later rfl]

/-- A download that fails has only begun to make its requests. -/
theorem Downloads.submits_prefix {i : Interface} {name : String} {chunk : Nat}
    {talk : List (Step ε)} {result : Except Error (List Bytes)}
    (hdownload : Downloads i name chunk talk result) :
    ∃ total pieces requests, requests <+: downloadRequests name chunk total pieces ∧
      Submits i requests talk := by
  cases hdownload with
  | zeroChunk => exact ⟨0, [], [], List.nil_prefix, .nil⟩
  | unselected _ hselect | empty _ hselect =>
    exact ⟨0, [], _, List.prefix_rfl, hselect.submits⟩
  | @read _ _ total _ _ _ hselect hreads =>
    obtain ⟨pieces, hsubmits, -⟩ := hreads.submits
    exact ⟨total, pieces, _, List.prefix_rfl, hselect.submits.append hsubmits⟩

/-- A download that succeeds has made the requests for its pieces. -/
theorem Downloads.submits {i : Interface} {name : String} {chunk : Nat}
    {talk : List (Step ε)} {pieces : List Bytes}
    (hdownload : Downloads i name chunk talk (.ok pieces)) :
    Submits i (downloadRequests name chunk pieces.flatten.length pieces) talk := by
  cases hdownload with
  | read _ _ hselect hreads =>
    have htotal := hreads.length_eq
    obtain ⟨brought, hsubmits, hbrought⟩ := hreads.submits
    obtain rfl := hbrought pieces rfl
    rw [Nat.zero_add] at htotal
    rw [htotal]
    exact hselect.submits.append hsubmits

/-! ## Uploads -/

/-- The writes of pieces, after `sent` bytes. -/
def writeRequests (delayMs : UInt16) : Nat → List Bytes → List Request
  | _, [] => []
  | sent, piece :: rest =>
    .fileWrite ⟨UInt32.ofNat sent, delayMs, piece⟩ ::
      writeRequests delayMs (sent + piece.length) rest

def uploadRequests (name : String) (options : TransferOptions) (content : Bytes) : List Request :=
  .fileSelect ⟨.truncate, name⟩ ::
    writeRequests options.delayMs 0 (Bytes.pieces options.maxChunk content)

@[simp] theorem length_writeRequests (delayMs : UInt16) (sent : Nat) (pieces : List Bytes) :
    (writeRequests delayMs sent pieces).length = pieces.length := by
  induction pieces generalizing sent with
  | nil => rfl
  | cons piece rest ih => simp [writeRequests, ih]

/-- The first writes are those of the first pieces. -/
theorem take_writeRequests (delayMs : UInt16) (sent m : Nat) (pieces : List Bytes) :
    (writeRequests delayMs sent pieces).take m = writeRequests delayMs sent (pieces.take m) := by
  induction pieces generalizing sent m with
  | nil => simp [writeRequests]
  | cons piece rest ih =>
    cases m with
    | zero => rfl
    | succ m => simp [writeRequests, ih]

theorem fileWrite_of_mem_writeRequests {delayMs : UInt16} {sent : Nat} {pieces : List Bytes}
    {r : Request} (hr : r ∈ writeRequests delayMs sent pieces) : ∃ x, r = .fileWrite x := by
  induction pieces generalizing sent with
  | nil => cases hr
  | cons piece rest ih =>
    rcases List.mem_cons.1 hr with rfl | hr
    · exact ⟨_, rfl⟩
    · exact ih hr

theorem length_uploadRequests (name : String) {options : TransferOptions}
    (hchunk : 0 < options.maxChunk) (content : Bytes) :
    (uploadRequests name options content).length = 1 + content.length ⌈/⌉ options.maxChunk := by
  rw [uploadRequests, List.length_cons, length_writeRequests, Bytes.length_pieces hchunk,
    Nat.add_comm]

/-- The selection and the first writes upload the front of the content. -/
theorem take_uploadRequests (name : String) {options : TransferOptions}
    (hchunk : 0 < options.maxChunk) (content : Bytes) (m : Nat) :
    (uploadRequests name options content).take (m + 1) =
      uploadRequests name options (content.take (m * options.maxChunk)) := by
  rw [uploadRequests, uploadRequests, List.take_succ_cons, take_writeRequests,
    Bytes.take_pieces hchunk]

/-- All of them have an encoding if the name has. -/
theorem exists_command_uploadRequests {name : String} {options : TransferOptions} {content : Bytes}
    (hname : 0 < (textBytes name).length ∧ (textBytes name).length ≤ SelectRequest.maxName) :
    ∀ r ∈ uploadRequests name options content, ∃ c, r.command = .ok c := by
  intro r hr
  rcases List.mem_cons.1 hr with rfl | hr
  · exact exists_command_fileSelect .truncate hname
  · obtain ⟨x, rfl⟩ := fileWrite_of_mem_writeRequests hr
    exact ⟨_, rfl⟩

theorem IsWrite.eq {options : TransferOptions} {sent : Nat} {content : Bytes} {r : WriteRequest}
    (hwrite : IsWrite options sent content r) :
    r = ⟨UInt32.ofNat sent, options.delayMs, content.take options.maxChunk⟩ := by
  rw [← hwrite.offset_eq, ← hwrite.delay_eq, ← hwrite.data_eq]
  simp

/-- Writes are those of the pieces of the content, up to one that failed. -/
theorem Writes.submits {i : Interface} {options : TransferOptions} (hchunk : 0 < options.maxChunk)
    {sent : Nat} {content : Bytes} {talk : List (Step ε)} {result : Except Error Nat}
    (hwrites : Writes i options sent content talk result) :
    ∃ requests,
      requests <+: writeRequests options.delayMs sent (Bytes.pieces options.maxChunk content) ∧
        Submits i requests talk ∧
        ∀ n, result = .ok n → requests =
          writeRequests options.delayMs sent (Bytes.pieces options.maxChunk content) := by
  induction hwrites with
  | done => exact ⟨[], List.nil_prefix, .nil, fun _ _ => by rw [Bytes.pieces_nil]; rfl⟩
  | tooLarge => exact ⟨[], List.nil_prefix, .nil, fun _ hr => by cases hr⟩
  | failed hmore hwrite hask | refused hmore hwrite hask =>
    refine ⟨_, ?_, hask.submits, fun _ hr => by cases hr⟩
    rw [Bytes.pieces_of_ne_nil hchunk hmore, hwrite.eq]
    exact ⟨_, rfl⟩
  | written hmore hwrite hask _ _ ih =>
    obtain ⟨requests, hprefix, hsubmits, hall⟩ := ih
    rw [Bytes.pieces_of_ne_nil hchunk hmore]
    refine ⟨_, ?_, hask.submits.append hsubmits, fun n hr => ?_⟩
    · rw [hwrite.eq] at hprefix ⊢
      exact List.prefix_cons_inj _ |>.2 hprefix
    · rw [hall n hr, hwrite.eq]
      rfl

/-- An upload that fails has only begun to make its requests. -/
theorem Uploads.submits_prefix {i : Interface} {name : String} {options : TransferOptions}
    {content : Bytes} {talk : List (Step ε)} {result : Except Error Nat}
    (hupload : Uploads i name options content talk result) :
    ∃ requests, requests <+: uploadRequests name options content ∧ Submits i requests talk := by
  cases hupload with
  | zeroChunk => exact ⟨[], List.nil_prefix, .nil⟩
  | unselected _ hselect => exact ⟨_, ⟨_, rfl⟩, hselect.submits⟩
  | written hchunk hselect hwrites =>
    obtain ⟨requests, hprefix, hsubmits, -⟩ := hwrites.submits hchunk
    exact ⟨_, List.prefix_cons_inj _ |>.2 hprefix, hselect.submits.append hsubmits⟩

/-- An upload that succeeds has made all its requests. -/
theorem Uploads.submits {i : Interface} {name : String} {options : TransferOptions}
    {content : Bytes} {talk : List (Step ε)} {n : Nat}
    (hupload : Uploads i name options content talk (.ok n)) :
    Submits i (uploadRequests name options content) talk := by
  cases hupload with
  | written hchunk hselect hwrites =>
    obtain ⟨requests, -, hsubmits, hall⟩ := hwrites.submits hchunk
    rw [hall n rfl] at hsubmits
    exact hselect.submits.append hsubmits

end Transfer

end KeyInjection
