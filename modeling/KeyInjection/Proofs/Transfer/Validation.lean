-- SUMMARY: Transfers that a client refuses on its own, and the command that any other opens with.
import KeyInjection.Proofs.Apdu.Encoding
import KeyInjection.Proofs.Session.Runs
import KeyInjection.Transfer.Download
import KeyInjection.Transfer.Upload

/-!
# Validation of transfers

A transfer that cannot be meant is refused by the client itself (`Transfer.Refused`): it fails
before anything is sent, and before anything is read of a source. Any other starts with the
selection of its file.
-/

namespace KeyInjection

variable {ε σ ι : Type}

/-! ## Attempts that open with a request -/

/-- The session opens with the exchange of a command. -/
def Session.Opens (i : Interface) (c : Command) (p : Session ε α) : Prop :=
  ∃ next, p = .exchange i c next

namespace Session.Opens

variable {i : Interface} {c : Command} {p : Session ε α}

theorem bind (hopens : p.Opens i c) (k : α → Session ε β) : (p.bind k).Opens i c := by
  obtain ⟨next, rfl⟩ := hopens
  exact ⟨_, rfl⟩

/-- The command is the first thing that is submitted in a run. -/
theorem exists_steps_eq (hopens : p.Opens i c) (w : Surroundings σ) (s : σ) :
    ∃ later, (p.run w s).steps = .exchanged i c (w.exchange i c s).1 :: later := by
  obtain ⟨next, rfl⟩ := hopens
  rw [run_exchange]
  exact ⟨_, rfl⟩

end Session.Opens

namespace Device

/-- The attempt starts with the exchange of a request. -/
def StartsWith (i : Interface) (r : Request) (a : Attempt ε Error α) : Prop :=
  ∃ k : Response → Attempt ε Error α, a = exchange i r >>= k

namespace StartsWith

variable {i : Interface} {r : Request} {a : Attempt ε Error α}

theorem bind (hstarts : StartsWith i r a) (k : α → Attempt ε Error β) :
    StartsWith i r (a >>= k) := by
  obtain ⟨k', rfl⟩ := hstarts
  exact ⟨_, bind_assoc ..⟩

/-- A request that has no encoding is the end. -/
theorem eq_throw (hstarts : StartsWith i r a) {e : CodecError} (hcode : r.command = .error e) :
    a = throw (.apdu e) := by
  obtain ⟨k, rfl⟩ := hstarts
  rw [exchange, hcode]
  rfl

/-- A request that has one is submitted. -/
theorem opens (hstarts : StartsWith i r a) {c : Command} (hcode : r.command = .ok c) :
    a.run.Opens i c := by
  obtain ⟨k, rfl⟩ := hstarts
  rw [exchange, hcode]
  exact ⟨_, rfl⟩

end StartsWith

theorem startsWith_display (i : Interface) (text : String) :
    StartsWith i (.display (.prompt text)) (display i text : Attempt ε Error Unit) := ⟨_, rfl⟩

end Device

/-! ## Transfers -/

namespace Transfer

open Device

/-- Why a transfer is refused, whatever its file may be: it has pieces of no bytes, or a range that
its buffer does not have, or a name that cannot be sent; the first of these counts. -/
inductive Refused (options : TransferOptions) (inRange : Prop) (name : String) : Error → Prop where
  | chunk (hchunk : options.maxChunk = 0) :
      Refused options inRange name (.invalidArgument "chunk size must be non-zero")
  | range (hchunk : options.maxChunk ≠ 0) (hrange : ¬ inRange) :
      Refused options inRange name (.invalidArgument "buffer range out of bounds")
  | name (hchunk : options.maxChunk ≠ 0) (hrange : inRange)
      (hname : name = "" ∨ 32 < (textBytes name).length) :
      Refused options inRange name (.apdu .invalidLength)

variable {i : Interface} {name : String} {options : TransferOptions} {inRange : Prop} {e : Error}

/-- A selection by a name that is refused cannot be sent. -/
theorem command_select_eq_error (mode : SelectMode)
    (hname : name = "" ∨ 32 < (textBytes name).length) :
    (Request.fileSelect ⟨mode, name⟩).command = .error .invalidLength :=
  Request.command_of_not_withinLimits fun hlimits =>
    Message.withinLimits_fileSelect_iff.1 hlimits hname

/-- Without the range the transfer is refused, for its options if not for that. -/
theorem exists_refused (hrange : ¬ inRange) : ∃ e, Refused options inRange name e := by
  by_cases hchunk : options.maxChunk = 0
  · exact ⟨_, .chunk hchunk⟩
  · exact ⟨_, .range hchunk hrange⟩

/-- What is not refused passes the checks, and its selection can be sent. -/
theorem of_not_refused (mode : SelectMode) (hnot : ∀ e, ¬ Refused options inRange name e) :
    options.maxChunk ≠ 0 ∧ inRange ∧ ∃ c, (Request.fileSelect ⟨mode, name⟩).command = .ok c := by
  have hchunk : options.maxChunk ≠ 0 := fun hchunk => hnot _ (.chunk hchunk)
  have hrange : inRange := by
    by_contra hrange
    obtain ⟨e, hrefused⟩ := exists_refused hrange
    exact hnot e hrefused
  have hname : ¬ (name = "" ∨ 32 < (textBytes name).length) :=
    fun hname => hnot _ (.name hchunk hrange hname)
  exact ⟨hchunk, hrange,
    Request.exists_command_iff.2 (Message.withinLimits_fileSelect_iff.2 hname)⟩

theorem startsWith_selectForReading (i : Interface) (name : String) :
    StartsWith i (.fileSelect ⟨.read, name⟩) (selectForReading i name : Attempt ε Error Nat) :=
  ⟨_, rfl⟩

theorem startsWith_selectForWriting (i : Interface) (name : String) :
    StartsWith i (.fileSelect ⟨.truncate, name⟩) (selectForWriting i name : Attempt ε Error Unit) :=
  ⟨_, rfl⟩

/-! ### Downloads -/

theorem startsWith_download (hchunk : options.maxChunk ≠ 0) (report : Share → ε) :
    StartsWith i (.fileSelect ⟨.read, name⟩) (download i name options report) := by
  unfold download
  simp only [if_neg hchunk]
  exact (startsWith_selectForReading i name).bind _

theorem Refused.download_eq (hrefused : Refused options True name e) (report : Share → ε) :
    download i name options report = throw e := by
  cases hrefused with
  | chunk hchunk =>
    unfold download
    rw [if_pos hchunk]
    rfl
  | range _ hrange => exact absurd trivial hrange
  | name hchunk _ hname =>
    exact (startsWith_download hchunk report).eq_throw (command_select_eq_error _ hname)

/-! ### Uploads -/

section Upload

variable {data : Bytes} {offset length : Nat}

theorem startsWith_uploadRange (hchunk : options.maxChunk ≠ 0)
    (hrange : offset + length ≤ data.length) (report : Nat → ε) :
    StartsWith i (.fileSelect ⟨.truncate, name⟩)
      (uploadRange data offset length i name options report) := by
  unfold uploadRange
  simp only [if_neg hchunk, if_neg (Nat.not_lt.2 hrange)]
  exact (startsWith_selectForWriting i name).bind _

theorem Refused.uploadRange_eq (hrefused : Refused options (offset + length ≤ data.length) name e)
    (report : Nat → ε) : uploadRange data offset length i name options report = throw e := by
  cases hrefused with
  | chunk hchunk =>
    unfold uploadRange
    rw [if_pos hchunk]
    rfl
  | range hchunk hrange =>
    unfold uploadRange
    rw [if_neg hchunk, if_pos (Nat.not_le.1 hrange)]
    rfl
  | name hchunk hrange hname =>
    exact (startsWith_uploadRange hchunk hrange report).eq_throw (command_select_eq_error _ hname)

/-- Whether a range reaches beyond the end of a buffer, as 64 bits tell: they may not hold the end
of the range. -/
def rangeExceeds (data : Bytes) (offset length : UInt64) : Bool :=
  let stop? :=
    if offset.toNat + length.toNat < UInt64.size then some (offset + length) else none
  stop?.map (fun stop => decide (data.length < stop.toNat)) != some false

/-- They tell the truth: what they do not hold is beyond the end of any buffer. -/
theorem rangeExceeds_iff (hdata : data.length < UInt64.size) {offset length : UInt64} :
    rangeExceeds data offset length = true ↔ data.length < offset.toNat + length.toNat := by
  unfold rangeExceeds
  by_cases hsum : offset.toNat + length.toNat < UInt64.size
  · have hstop : (offset + length).toNat = offset.toNat + length.toNat := by
      rw [UInt64.toNat_add]
      exact Nat.mod_eq_of_lt hsum
    simp [if_pos hsum, hstop]
  · simp only [if_neg hsum]
    exact iff_of_true rfl (by omega)

end Upload

/-! ### Uploads from a source -/

section Source

variable {source : ByteSource ι} {start : ι}

/-- Nothing is read of the source, and it is given up. -/
theorem Refused.uploadFrom_eq (hrefused : Refused options True name e) (report : Nat → ε) :
    uploadFrom source start i name options report =
      .done (some (.error e), source.close start) := by
  cases hrefused with
  | chunk hchunk =>
    unfold uploadFrom
    rw [if_pos hchunk]
    rfl
  | range _ hrange => exact absurd trivial hrange
  | name hchunk _ hname =>
    have hselect : (selectForWriting i name : Attempt ε Error Unit) =
        throw (.apdu .invalidLength) :=
      (startsWith_selectForWriting i name).eq_throw (command_select_eq_error _ hname)
    unfold uploadFrom
    rw [if_neg hchunk, hselect]
    rfl

theorem opens_uploadFrom {c : Command} (hchunk : options.maxChunk ≠ 0)
    (hcode : (Request.fileSelect ⟨.truncate, name⟩).command = .ok c) (report : Nat → ε) :
    (uploadFrom source start i name options report).Opens i c := by
  have hselect := (startsWith_selectForWriting (ε := ε) i name).opens hcode
  unfold uploadFrom
  rw [if_neg hchunk]
  exact hselect.bind _

end Source

end Transfer

/-- The source, with the room that there was for each part that was read of it. -/
def ByteSource.recording (source : ByteSource ι) : ByteSource (ι × List Nat) where
  read room t := let (piece, left) := source.read room t.1; (piece, (left, t.2 ++ [room]))
  close t := (source.close t.1, t.2)

end KeyInjection
