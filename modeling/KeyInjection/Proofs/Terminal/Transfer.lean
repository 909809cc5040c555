-- SUMMARY: What transfers with a terminal move, as far as its faults let them.
import KeyInjection.Proofs.Terminal.Device
import KeyInjection.Proofs.Terminal.Outcomes
import KeyInjection.Proofs.Transfer.Transcript

/-!
# Transfers with a terminal

A terminal may bring less of a file than a read asks for, and may refuse to select, read or write
files. As far as it does not, a download brings the content of the file, whatever the size of its
pieces, and leaves the file selected; an upload leaves the file with the content that was sent,
whatever it held before.
-/

namespace KeyInjection

namespace FileStore

theorem erase_erase (s : FileStore) (name : String) : (s.erase name).erase name = s.erase name := by
  simp [erase, List.filter_filter]

/-- What a file held is gone once it is given another content. -/
@[simp] theorem put_put (s : FileStore) (name : String) (a b : Bytes) :
    (s.put name a).put name b = s.put name b := by
  have herase : (s.put name a).erase name = (s.erase name).erase name := by
    simp [put, erase]
  rw [put, herase, erase_erase]
  rfl

end FileStore

namespace Transfer

variable {ε η : Type} {h : KeyHost η} {t : Terminal} {k : η} {i : Interface} {name : String}

/-! ## Selections -/

/-- A selection is exchanged for what the terminal makes of it. -/
theorem gives_select (mode : SelectMode)
    (hname : 0 < (textBytes name).length ∧ (textBytes name).length ≤ SelectRequest.maxName)
    {answer : Response} {t' : Terminal} (hselect : t.select i ⟨mode, name⟩ = (answer, t')) :
    Gives (.obeying h) i (t, k)
      (Device.exchange i (.fileSelect ⟨mode, name⟩) : Attempt ε Error Response)
      [.fileSelect ⟨mode, name⟩] (.ok answer) (t', k) := by
  obtain ⟨c, hcode⟩ := exists_command_fileSelect mode hname
  have hexchange := Device.gives_exchange (ε := ε) (h := h) (t := t) (k := k) (i := i) hcode
  rwa [show t.execute i (.fileSelect ⟨mode, name⟩) = _ from hselect] at hexchange

theorem gives_selectForReading (hselectable : t.faults.failSelect.contains name = false)
    (hname : 0 < (textBytes name).length ∧ (textBytes name).length ≤ SelectRequest.maxName)
    {content : Bytes} (hfile : t.files.get? name = some content)
    (hsize : content.length < 0x80000000) :
    Gives (.obeying h) i (t, k) (selectForReading i name : Attempt ε Error Nat)
      [.fileSelect ⟨.read, name⟩]
      (if content = [] then .error (.emptyFile name) else .ok content.length)
      ({ t with selected := t.selected.set i (some name) }, k) := by
  have hint : (Int32.ofNat content.length).toInt = content.length := Int32.toInt_ofNat_of_lt hsize
  have hnegative : ¬ Int32.ofNat content.length < 0 := by
    rw [Int32.lt_iff_toInt_lt, hint]
    simp
  refine (gives_select .read hname (Terminal.select_read hselectable hfile)).bind ?_
  refine (Device.gives_readBody (SelectReply.decode_bytes _)).bind ?_
  rw [if_neg hnegative]
  by_cases hempty : content = []
  · subst hempty
    exact .throw _
  · have hzero : ¬ Int32.ofNat content.length = 0 := by
      intro hzero
      rw [hzero] at hint
      have hcast : (0 : Int) = content.length := hint
      have := List.length_pos_iff.2 hempty
      omega
    have hcount : (Int32.ofNat content.length).toNatClampNeg = content.length :=
      Int32.toNatClampNeg_ofNat_of_lt hsize
    rw [if_neg hzero, if_neg hempty]
    show Gives _ _ _ (pure (Int32.ofNat content.length).toNatClampNeg) _ _ _
    rw [hcount]
    exact .pure _

theorem gives_selectForReading_refused
    (hrefused : t.faults.failSelect.contains name = true ∨ t.files.get? name = none)
    (hname : 0 < (textBytes name).length ∧ (textBytes name).length ≤ SelectRequest.maxName) :
    Gives (.obeying h) i (t, k) (selectForReading i name : Attempt ε Error Nat)
      [.fileSelect ⟨.read, name⟩] (.error (.fileNotFound name)) (t.deselect i, k) :=
  (gives_select .read hname (Terminal.select_refused (hrefused.imp_right fun h => ⟨rfl, h⟩))).bind
    (.throw _)

/-! ## Downloads -/

section Reads

variable {content : Bytes} {chunk step : Nat} {report : Share → ε} {rs : List Request}
variable {result : Except Error Bytes} {t' : Terminal}

/-- A read is answered with success and the next bytes of the file, or tells that it failed. -/
theorem gives_readAt (hcontent : t.selectedContent i = some content)
    (hsize : content.length < 0x100000000) {offset : Nat} (hoffset : offset < content.length)
    (chunk : Nat) :
    Gives (.obeying h) i (t, k)
      (Device.exchange i (readAt chunk content.length offset) : Attempt ε Error Response)
      [readAt chunk content.length offset]
      (.ok (if t.cannotRead (UInt32.ofNat offset) then Terminal.bare .executionError
        else ⟨.success, (content.drop offset).take (t.faults.readStep chunk)⟩)) (t, k) := by
  let r : ReadRequest := ⟨UInt32.ofNat content.length, UInt32.ofNat offset,
    UInt32.ofNat (min chunk (content.length - offset))⟩
  have hexchange : Gives (.obeying h) i (t, k)
      (Device.exchange i (.fileRead r) : Attempt ε Error Response) [.fileRead r]
      (.ok (t.read i r)) (t, k) := Device.gives_exchange (r := .fileRead r) rfl
  have hstart : r.offset.toNat = offset :=
    UInt32.toNat_ofNat_of_lt' (by show offset < 0x100000000; omega)
  have hcount : r.length.toNat = min chunk (content.length - offset) :=
    UInt32.toNat_ofNat_of_lt' (by show min chunk (content.length - offset) < 0x100000000; omega)
  have hread : t.read i r = if t.cannotRead (UInt32.ofNat offset)
      then Terminal.bare .executionError
      else ⟨.success, (content.drop offset).take (t.faults.readStep chunk)⟩ := by
    split
    case isTrue hfails => exact Terminal.read_failing hcontent hfails
    case isFalse hreadable =>
      rw [Terminal.read_eq hcontent (by simpa using hreadable) (by omega), hstart, hcount,
        Faults.readStep_min, ← List.length_drop, ← List.take_eq_take_min]
  rw [← hread]
  exact hexchange

/-- A read that brings something is followed by those from where it ended. -/
theorem gives_readFrom_step (hcontent : t.selectedContent i = some content)
    (hsize : content.length < 0x100000000) (hstep : step = t.faults.readStep chunk)
    (hpos : 0 < step) {offset : Nat} (hoffset : offset < content.length)
    (hreadable : t.cannotRead (UInt32.ofNat offset) = false) (pace : Pace) (past : List Bytes)
    (hrest : ∀ piece pace, piece = (content.drop offset).take step →
      Gives (.obeying h) i (t, k)
        (readFrom i chunk content.length report (offset + piece.length) pace (piece :: past)) rs
        result (t', k)) :
    Gives (.obeying h) i (t, k) (readFrom i chunk content.length report offset pace past)
      (readAt chunk content.length offset :: rs) result (t', k) := by
  have hread := gives_readAt (ε := ε) (h := h) (k := k) hcontent hsize hoffset chunk
  rw [if_neg (by simp [hreadable]), ← hstep] at hread
  let piece := (content.drop offset).take step
  have hlength : piece.length = min step (content.length - offset) := by
    rw [List.length_take, List.length_drop]
  have hfits : step ≤ chunk := hstep ▸ Faults.readStep_le
  have hkept : piece.take (min chunk (content.length - offset)) = piece :=
    List.take_of_length_le (by omega)
  rw [readFrom, dif_pos hoffset]
  refine hread.bind ?_
  show Gives _ _ _ (if _ : _ ∧ 0 < (piece.take _).length then _ else _) _ _ _
  rw [hkept, dif_pos ⟨rfl, by omega⟩]
  exact .report (hrest piece _ rfl)

/-- Reads from the start of a file that all bring something bring its front, step by step. -/
theorem gives_reads (hcontent : t.selectedContent i = some content)
    (hsize : content.length < 0x100000000) (hstep : step = t.faults.readStep chunk)
    (hpos : 0 < step) {n : Nat}
    (hreads : ∀ j < n, j * step < content.length ∧
      t.cannotRead (UInt32.ofNat (j * step)) = false) (pace : Pace)
    (hrest : ∀ pace past, past.reverse.flatten = content.take (n * step) →
      Gives (.obeying h) i (t, k)
        (readFrom i chunk content.length report (min (n * step) content.length) pace past) rs result
        (t', k)) :
    Gives (.obeying h) i (t, k) (readFrom i chunk content.length report 0 pace [])
      ((List.range n).map (fun j => readAt chunk content.length (j * step)) ++ rs) result
      (t', k) := by
  -- The induction is on the number of reads, the last of which is looked at first.
  induction n generalizing rs with
  | zero => simpa using hrest pace [] (by simp)
  | succ n ih =>
    obtain ⟨hwithin, hreadable⟩ := hreads n (Nat.lt_succ_self n)
    rw [List.range_succ, List.map_append, List.append_assoc]
    refine ih (fun j hj => hreads j (Nat.lt_succ_of_lt hj)) fun pace past hpast => ?_
    rw [Nat.min_eq_left (Nat.le_of_lt hwithin)]
    refine gives_readFrom_step hcontent hsize hstep hpos hwithin hreadable pace past ?_
    rintro piece pace rfl
    have hnext : n * step + ((content.drop (n * step)).take step).length =
        min ((n + 1) * step) content.length := by
      rw [List.length_take, List.length_drop, Nat.succ_mul]
      omega
    rw [hnext]
    refine hrest pace _ ?_
    rw [List.reverse_cons, List.flatten_append, hpast, List.flatten_singleton, Nat.succ_mul,
      List.take_add]

end Reads

/-- A download of a file that is there and not empty selects it and reads on from its start. -/
theorem gives_download_of_reads (hselectable : t.faults.failSelect.contains name = false)
    (hname : 0 < (textBytes name).length ∧ (textBytes name).length ≤ SelectRequest.maxName)
    {content : Bytes} (hfile : t.files.get? name = some content) (hsome : content ≠ [])
    (hsize : content.length < 0x80000000) {options : TransferOptions}
    (hchunk : 0 < options.maxChunk) {report : Share → ε} {rs : List Request}
    {result : Except Error Bytes} {selecting : Terminal}
    (hselecting : selecting = { t with selected := t.selected.set i (some name) })
    (hreads : selecting.selectedContent i = some content →
      Gives (.obeying h) i (selecting, k)
        (readFrom i options.maxChunk content.length report 0 (.start options.granularity) []) rs
        result (selecting, k)) :
    Gives (.obeying h) i (t, k) (download i name options report) (.fileSelect ⟨.read, name⟩ :: rs)
      result (selecting, k) := by
  have hselect := gives_selectForReading (ε := ε) (h := h) (k := k) (i := i) hselectable hname hfile
    hsize
  rw [if_neg hsome, ← hselecting] at hselect
  have hcontent : selecting.selectedContent i = some content := by
    rw [hselecting]
    simp [Terminal.selectedContent, hfile]
  rw [download, if_neg (Nat.ne_of_gt hchunk)]
  exact hselect.bind (hreads hcontent)

/-- A file is downloaded as it is, in pieces of the size that comes of one read. -/
theorem gives_download_of_readable (hselectable : t.faults.failSelect.contains name = false)
    (hname : 0 < (textBytes name).length ∧ (textBytes name).length ≤ SelectRequest.maxName)
    {content : Bytes} (hfile : t.files.get? name = some content) (hsome : content ≠ [])
    (hsize : content.length < 0x80000000) {options : TransferOptions} {step : Nat}
    (hstep : step = t.faults.readStep options.maxChunk) (hpos : 0 < step)
    (hreadable : ∀ j, j * step < content.length →
      t.cannotRead (UInt32.ofNat (j * step)) = false)
    (report : Share → ε) :
    Gives (.obeying h) i (t, k) (download i name options report)
      (.fileSelect ⟨.read, name⟩ ::
        (List.range (content.length ⌈/⌉ step)).map
          fun j => readAt options.maxChunk content.length (j * step))
      (.ok content) ({ t with selected := t.selected.set i (some name) }, k) := by
  have hchunk : 0 < options.maxChunk :=
    Nat.lt_of_lt_of_le (hstep ▸ hpos) Faults.readStep_le
  refine gives_download_of_reads hselectable hname hfile hsome hsize hchunk rfl fun hcontent => ?_
  rw [← List.append_nil (List.map ..)]
  refine gives_reads hcontent (by omega) hstep hpos ?_ _ fun pace past hpast => ?_
  · intro j hj
    have hwithin := (lt_ceilDiv_iff hpos).1 hj
    exact ⟨hwithin, hreadable j hwithin⟩
  · have hend := le_ceilDiv_mul (n := content.length) hpos
    rw [List.take_of_length_le hend] at hpast
    rw [Nat.min_eq_right hend, readFrom, dif_neg (Nat.lt_irrefl _), hpast]
    exact .report (.pure _)

/-- From a terminal that reads without faults it is downloaded in pieces of the size asked for. -/
theorem gives_download {unwritable : List String} (hfaults : t.faults = .unwritable unwritable)
    (hname : 0 < (textBytes name).length ∧ (textBytes name).length ≤ SelectRequest.maxName)
    {content : Bytes} (hfile : t.files.get? name = some content) (hsome : 0 < content.length)
    (hsize : content.length < 0x80000000) {options : TransferOptions}
    (hchunk : 0 < options.maxChunk) (report : Share → ε) :
    Gives (.obeying h) i (t, k) (download i name options report)
      (downloadRequests name options.maxChunk content.length
        (Bytes.pieces options.maxChunk content))
      (.ok content) ({ t with selected := t.selected.set i (some name) }, k) := by
  have hstep : options.maxChunk = t.faults.readStep options.maxChunk := by
    rw [hfaults]
    rfl
  have hselectable : t.faults.failSelect.contains name = false := by
    rw [hfaults]
    rfl
  have hreadable : ∀ offset, t.cannotRead offset = false := by
    intro offset
    rw [Terminal.cannotRead, hfaults]
    rfl
  have hdownload := gives_download_of_readable (h := h) (k := k) (i := i) hselectable hname hfile
    (List.length_pos_iff.1 hsome) hsize hstep hchunk (fun j _ => hreadable _) report
  simpa only [downloadRequests, readRequests_pieces hchunk, Nat.zero_add] using hdownload

/-! ## Uploads -/

theorem gives_selectForWriting (hselectable : t.faults.failSelect.contains name = false)
    (hname : 0 < (textBytes name).length ∧ (textBytes name).length ≤ SelectRequest.maxName) :
    Gives (.obeying h) i (t, k) (selectForWriting i name : Attempt ε Error Unit)
      [.fileSelect ⟨.truncate, name⟩] (.ok ())
      ({ t with
        files := t.files.put name []
        selected := t.selected.set i (some name) }, k) := by
  refine (gives_select .truncate hname (Terminal.select_truncate hselectable)).bind ?_
  refine (Device.gives_readBody (SelectReply.decode_bytes _)).bind ?_
  exact .pure ()

theorem gives_selectForWriting_refused (hrefused : t.faults.failSelect.contains name = true)
    (hname : 0 < (textBytes name).length ∧ (textBytes name).length ≤ SelectRequest.maxName) :
    Gives (.obeying h) i (t, k) (selectForWriting i name : Attempt ε Error Unit)
      [.fileSelect ⟨.truncate, name⟩] (.error (.fileCreateFailed name)) (t.deselect i, k) :=
  (gives_select .truncate hname (Terminal.select_refused (.inl hrefused))).bind (.throw _)

/-- A piece at the end of the selected file is appended to it. -/
theorem gives_writePiece (hwritable : t.faults.failWrite.contains name = false)
    (hselected : t.selected.get i = some name) {written : Bytes}
    (hfile : t.files.get? name = some written) (hsize : written.length < 0x100000000)
    (delayMs : UInt16) (piece : Bytes) :
    Gives (.obeying h) i (t, k)
      (writePiece i delayMs written.length piece : Attempt ε Error Unit)
      [.fileWrite ⟨UInt32.ofNat written.length, delayMs, piece⟩] (.ok ())
      ({ t with files := t.files.put name (written ++ piece) }, k) := by
  let r : WriteRequest := ⟨UInt32.ofNat written.length, delayMs, piece⟩
  have hoffset : r.offset.toNat = written.length := UInt32.toNat_ofNat_of_lt' hsize
  have hexchange : Gives (.obeying h) i (t, k)
      (Device.exchange i (.fileWrite r) : Attempt ε Error Response) [.fileWrite r]
      (.ok (t.write i r).1) ((t.write i r).2, k) := Device.gives_exchange (r := .fileWrite r) rfl
  rw [Terminal.write_eq hwritable hselected hfile hoffset] at hexchange
  exact hexchange.bind (.pure ())

/-- One that cannot be written is not. -/
theorem gives_writePiece_refused (hrefused : t.faults.failWrite.contains name = true)
    (hselected : t.selected.get i = some name) (delayMs : UInt16) (offset : Nat) (piece : Bytes) :
    Gives (.obeying h) i (t, k) (writePiece i delayMs offset piece : Attempt ε Error Unit)
      [.fileWrite ⟨UInt32.ofNat offset, delayMs, piece⟩] (.error (.transferFailed offset))
      (t, k) := by
  let r : WriteRequest := ⟨UInt32.ofNat offset, delayMs, piece⟩
  have hexchange : Gives (.obeying h) i (t, k)
      (Device.exchange i (.fileWrite r) : Attempt ε Error Response) [.fileWrite r]
      (.ok (t.write i r).1) ((t.write i r).2, k) := Device.gives_exchange (r := .fileWrite r) rfl
  rw [Terminal.write_refused hrefused hselected] at hexchange
  exact hexchange.bind (.throw _)

/-- The pieces of a content are written one behind the other. -/
theorem gives_writePieces (hselected : t.selected.get i = some name) {options : TransferOptions}
    (hchunk : 0 < options.maxChunk) (report : Nat → ε) (pace : Pace) (written content : Bytes)
    (hwritable : content ≠ [] → t.faults.failWrite.contains name = false)
    (hsize : written.length + content.length < 0x100000000) :
    Gives (.obeying h) i ({ t with files := t.files.put name written }, k)
      (writePieces i options report written.length pace (Bytes.pieces options.maxChunk content))
      (writeRequests options.delayMs written.length (Bytes.pieces options.maxChunk content))
      (.ok (written.length + content.length))
      ({ t with files := t.files.put name (written ++ content) }, k) := by
  induction content using Bytes.pieces_induction hchunk generalizing written pace with
  | nil =>
    rw [Bytes.pieces_nil, writePieces, List.append_nil]
    exact .report (.pure _)
  | step content hmore ih =>
    have htake : (content.take options.maxChunk).length +
        (content.drop options.maxChunk).length = content.length := by
      rw [← List.length_append, List.take_append_drop]
    rw [Bytes.pieces_of_ne_nil hchunk hmore, writePieces, if_neg (by omega)]
    let started : Terminal := { t with files := t.files.put name written }
    have hfile : started.files.get? name = some written := by simp [started]
    have hpiece := gives_writePiece (ε := ε) (h := h) (k := k) (t := started) (hwritable hmore)
      hselected hfile (by omega) options.delayMs (content.take options.maxChunk)
    rw [show started.files.put name _ = _ from FileStore.put_put ..] at hpiece
    refine hpiece.bind (.report ?_)
    have hrest := ih (pace.advance (content.take options.maxChunk).length)
      (written ++ content.take options.maxChunk) (fun _ => hwritable hmore)
      (by rw [List.length_append]; omega)
    rw [List.append_assoc, List.take_append_drop, List.length_append, Nat.add_assoc, htake]
      at hrest
    exact hrest

/-- A file is left with the content that was uploaded. -/
theorem gives_upload (hselectable : t.faults.failSelect.contains name = false)
    (hname : 0 < (textBytes name).length ∧ (textBytes name).length ≤ SelectRequest.maxName)
    {content : Bytes} (hwritable : content ≠ [] → t.faults.failWrite.contains name = false)
    (hsize : content.length < 0x100000000) {options : TransferOptions}
    (hchunk : 0 < options.maxChunk) (report : Nat → ε) :
    Gives (.obeying h) i (t, k) (upload content i name options report)
      (uploadRequests name options content) (.ok content.length)
      ({ t with
        files := t.files.put name content
        selected := t.selected.set i (some name) }, k) := by
  rw [upload, uploadRange, if_neg (Nat.ne_of_gt hchunk), if_neg (by omega), List.drop_zero,
    List.take_length]
  refine (gives_selectForWriting hselectable hname).bind ?_
  let selecting : Terminal := { t with selected := t.selected.set i (some name) }
  have hselected : selecting.selected.get i = some name := by simp [selecting]
  have hwritten := gives_writePieces (h := h) (k := k) hselected hchunk report
    (.start options.granularity) [] content hwritable (by simpa using hsize)
  simpa [selecting] using hwritten

end Transfer

end KeyInjection
