-- SUMMARY: What an upload to a terminal with faults leaves in the file, wherever it ends.
import KeyInjection.Proofs.Terminal.Interruption
import KeyInjection.Proofs.Terminal.Keeping
import KeyInjection.Proofs.Terminal.Transfer
import KeyInjection.Proofs.Transfer.Sources
import KeyInjection.Proofs.Transfer.Upload

/-!
# Uploads to a terminal with faults

An upload is its requests, and the first of its requests are an upload of the front of its content
(`take_uploadRequests`). So a terminal that stops responding in between is left with such a front,
cut after as many pieces as there were writes.
-/

namespace KeyInjection.Transfer

open Terminal

variable {ε η : Type} {h : KeyHost η} {t : Terminal} {k : η} {i : Interface} {name : String}
variable {options : TransferOptions} {report : Nat → ε} {content : Bytes}

/-! ## Uploads of one content -/

/-- The session uploads this content, from a part of a buffer, or from a source with a buffer for
its pieces. -/
inductive Uploading (i : Interface) (name : String) (options : TransferOptions) (report : Nat → ε)
    (content : Bytes) : Session ε (Option (Except Error Nat)) → Prop where
  | buffer {data : Bytes} {offset length : Nat} (hrange : offset + length ≤ data.length)
      (hcontent : (data.drop offset).take length = content) :
      Uploading i name options report content
        (some <$> (uploadRange data offset length i name options report).run)
  | source {τ : Type} {src : ByteSource τ} {s : τ} (hdelivers : src.Delivers s content)
      (hbuffer : options.maxChunk ≤ maxBuffer) :
      Uploading i name options report content
        (Prod.fst <$> uploadFrom src s i name options report)

/-- It is no other than that for a buffer with just this content. -/
theorem Uploading.eq_upload {p : Session ε (Option (Except Error Nat))}
    (hp : Uploading i name options report content p) :
    p = some <$> (upload content i name options report).run := by
  cases hp with
  | buffer hrange hcontent =>
    subst hcontent
    congr 1
    unfold upload uploadRange
    by_cases hchunk : options.maxChunk = 0
    · rw [if_pos hchunk, if_pos hchunk]
      rfl
    · rw [if_neg hchunk, if_neg hchunk, if_neg (Nat.not_lt.2 hrange), if_neg (by omega),
        List.drop_zero, List.take_length]
  | source hdelivers hbuffer =>
    refine uploadFrom_eq_uploadRange (Nat.le_of_eq (Nat.zero_add _)) hbuffer ?_ name
    rwa [List.drop_zero, List.take_length]

/-! ## Uploads that fail -/

/-- Without a file to select nothing is written. -/
theorem gives_upload_refused (hrefused : t.faults.failSelect.contains name = true)
    (hname : 0 < (textBytes name).length ∧ (textBytes name).length ≤ SelectRequest.maxName)
    (hchunk : 0 < options.maxChunk) :
    Gives (.obeying h) i (t, k) (upload content i name options report)
      [.fileSelect ⟨.truncate, name⟩] (.error (.fileCreateFailed name)) (t.deselect i, k) := by
  rw [upload, uploadRange, if_neg (Nat.ne_of_gt hchunk), if_neg (by omega)]
  exact (gives_selectForWriting_refused hrefused hname).bind_error

/-- A file that cannot be written is empty once it is selected. -/
theorem gives_upload_unwritable (hselectable : t.faults.failSelect.contains name = false)
    (hrefused : t.faults.failWrite.contains name = true)
    (hname : 0 < (textBytes name).length ∧ (textBytes name).length ≤ SelectRequest.maxName)
    (hsome : content ≠ []) (hchunk : 0 < options.maxChunk) :
    Gives (.obeying h) i (t, k) (upload content i name options report)
      [.fileSelect ⟨.truncate, name⟩,
        .fileWrite ⟨UInt32.ofNat 0, options.delayMs, content.take options.maxChunk⟩]
      (.error (.transferFailed 0))
      ({ t with
        files := t.files.put name []
        selected := t.selected.set i (some name) }, k) := by
  rw [upload, uploadRange, if_neg (Nat.ne_of_gt hchunk), if_neg (by omega), List.drop_zero,
    List.take_length]
  refine (gives_selectForWriting hselectable hname).bind ?_
  dsimp only
  rw [Bytes.pieces_of_ne_nil hchunk hsome, writePieces, if_neg (by decide)]
  let selecting : Terminal :=
    { t with files := t.files.put name [], selected := t.selected.set i (some name) }
  have hselected : selecting.selected.get i = some name := by simp [selecting]
  exact (gives_writePiece_refused (t := selecting) hrefused hselected options.delayMs 0
    _).bind_error

/-! ## Uploads cut off -/

/-- The first requests of an upload leave the file with the front of the content. -/
theorem get?_handleAll_take (hunlimited : t.faults.dropResponsesAfter = none)
    (hselectable : t.faults.failSelect.contains name = false)
    (hname : 0 < (textBytes name).length ∧ (textBytes name).length ≤ SelectRequest.maxName)
    (hwritable : content ≠ [] → t.faults.failWrite.contains name = false)
    (hsize : content.length < 0x100000000) (hchunk : 0 < options.maxChunk) (m : Nat) :
    (t.handleAll (submissions i ((uploadRequests name options content).take (m + 1)))).files.get?
      name = some (content.take (m * options.maxChunk)) := by
  have hfront : content.take (m * options.maxChunk) ≠ [] → content ≠ [] := by
    rintro hsome rfl
    exact hsome List.take_nil
  have hgives := gives_upload (h := .scripted) (k := .ofScript .unreachable) (i := i) hselectable
    hname (fun hsome => hwritable (hfront hsome))
    (Nat.lt_of_le_of_lt (List.length_take_le' ..) hsize) hchunk id
  obtain ⟨log, hleft⟩ := hgives.handleAll hunlimited
  rw [take_uploadRequests name hchunk, hleft]
  exact (FileStore.get?_put ..).trans (if_pos rfl)

/-- An upload to a terminal that stops responding before it is through times out, and its first
commands are all that the terminal handles. -/
theorem run_upload_withLimit (hunlimited : t.faults.dropResponsesAfter = none)
    (hselectable : t.faults.failSelect.contains name = false)
    (hname : 0 < (textBytes name).length ∧ (textBytes name).length ≤ SelectRequest.maxName)
    (hwritable : content ≠ [] → t.faults.failWrite.contains name = false)
    (hsize : content.length < 0x100000000) (hchunk : 0 < options.maxChunk) (report : Nat → ε)
    (h : KeyHost η) (k : η) {limit j : Nat} (hlimit : limit - t.commands.size = j)
    (hcut : j < 1 + content.length ⌈/⌉ options.maxChunk) :
    let cut := (upload content i name options report).run.run (.handling h) (t.withLimit limit, k)
    cut.value = .error .requestTimeout ∧
      cut.state.1 = (t.handleAll (submissions i ((uploadRequests name options content).take j))
        ).withLimit limit := by
  intro cut
  have hencodes : ∀ r ∈ uploadRequests name options content, ∃ c, r.command = .ok c :=
    exists_command_uploadRequests hname
  obtain ⟨-, hsent, -⟩ := (gives_upload (h := h) (k := k) (i := i) hselectable hname hwritable
    hsize hchunk report).run_handling hunlimited
  have hlength : j < (commandsOf ((upload content i name options report).run.run (.handling h)
      (t, k)).steps).length := by
    rw [hsent, length_submissions hencodes, length_uploadRequests name hchunk]
    exact hcut
  obtain ⟨hleft, m, hanswers⟩ := Session.run_withLimit_of_lt
    (upload content i name options report).run h hunlimited k hlimit hlength
  constructor
  · obtain ⟨c, hcode⟩ := exists_command_fileSelect .truncate hname
    have hupload := Uploads.of_leaves (leaves_run (.handling h)
      (upload content i name options report) (t.withLimit limit, k))
    refine hupload.error_of_answer hchunk (Nat.le_of_lt hsize) hcode ?_
    rw [answersOf_talkOf, hanswers]
    exact List.mem_append_right _ (List.mem_replicate.2 ⟨Nat.succ_ne_zero m, rfl⟩)
  · rw [hsent, take_submissions hencodes] at hleft
    exact hleft

/-! ## Uploads -/

/-- Whatever the faults, an upload changes no file but its own, and nothing else but the selection
on its own interface, and the log. -/
theorem keepsRest_upload (i : Interface)
    (hname : 0 < (textBytes name).length ∧ (textBytes name).length ≤ SelectRequest.maxName)
    (options : TransferOptions) (content : Bytes) (report : Nat → ε) (h : KeyHost η)
    {l : TerminalLink} (hopen : l.closed = false) (k : η) :
    KeepsRest i [name] l.terminal ((upload content i name options report).run.run
      (.of .inProcess h) (l, k)).state.1.terminal := by
  have hupload := Uploads.of_leaves (leaves_run (.of .inProcess h)
    (upload content i name options report) (l, k))
  obtain ⟨requests, hbegun, hsubmits⟩ := hupload.submits_prefix
  have hkind : ∀ r ∈ requests, r.IsForFiles := by
    intro r hr
    rcases List.mem_cons.1 (hbegun.subset hr) with rfl | hwrite
    · exact .select _
    · obtain ⟨x, rfl⟩ := fileWrite_of_mem_writeRequests hwrite
      exact .write x
  rw [Session.terminal_of_run_inProcess _ h hopen, ← commandsOf_talkOf, hsubmits.commands_eq]
  exact keepsRest_handleAll hkind (keepsOutside_upload hname hbegun)

/-- An upload over a channel in the same process, to a terminal with any faults, from a buffer or
from a source with a buffer for its pieces. It changes no file but its own, and nothing else but the
selection on its own interface, and the log. If the terminal does not stop responding, it fails if
the file cannot be selected, and then changes no file, or if it cannot be written, and then leaves
it empty; otherwise the file is left with just the content that was uploaded, and the log has one
more record for the selection and each piece. If the terminal stops responding before that, the
upload times out, and the file is left as it was, or once it has been selected with as many pieces
as were written. -/
theorem upload_to_faulty (l : TerminalLink) (h : KeyHost η) (k : η) (i : Interface)
    {name : String}
    (hname : 0 < (textBytes name).length ∧ (textBytes name).length ≤ SelectRequest.maxName)
    (options : TransferOptions) (hchunk : 1 ≤ options.maxChunk) (report : Nat → ε)
    {content : Bytes} (hsize : content.length < 0x100000000)
    {p : Session ε (Option (Except Error Nat))}
    (hp : Uploading i name options report content p) (hopen : l.closed = false) :
    let t := l.terminal
    let out := p.run (.of .inProcess h) (l, k)
    let left := out.state.1.terminal
    let pieces := content.length ⌈/⌉ options.maxChunk
    let blocked := name ∈ t.faults.failWrite ∧ content ≠ []
    KeepsRest i [name] t left ∧
    (t.faults.dropResponsesAfter = none →
      (name ∈ t.faults.failSelect →
        out.value = some (.error (.fileCreateFailed name)) ∧ left.files = t.files) ∧
      (name ∉ t.faults.failSelect → blocked →
        out.value = some (.error (.transferFailed 0)) ∧ left.files.get? name = some []) ∧
      (name ∉ t.faults.failSelect → ¬ blocked →
        out.value = some (.ok content.length) ∧ left.files.get? name = some content ∧
          ∃ records, records.length = 1 + pieces ∧
            left.commands.toList = t.commands.toList ++ records)) ∧
    ∀ limit, t.faults.dropResponsesAfter = some limit → name ∉ t.faults.failSelect → ¬ blocked →
      ∀ j, limit - t.commands.size = j → j < 1 + pieces →
        out.value = some (.error .requestTimeout) ∧
          (j = 0 → left.files = t.files) ∧
          (1 ≤ j → left.files.get? name =
            some (content.take (min ((j - 1) * options.maxChunk) content.length))) := by
  obtain rfl := hp.eq_upload
  rw [Session.run_map]
  intro t out left pieces blocked
  have hwritable : ¬ blocked → content ≠ [] → t.faults.failWrite.contains name = false := by
    intro hfree hsome
    simpa [blocked, hsome] using hfree
  refine ⟨keepsRest_upload i hname options content report h hopen k, ?_, ?_⟩
  · intro hunlimited
    refine ⟨?_, ?_, ?_⟩
    · intro hrefused
      obtain ⟨hvalue, -, log, hleft⟩ := (gives_upload_refused (by simpa using hrefused) hname
        hchunk).run_inProcess hopen hunlimited
      refine ⟨congrArg some hvalue, ?_⟩
      show out.state.1.terminal.files = t.files
      rw [hleft]
      rfl
    · rintro hselectable ⟨hrefused, hsome⟩
      obtain ⟨hvalue, -, log, hleft⟩ := (gives_upload_unwritable (by simpa using hselectable)
        (by simpa using hrefused) hname hsome hchunk).run_inProcess hopen hunlimited
      exact ⟨congrArg some hvalue, (congrArg (·.files.get? name) hleft).trans (by simp [withLog])⟩
    · intro hselectable hfree
      obtain ⟨hvalue, hsent, log, hleft⟩ := (gives_upload (by simpa using hselectable) hname
        (hwritable hfree) hsize hchunk report).run_inProcess hopen hunlimited
      obtain ⟨records, hlength, hlog⟩ := handleAll_commands hunlimited (commandsOf out.steps)
      refine ⟨congrArg some hvalue, (congrArg (·.files.get? name) hleft).trans (by simp [withLog]),
        records, ?_, ?_⟩
      · rw [hlength, hsent, length_submissions (exists_command_uploadRequests hname),
          length_uploadRequests name hchunk]
      · rw [← hlog, ← Session.terminal_of_run_inProcess _ h hopen]
  · intro limit hlimited hselectable hfree j hj hcut
    -- Without its limit the terminal would respond to everything.
    let endless : Terminal := { t with faults := { t.faults with dropResponsesAfter := none } }
    have hlimit : t = endless.withLimit limit := by
      rw [withLimit, ← hlimited]
    have hselectable : endless.faults.failSelect.contains name = false := by
      simpa [endless] using hselectable
    obtain ⟨hcutValue, hcutLeft⟩ := run_upload_withLimit (t := endless) (i := i) rfl hselectable
      hname (hwritable hfree) hsize hchunk report h k hj hcut
    obtain ⟨hvalue, -, ⟨-, hleft⟩, -⟩ :=
      Session.run_inProcess_handling (upload content i name options report).run h hopen k
    rw [show l.terminal = endless.withLimit limit from hlimit] at hvalue hleft
    refine ⟨congrArg some (hvalue.trans hcutValue), ?_, ?_⟩
    · rintro rfl
      show out.state.1.terminal.files = t.files
      rw [hleft, hcutLeft]
      rfl
    · intro hsome
      obtain ⟨m, rfl⟩ : ∃ m, j = m + 1 := ⟨j - 1, (Nat.sub_add_cancel hsome).symm⟩
      have hfront := get?_handleAll_take (t := endless) (i := i) rfl hselectable hname
        (hwritable hfree) hsize hchunk m
      rw [Nat.add_sub_cancel, ← List.take_eq_take_min, ← hfront]
      show out.state.1.terminal.files.get? name = _
      rw [hleft, hcutLeft]
      rfl

/-- Five bytes from a source, written two at a time to a terminal that stops responding after two
commands: of the old content nothing is left, and of the new one what the first write brought. -/
theorem upload_to_faulty_cut :
    let content : Bytes := [1, 2, 3, 4, 5]
    let link : TerminalLink :=
      { terminal :=
          { files := .ofList [("key", [9, 9, 9])]
            faults := { dropResponsesAfter := some 2 } } }
    let p := Prod.fst <$> uploadFrom .dealing [[1], [2, 3], [4, 5]] .primary "key" ⟨2, 0, 0⟩ id
    let out := p.run (.of .inProcess .scripted) (link, .ofScript .unreachable)
    (0 < (textBytes "key").length ∧ (textBytes "key").length ≤ SelectRequest.maxName) ∧
      Uploading .primary "key" ⟨2, 0, 0⟩ id content p ∧ link.closed = false ∧
      out.value = some (.error .requestTimeout) ∧
      out.state.1.terminal.files.get? "key" = some [1, 2] := by
  intro content link p out
  have hname : 0 < (textBytes "key").length ∧ (textBytes "key").length ≤ SelectRequest.maxName := by
    decide +kernel
  have hdelivers : ByteSource.dealing.Delivers [[1], [2, 3], [4, 5]] content :=
    ByteSource.delivers_dealing (by decide)
  have hp : Uploading .primary "key" ⟨2, 0, 0⟩ id content p := .source hdelivers (by decide)
  obtain ⟨-, -, hcut⟩ := upload_to_faulty link .scripted (.ofScript .unreachable) .primary hname
    ⟨2, 0, 0⟩ (by decide) id (by decide) hp rfl
  obtain ⟨hvalue, -, hfront⟩ := hcut 2 rfl (by decide) (by decide) 2 rfl (by decide)
  exact ⟨hname, hp, rfl, hvalue, hfront (by decide)⟩

/-- If no buffer has room for a piece, an upload of the same bytes to a terminal without faults
panics, and leaves the file empty. -/
theorem upload_to_faulty_unbuffered :
    let pieces : List Bytes := [[1], [2, 3], [4, 5]]
    let content : Bytes := [1, 2, 3, 4, 5]
    let options : TransferOptions := ⟨0x8000000000000000, 0, 0⟩
    let link : TerminalLink := { terminal := { files := .ofList [("key", [9, 9, 9])] } }
    let p := Prod.fst <$> uploadFrom .dealing pieces .primary "key" options id
    let out := p.run (.of .inProcess .scripted) (link, .ofScript .unreachable)
    let left := out.state.1.terminal
    (0 < (textBytes "key").length ∧ (textBytes "key").length ≤ SelectRequest.maxName) ∧
      ByteSource.dealing.Delivers pieces content ∧ 1 ≤ options.maxChunk ∧
      link.closed = false ∧ link.terminal.faults = {} ∧
      (out.value = none ∧ left.files.get? "key" = some []) ∧
      ¬ (out.value = some (.ok content.length) ∧ left.files.get? "key" = some content) := by
  intro pieces content options link p out left
  have hname : 0 < (textBytes "key").length ∧ (textBytes "key").length ≤ SelectRequest.maxName := by
    decide +kernel
  have hdelivers : ByteSource.dealing.Delivers pieces content :=
    ByteSource.delivers_dealing (by decide)
  have hvalue : out.value = none := by rfl
  have hleft : left.files.get? "key" = some [] := by rfl
  refine ⟨hname, hdelivers, by decide, rfl, rfl, ⟨hvalue, hleft⟩, ?_⟩
  rintro ⟨hok, -⟩
  rw [hvalue] at hok
  cases hok

end KeyInjection.Transfer
