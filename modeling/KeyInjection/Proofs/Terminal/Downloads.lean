-- SUMMARY: What a download from a terminal with faults ends in, and after how many reads.
import KeyInjection.Proofs.Terminal.Keeping
import KeyInjection.Proofs.Terminal.Transfer

/-!
# Downloads from a terminal with faults

A terminal can be told to bring at most so many bytes at a time, and to fail reads from some offset
on. A download then goes through the file in steps of the smaller of its chunk and that number, and
so meets the offset at the first multiple of the step that is not below it: there it fails, unless
the file has ended before.
-/

namespace KeyInjection

variable {ε η : Type}

namespace Terminal

variable {t : Terminal}

theorem cannotRead_ofNat_iff {offset : Nat} (hoffset : offset < 0x100000000) :
    t.cannotRead (UInt32.ofNat offset) = true ↔
      ∃ o, t.faults.failReadAt = some o ∧ o.toNat ≤ offset := by
  unfold cannotRead
  cases t.faults.failReadAt with
  | none => simp
  | some o =>
    have hcast : (UInt32.ofNat offset).toNat = offset := UInt32.toNat_ofNat_of_lt' hoffset
    simp [UInt32.le_iff_toNat_le, hcast]

/-- Of the multiples of a step those before the first that is not below the offset can be read. -/
theorem cannotRead_before {o : UInt32} (hfault : t.faults.failReadAt = some o) {step j : Nat}
    (hpos : 0 < step) (hj : j < o.toNat ⌈/⌉ step) :
    t.cannotRead (UInt32.ofNat (j * step)) = false := by
  have hearlier := (lt_ceilDiv_iff hpos).1 hj
  have ho := o.toNat_lt
  rw [← Bool.not_eq_true, cannotRead_ofNat_iff (by omega)]
  rintro ⟨o', hfault', hreached⟩
  obtain rfl : o = o' := Option.some.inj (hfault.symm.trans hfault')
  omega

/-- If that one is not within the file, all that are can be read. -/
theorem cannotRead_within {step total j : Nat} (hpos : 0 < step)
    (hbeyond : ∀ o, t.faults.failReadAt = some o → total ≤ o.toNat ⌈/⌉ step * step)
    (htotal : total ≤ 0x100000000) (hwithin : j * step < total) :
    t.cannotRead (UInt32.ofNat (j * step)) = false := by
  rw [← Bool.not_eq_true, cannotRead_ofNat_iff (by omega)]
  rintro ⟨o, hfault, hreached⟩
  have hearly : o.toNat ⌈/⌉ step ≤ j := by
    rwa [ceilDiv_le_iff_le_mul hpos, Nat.mul_comm]
  have hbefore := Nat.mul_le_mul_right step hearly
  have := hbeyond o hfault
  omega

end Terminal

namespace Transfer

open Terminal

variable {h : KeyHost η} {t : Terminal} {k : η} {i : Interface} {name : String}
variable {options : TransferOptions} {report : Share → ε}

/-! ## Downloads that fail -/

/-- Without a file to select there is no read. -/
theorem gives_download_refused
    (hrefused : t.faults.failSelect.contains name = true ∨ t.files.get? name = none)
    (hname : 0 < (textBytes name).length ∧ (textBytes name).length ≤ SelectRequest.maxName)
    (hchunk : 0 < options.maxChunk) :
    Gives (.obeying h) i (t, k) (download i name options report) [.fileSelect ⟨.read, name⟩]
      (.error (.fileNotFound name)) (t.deselect i, k) := by
  rw [download, if_neg (Nat.ne_of_gt hchunk)]
  exact (gives_selectForReading_refused hrefused hname).bind_error

theorem gives_download_empty (hselectable : t.faults.failSelect.contains name = false)
    (hname : 0 < (textBytes name).length ∧ (textBytes name).length ≤ SelectRequest.maxName)
    (hfile : t.files.get? name = some []) (hchunk : 0 < options.maxChunk) :
    Gives (.obeying h) i (t, k) (download i name options report) [.fileSelect ⟨.read, name⟩]
      (.error (.emptyFile name)) ({ t with selected := t.selected.set i (some name) }, k) := by
  rw [download, if_neg (Nat.ne_of_gt hchunk)]
  exact (gives_selectForReading hselectable hname hfile (by decide)).bind_error

/-- A read that fails, or brings nothing, is the last. -/
theorem gives_readFrom_failed {content : Bytes} {chunk offset : Nat}
    (hcontent : t.selectedContent i = some content) (hsize : content.length < 0x100000000)
    (hoffset : offset < content.length)
    (hfails : t.cannotRead (UInt32.ofNat offset) = true ∨ t.faults.readStep chunk = 0) (pace : Pace)
    (past : List Bytes) :
    Gives (.obeying h) i (t, k) (readFrom i chunk content.length report offset pace past)
      [readAt chunk content.length offset] (.error (.transferFailed offset)) (t, k) := by
  rw [readFrom, dif_pos hoffset]
  refine (gives_readAt hcontent hsize hoffset chunk).bind ?_
  dsimp only
  rw [dif_neg]
  · exact .throw _
  · rintro ⟨hstatus, hsome⟩
    split at hsome
    case isTrue hfailed =>
      rw [if_pos hfailed] at hstatus
      cases hstatus
    case isFalse hreadable =>
      obtain hfailed | hnothing := hfails
      · exact hreadable hfailed
      · simp [hnothing] at hsome

/-- Reads that bring something up to one that fails. -/
theorem gives_download_failing (hselectable : t.faults.failSelect.contains name = false)
    (hname : 0 < (textBytes name).length ∧ (textBytes name).length ≤ SelectRequest.maxName)
    {content : Bytes} (hfile : t.files.get? name = some content)
    (hsize : content.length < 0x80000000) {step : Nat}
    (hstep : step = t.faults.readStep options.maxChunk) (hpos : 0 < step) {n : Nat}
    (hreadable : ∀ j < n, t.cannotRead (UInt32.ofNat (j * step)) = false)
    (hwithin : n * step < content.length)
    (hfails : t.cannotRead (UInt32.ofNat (n * step)) = true) :
    Gives (.obeying h) i (t, k) (download i name options report)
      (.fileSelect ⟨.read, name⟩ :: (List.range (n + 1)).map
        fun j => readAt options.maxChunk content.length (j * step))
      (.error (.transferFailed (n * step)))
      ({ t with selected := t.selected.set i (some name) }, k) := by
  have hchunk : 0 < options.maxChunk :=
    Nat.lt_of_lt_of_le (hstep ▸ hpos) Faults.readStep_le
  have hsome : content ≠ [] := List.length_pos_iff.1 (Nat.lt_of_le_of_lt (Nat.zero_le _) hwithin)
  refine gives_download_of_reads hselectable hname hfile hsome hsize hchunk rfl fun hcontent => ?_
  rw [List.range_succ, List.map_append]
  refine gives_reads hcontent (by omega) hstep hpos ?_ _ fun pace past _ => ?_
  · intro j hj
    have hearlier := Nat.mul_le_mul_right step (Nat.le_of_lt hj)
    exact ⟨Nat.lt_of_le_of_lt hearlier hwithin, hreadable j hj⟩
  · rw [Nat.min_eq_left (Nat.le_of_lt hwithin)]
    exact gives_readFrom_failed hcontent (by omega) hwithin (.inl hfails) pace past

/-- A terminal that brings nothing fails the first read. -/
theorem gives_download_stuck (hselectable : t.faults.failSelect.contains name = false)
    (hname : 0 < (textBytes name).length ∧ (textBytes name).length ≤ SelectRequest.maxName)
    {content : Bytes} (hfile : t.files.get? name = some content) (hsome : content ≠ [])
    (hsize : content.length < 0x80000000) (hchunk : 0 < options.maxChunk)
    (hnothing : t.faults.readStep options.maxChunk = 0) :
    Gives (.obeying h) i (t, k) (download i name options report)
      [.fileSelect ⟨.read, name⟩, readAt options.maxChunk content.length 0]
      (.error (.transferFailed 0)) ({ t with selected := t.selected.set i (some name) }, k) :=
  gives_download_of_reads hselectable hname hfile hsome hsize hchunk rfl fun hcontent =>
    gives_readFrom_failed hcontent (by omega) (List.length_pos_iff.2 hsome) (.inr hnothing) _ []

/-! ## Downloads -/

/-- Whatever the faults, a download changes no file, and nothing else but the selection on its own
interface, and the log. -/
theorem keepsRest_download (i : Interface) (name : String) (options : TransferOptions)
    (report : Share → ε) (h : KeyHost η) {l : TerminalLink} (hopen : l.closed = false) (k : η) :
    KeepsRest i [] l.terminal ((download i name options report).run.run
      (.of .inProcess h) (l, k)).state.1.terminal := by
  obtain ⟨pieces, hdownload, -⟩ := Downloads.of_leaves
    (leaves_run (.of .inProcess h) (download i name options report) (l, k))
  obtain ⟨total, brought, requests, hbegun, hsubmits⟩ := hdownload.submits_prefix
  have hkind : ∀ r ∈ requests, r.IsForFiles ∧ r.IsReadOnly := by
    intro r hr
    rcases List.mem_cons.1 (hbegun.subset hr) with rfl | hread
    · exact ⟨.select _, rfl⟩
    · obtain ⟨x, rfl⟩ := fileRead_of_mem_readRequests hread
      exact ⟨.read _, trivial⟩
  rw [Session.terminal_of_run_inProcess _ h hopen, ← commandsOf_talkOf, hsubmits.commands_eq]
  exact keepsRest_handleAll (fun r hr => (hkind r hr).1)
    (.of_files_eq (files_handleAll fun r hr => (hkind r hr).2))

/-- The commands of a download that makes so many reads of a file of `total` bytes, each `step`
bytes behind the one before. -/
def readingCommands (i : Interface) (name : String) (chunk total step reads : Nat) :
    List (Interface × Command) :=
  submissions i (.fileSelect ⟨.read, name⟩ ::
    (List.range reads).map fun j => readAt chunk total (j * step))

/-- A download over a channel in the same process, from a terminal with any faults. It changes no
file, and nothing else but the selection on its own interface, and the log. If the terminal does not
stop responding, what it ends in is known in advance, and so are the reads that it makes: they
follow each other in steps of the smaller of the chunk and the most that the terminal brings, up to
the end of the file or to the first step from which on reads fail. -/
theorem download_from_faulty (l : TerminalLink) (h : KeyHost η) (k : η) (i : Interface)
    {name : String}
    (hname : 0 < (textBytes name).length ∧ (textBytes name).length ≤ SelectRequest.maxName)
    (options : TransferOptions) (hchunk : 1 ≤ options.maxChunk) (report : Share → ε)
    (hopen : l.closed = false) :
    let t := l.terminal
    let out := (download i name options report).run.run (.of .inProcess h) (l, k)
    let left := out.state.1.terminal
    let step := t.faults.readStep options.maxChunk
    let ends := fun (result : Except Error Bytes) (selected : Option String) (total reads : Nat) =>
      out.value = result ∧ left.selected.get i = selected ∧
        commandsOf out.steps = readingCommands i name options.maxChunk total step reads
    KeepsRest i [] t left ∧
    (t.faults.dropResponsesAfter = none →
      (name ∈ t.faults.failSelect ∨ t.files.get? name = none →
        ends (.error (.fileNotFound name)) none 0 0) ∧
      ∀ content, name ∉ t.faults.failSelect → t.files.get? name = some content →
        content.length < 0x80000000 →
        (content = [] → ends (.error (.emptyFile name)) (some name) 0 0) ∧
        (content ≠ [] → t.faults.maxRead = some 0 →
          ends (.error (.transferFailed 0)) (some name) content.length 1) ∧
        (content ≠ [] → t.faults.maxRead ≠ some 0 →
          (∀ o, t.faults.failReadAt = some o → o.toNat ⌈/⌉ step * step < content.length →
            ends (.error (.transferFailed (o.toNat ⌈/⌉ step * step))) (some name) content.length
              (o.toNat ⌈/⌉ step + 1)) ∧
          ((∀ o, t.faults.failReadAt = some o → content.length ≤ o.toNat ⌈/⌉ step * step) →
            ends (.ok content) (some name) content.length (content.length ⌈/⌉ step)))) := by
  intro t out left step ends
  refine ⟨keepsRest_download i name options report h hopen k, fun hunlimited => ?_⟩
  have hends : ∀ {result selected total reads} {t' : Terminal},
      Gives (.obeying h) i (t, k) (download i name options report)
        (.fileSelect ⟨.read, name⟩ ::
          (List.range reads).map fun j => readAt options.maxChunk total (j * step))
        result (t', k) → t'.selected.get i = selected → ends result selected total reads := by
    intro result selected total reads t' hgives hselected
    obtain ⟨hvalue, hsent, log, hleft⟩ := hgives.run_inProcess hopen hunlimited
    refine ⟨hvalue, ?_, hsent⟩
    show out.state.1.terminal.selected.get i = selected
    rw [hleft]
    exact hselected
  constructor
  · intro hrefused
    exact hends (gives_download_refused (by simpa using hrefused) hname hchunk) (by simp [deselect])
  intro content hselectable hfile hsize
  have hselectable : t.faults.failSelect.contains name = false := by simpa using hselectable
  have hselected : (t.selected.set i (some name)).get i = some name := by simp
  refine ⟨?_, ?_, ?_⟩
  · rintro rfl
    exact hends (gives_download_empty hselectable hname hfile hchunk) hselected
  · intro hsome hnothing
    have hstuck : step = 0 :=
      Nat.eq_zero_of_not_pos fun hpos => (Faults.readStep_pos_iff hchunk).1 hpos hnothing
    have hgives : Gives (.obeying h) i (t, k) (download i name options report) _ _ _ :=
      gives_download_stuck hselectable hname hfile hsome hsize hchunk hstuck
    have hfirst : [readAt options.maxChunk content.length 0] =
        (List.range 1).map fun j => readAt options.maxChunk content.length (j * step) := by
      simp [List.range_succ]
    rw [hfirst] at hgives
    exact hends hgives hselected
  · intro hsome hmost
    have hpos : 0 < step := (Faults.readStep_pos_iff hchunk).2 hmost
    constructor
    · intro o hfault hwithin
      have hreached : t.cannotRead (UInt32.ofNat (o.toNat ⌈/⌉ step * step)) = true :=
        (cannotRead_ofNat_iff (by omega)).2 ⟨o, hfault, le_ceilDiv_mul hpos⟩
      exact hends (gives_download_failing hselectable hname hfile hsize rfl hpos
        (fun j hj => cannotRead_before hfault hpos hj) hwithin hreached) hselected
    · intro hbeyond
      exact hends (gives_download_of_readable hselectable hname hfile hsome hsize rfl hpos
        (fun j hwithin => cannotRead_within hpos hbeyond (by omega) hwithin) report) hselected

/-- A file of ten bytes, read four at a time from a terminal that brings three at most and fails
reads from the fifth byte on. -/
theorem download_from_faulty_capped :
    let content : Bytes := [0, 1, 2, 3, 4, 5, 6, 7, 8, 9]
    let link : TerminalLink :=
      { terminal :=
          { files := .ofList [("log", content)]
            faults := { maxRead := some 3, failReadAt := some 5 } } }
    let out := (download .secondary "log" ⟨4, 0, 0⟩ id).run.run (.of .inProcess .scripted)
      (link, .ofScript .unreachable)
    (0 < (textBytes "log").length ∧ (textBytes "log").length ≤ SelectRequest.maxName) ∧
      link.closed = false ∧ out.value = .error (.transferFailed 6) ∧
      out.state.1.terminal.selected.get .secondary = some "log" ∧
      commandsOf out.steps = readingCommands .secondary "log" 4 10 3 3 := by
  intro content link
  dsimp only
  have hname : 0 < (textBytes "log").length ∧ (textBytes "log").length ≤ SelectRequest.maxName := by
    decide +kernel
  obtain ⟨-, hclosed⟩ := download_from_faulty link .scripted (.ofScript .unreachable) .secondary
    hname ⟨4, 0, 0⟩ (by decide) (id : Share → Share) rfl
  obtain ⟨-, hfile⟩ := hclosed rfl
  obtain ⟨-, -, hreads⟩ := hfile content (by decide) rfl (by decide)
  obtain ⟨hfails, -⟩ := hreads (by decide) (by decide)
  have hstop : (5 : UInt32).toNat ⌈/⌉ link.terminal.faults.readStep 4 = 2 := by decide
  obtain ⟨hvalue, hselected, hreads⟩ := hfails 5 rfl (by decide)
  rw [hstop] at hvalue hreads
  exact ⟨hname, rfl, hvalue, hselected, hreads⟩

end Transfer

end KeyInjection
