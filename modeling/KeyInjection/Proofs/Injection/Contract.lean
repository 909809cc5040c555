-- SUMMARY: What an injection guarantees, whatever the terminal and the key host do.
import KeyInjection.Proofs.Injection.Unwritable

/-!
# The contract of an injection

Nothing is assumed of the terminal, of the connection to it, or of the key host. An injection that
reports success has gone through all its phases; one that fails has gone through those before the
failed one, and its failure is that of the phase. Channel and key host are recording ones, so that
what is said of commands and requests is said of what they were handed.
-/

namespace KeyInjection.Injection

open Device Transfer

variable {σ η : Type}

/-- The talk of a run of an injection is a run through its phases. -/
theorem runs_of_inject (w : Surroundings σ) (cfg : Config) (url : String) (s : σ) :
    let out := (inject cfg url).run w s
    ∃ text pieces response content report,
      Runs cfg url (order cfg text pieces response content report) (talkOf out.steps)
          (out.value.map fun _ => ()) ∧
        ∀ result, out.value = .ok result → result = report := by
  intro out
  obtain ⟨text, pieces, response, content, report, parts, hrecord, hnarrates, hreport⟩ :=
    narrates_of_inject w cfg url s
  refine ⟨text, pieces, response, content, report, ?_, hreport⟩
  have htalk : talkOf out.steps = talkOf (recordOf parts) := by
    rw [hrecord]
    simp [talkOf, Step.isTalk]
  have horder : order cfg text pieces response content report =
      (chapters cfg text pieces response content report).flatMap (·.2) := by
    simp [order, chapters]
  rw [htalk, horder]
  exact hnarrates.runs

/-- An injection succeeds only by going through all its phases in order. The channel was handed
just the commands of their requests, all for the configured interface: of prompts those that are
not too long, and all of them are unless prompts may fail; of each bootstrap file a selection and
reads that lead from one accepted piece to the next through a file that is not empty; of each key
file a selection and writes of pieces that make up what was derived for it. The key host was asked
once, for the texts that were read. The state reported is the one told last, by a terminal that has
left key injection mode and has a key in place. -/
theorem inject_ok (ch : Channel σ) (h : KeyHost η) (cfg : Config) (url : String) (s : σ) (k : η)
    (report : Report)
    (hok : ((inject cfg url).run (.of ch.recording h.recording) ((s, []), (k, []))).value
      = .ok report) :
    let out := (inject cfg url).run (.of ch.recording h.recording) ((s, []), (k, []))
    ∃ (text : String → String) (pieces : String → List Bytes) (response : ProvisioningResponse)
        (content : String → Bytes),
      let phases := order cfg text pieces response content report
      let requests := phases.flatMap (·.requests cfg)
      Runs cfg url phases (talkOf out.steps) (.ok ()) ∧
        out.state.1.2 = submissions cfg.interface requests ∧
        (∀ x ∈ out.state.1.2, x.1 = cfg.interface) ∧
        out.state.2.2 = [(url, (requestOf text).body)] ∧
        (∀ r ∈ requests, IsEncodable r) ∧
        (∀ prompt ∈ [cfg.prompts.preparing, cfg.prompts.connecting, cfg.prompts.received],
          DisplayRequest.maxText < (textBytes prompt).length → cfg.policy = .bestEffort) ∧
        (∀ file ∈ bootstrapFiles, (pieces file).flatten = textBytes (text file) ∧
          0 < (pieces file).flatten.length ∧ [] ∉ pieces file) ∧
        (∀ key ∈ keyFields, key.derive response = .ok ⟨key.name, content key.name⟩) ∧
        (∀ file ∈ keyFiles,
          (Bytes.pieces cfg.upload.maxChunk (content file)).flatten = content file) ∧
        report.state.initialised = false ∧ report.state.anyKeyReady = true := by
  intro out
  obtain ⟨text, pieces, response, content, report', hruns, hreport⟩ :=
    runs_of_inject (.of ch.recording h.recording) cfg url ((s, []), (k, []))
  obtain rfl := hreport report hok
  rw [hok] at hruns
  obtain ⟨hcommands, hposts⟩ := hruns.says
  obtain ⟨-, hsent, hposted⟩ := Session.recorded_eq (inject cfg url) ch h s k
  have hsubmitted : out.state.1.2 = submissions cfg.interface
      ((order cfg text pieces response content report).flatMap (·.requests cfg)) := by
    rw [hsent, ← commandsOf_talkOf, hcommands]
  refine ⟨text, pieces, response, content, hruns, hsubmitted, ?_, ?_, ?_, ?_, ?_, ?_, ?_, ?_⟩
  · intro x hx
    exact interface_of_mem_submissions (hsubmitted ▸ hx)
  · rw [hposted, ← postsOf_talkOf, hposts]
    rfl
  · exact fun r => isEncodable_of_mem_requests (List.Subset.refl _)
  · intro prompt hprompt hlong
    obtain ⟨part, r, hshows, hr⟩ := hruns.passes_of_mem (prompt_mem_order hprompt)
    rcases hr with rfl | hpolicy
    · exact absurd (exists_command_prompt_iff.1 hshows.exists_command) (Nat.not_le.2 hlong)
    · exact hpolicy
  · intro file hfile
    obtain ⟨part, hpart, htext⟩ := hruns.passes_of_mem (download_mem_order hfile)
    exact ⟨htext, hpart.nonempty⟩
  · have hderive : Phase.derive response content ∈
        order cfg text pieces response content report := by simp [order, keyPhases]
    obtain ⟨part, -, hcontent⟩ := hruns.passes_of_mem hderive
    exact hcontent
  · intro file hfile
    obtain ⟨part, hpart⟩ := hruns.passes_of_mem (upload_mem_order hfile)
    exact Bytes.flatten_pieces (Uploads.chunk_pos hpart) _
  · have hconfirm : Phase.confirm report.state ∈
        order cfg text pieces response content report := by simp [order, endPhases]
    obtain ⟨part, -, hstate⟩ := hruns.passes_of_mem hconfirm
    exact hstate

/-- A seeded terminal, and the usual answer of the scripted key host. -/
theorem inject_ok_seeded :
    let out := (inject {} "").run (.of Channel.inProcess.recording KeyHost.scripted.recording)
      ((seededLink, []), (ScriptedHost.ofScript ScriptedHost.success, []))
    out.value = .ok .healthy ∧ ∃ text pieces response content,
      Runs {} "" (order {} text pieces response content .healthy) (talkOf out.steps) (.ok ()) ∧
        out.state.1.2 = submissions .primary
          ((order {} text pieces response content .healthy).flatMap (·.requests {})) := by
  obtain ⟨hvalue, -⟩ := Session.recorded_eq (inject {} "") Channel.inProcess KeyHost.scripted
    seededLink (ScriptedHost.ofScript ScriptedHost.success)
  have hhost := post_scripted (k := ScriptedHost.ofScript ScriptedHost.success) rfl ""
    (requestOf seededText)
  have hok := hvalue.trans (run_inject_inProcess rfl healthy_seeded hhost ofBytes_success).1
  obtain ⟨text, pieces, response, content, hruns, hsent, -⟩ :=
    inject_ok Channel.inProcess KeyHost.scripted {} "" seededLink
      (ScriptedHost.ofScript ScriptedHost.success) .healthy hok
  exact ⟨hok, text, pieces, response, content, hruns, hsent⟩

/-! ## Failures -/

/-- A failure of the terminal's state is one that no operation failed with. -/
theorem Failure.kind_eq_state_iff (f : Failure) :
    f.kind = .state ↔
      f ∈ [.initialiseNotConfirmed, .unexpectedlyStillInitialised, .noKeyReady] := by
  have hsource : ∀ e : Error, e.kind ≠ .state := by
    intro e
    cases e <;> intro hkind <;> cases hkind
  cases f with
  | initialiseNotConfirmed | unexpectedlyStillInitialised | noKeyReady => simp [kind, source?]
  | displayFailed e | initialiseFailed e | bootstrapDownloadFailed _ e | host e
  | keyDecodeFailed _ e | uploadFailed _ e | importFailed e | statusUnavailable e =>
    simp [kind, source?, hsource]

/-- An injection that fails has gone through the phases before one that failed, and its failure is
that phase's. Nothing is submitted or posted after it: the channel was handed the commands of the
phases before, then some of those that the failed phase begins with, and the key host was asked
only if its phase was reached. The failure is of the kind of the operation's failure, if one
failed, and else of the kind that tells a wrong state of the terminal. -/
theorem inject_error (ch : Channel σ) (h : KeyHost η) (cfg : Config) (url : String) (s : σ) (k : η)
    (f : Failure)
    (herror : ((inject cfg url).run (.of ch.recording h.recording) ((s, []), (k, []))).value
      = .error f) :
    let out := (inject cfg url).run (.of ch.recording h.recording) ((s, []), (k, []))
    (∃ text pieces response content report passed p later before last begun,
      order cfg text pieces response content report = passed ++ p :: later ∧
        talkOf out.steps = before ++ last ∧
        Runs cfg url passed before (.ok ()) ∧ p.Fails cfg url last f ∧
        p.Begins cfg begun ∧
        out.state.1.2 = submissions cfg.interface (passed.flatMap (·.requests cfg) ++ begun) ∧
        (∀ r ∈ passed.flatMap (·.requests cfg) ++ begun, IsEncodable r) ∧
        out.state.2.2 = (passed ++ [p]).flatMap (·.posts url)) ∧
      (f.kind = .state ↔
        f ∈ [.initialiseNotConfirmed, .unexpectedlyStillInitialised, .noKeyReady]) ∧
      ∀ e, f.source? = some e → f.kind = e.kind := by
  intro out
  refine ⟨?_, f.kind_eq_state_iff, fun e he => by rw [Failure.kind, he]⟩
  obtain ⟨text, pieces, response, content, report, hruns, -⟩ :=
    runs_of_inject (.of ch.recording h.recording) cfg url ((s, []), (k, []))
  rw [herror] at hruns
  obtain ⟨passed, p, later, before, last, horder, htalk, hpassed, hfail⟩ := Runs.error_iff.1 hruns
  obtain ⟨begun, hbegun, hlast, hlastPosts⟩ := hfail.says
  obtain ⟨hcommands, hposts⟩ := hpassed.says
  obtain ⟨-, hsent, hposted⟩ := Session.recorded_eq (inject cfg url) ch h s k
  refine ⟨text, pieces, response, content, report, passed, p, later, before, last, begun, horder,
    htalk, hpassed, hfail, hbegun, ?_, ?_, ?_⟩
  · rw [hsent, ← commandsOf_talkOf, htalk, commandsOf_append, hcommands, hlast, submissions_append]
  · intro r hr
    rcases List.mem_append.1 hr with hr | hr
    · exact isEncodable_of_mem_requests (horder ▸ List.subset_append_left _ _) hr
    · have hphase := List.mem_append_right passed (List.mem_cons_self (a := p) (l := later))
      exact isEncodable_of_begins (horder ▸ hphase) hbegun hr
  · rw [hposted, ← postsOf_talkOf, htalk, postsOf_append, hposts, hlastPosts, List.flatMap_append,
      List.flatMap_singleton]

/-- The channel to a seeded terminal that cannot write two of the key files. -/
def unwritableLink : TerminalLink :=
  { terminal :=
    { Terminal.seeded false true with faults := .unwritable ["rki_pin.iksn", "rki_sred.tr31"] } }

/-- The injection ends at the first of the two, when the key host has been asked and three key files
are written. -/
theorem inject_error_unwritable :
    let out := (inject {} "").run (.of Channel.inProcess.recording KeyHost.scripted.recording)
      ((unwritableLink, []), (ScriptedHost.ofScript ScriptedHost.success, []))
    let f := Failure.uploadFailed "rki_sred.tr31" (.transferFailed 0)
    out.value = .error f ∧
      ∃ text pieces response content before last begun,
        let uploaded := ["rki_hsm.crt", "rki_kbpk.bin", "rki_kbpk.sig"]
        let passed := startPhases {} ++ bootstrapPhases text pieces ++
          hostPhases {} text response ++
          ([.prompt ({} : Prompts).received, .derive response content] ++
            uploaded.map fun file => .upload file (content file))
        let p := Phase.upload "rki_sred.tr31" (content "rki_sred.tr31")
        talkOf out.steps = before ++ last ∧ Runs {} "" passed before (.ok ()) ∧
          p.Fails {} "" last f ∧ p.Begins {} begun ∧
          out.state.1.2 = submissions .primary (passed.flatMap (·.requests {}) ++ begun) ∧
          out.state.2.2 = [("", (requestOf text).body)] := by
  have hfiles : keyFiles = ["rki_hsm.crt", "rki_kbpk.bin", "rki_kbpk.sig"] ++
      "rki_sred.tr31" :: ["rki_sred.iksn", "rki_pin.tr31", "rki_pin.iksn"] := rfl
  have hpost := post_scripted (k := ScriptedHost.ofScript ScriptedHost.success) rfl ""
    (requestOf seededText)
  obtain ⟨hfails, -⟩ := run_inject_unwritable (l := unwritableLink) rfl healthy_seeded rfl
    hpost ofBytes_success hfiles (by decide) (by decide) (by decide)
  obtain ⟨hvalue, -⟩ := Session.recorded_eq (inject {} "") Channel.inProcess KeyHost.scripted
    unwritableLink (ScriptedHost.ofScript ScriptedHost.success)
  have herror := hvalue.trans hfails
  obtain ⟨⟨text, pieces, response, content, report, passed, p, later, before, last, begun, horder,
    htalk, hpassed, hfail, hbegins, hsent, -, hposts⟩, -⟩ :=
    inject_error Channel.inProcess KeyHost.scripted {} "" unwritableLink
      (ScriptedHost.ofScript ScriptedHost.success) _ herror
  obtain ⟨data, rfl⟩ := hfail.eq_upload
  obtain ⟨rfl, rfl⟩ := order_eq_append_upload hfiles horder
  exact ⟨herror, text, pieces, response, content, before, last, begun, htalk, hpassed, hfail,
    hbegins, hsent, hposts⟩

end KeyInjection.Injection
