-- SUMMARY: An injection into a terminal without faults succeeds, and leaves the keys there.
import KeyInjection.Proofs.Injection.KeyFiles
import KeyInjection.Proofs.Injection.Transcript
import KeyInjection.Proofs.KeyHost.Requests
import KeyInjection.Proofs.Terminal.Transfer

/-!
# Injections into healthy terminals

The stages of an injection are followed one by one on a terminal that obeys. Each passes, and what
it leaves is told; put together, `gives_steps` says what the whole injection leaves.
-/

namespace KeyInjection

/-- Of files written one after the other each has its content, and other files keep theirs. -/
theorem FileStore.get?_foldl_put (content : String → Bytes) (names : List String) (s : FileStore)
    (other : String) :
    (names.foldl (fun s name => s.put name (content name)) s).get? other =
      if other ∈ names then some (content other) else s.get? other := by
  induction names generalizing s with
  | nil => rfl
  | cons name rest ih =>
    rw [List.foldl_cons, ih, get?_put]
    by_cases hrest : other ∈ rest
    · simp [hrest]
    · by_cases hname : other = name
      · subst hname
        simp [hrest]
      · simp [hrest, hname]

namespace Injection

open Device Transfer

/-! ## Healthy injections -/

/-- All is well: the terminal has no faults and the four bootstrap files, the key material can be
derived, and the options and prompts are usable. -/
structure Healthy (cfg : Config) (t : Terminal) (text : String → String)
    (response : ProvisioningResponse) : Prop where
  faults_eq : t.faults = .none
  file : ∀ file ∈ bootstrapFiles, t.files.get? file = some (textBytes (text file)) ∧
    0 < (textBytes (text file)).length ∧ (textBytes (text file)).length < 0x80000000
  isHex : ∀ key ∈ keyFields, key.encoding = .hex → Hex.IsHex (key.field response)
  field_lt : ∀ key ∈ keyFields, (textBytes (key.field response)).length < 0x100000000
  chunk_pos : 0 < cfg.download.maxChunk ∧ 0 < cfg.upload.maxChunk
  prompt_le : ∀ prompt ∈ [cfg.prompts.preparing, cfg.prompts.connecting, cfg.prompts.received,
    cfg.prompts.complete], (textBytes prompt).length ≤ DisplayRequest.maxText

def Report.healthy : Report := ⟨.provisioned, none⟩

/-- The phases of a healthy injection: every file is read in pieces of the size asked for. -/
def healthyOrder (cfg : Config) (text : String → String) (response : ProvisioningResponse) :
    List Phase :=
  order cfg text (fun file => Bytes.pieces cfg.download.maxChunk (textBytes (text file))) response
    (contentOf response) .healthy

/-- What a healthy injection makes of a terminal, the log aside. -/
def provision (cfg : Config) (response : ProvisioningResponse) (t : Terminal) : Terminal :=
  { t with
    files := keyFiles.foldl (fun files name => files.put name (contentOf response name)) t.files
    selected := t.selected.set cfg.interface keyFiles.getLast?
    secure := .provisioned
    display := t.display ++
      #[cfg.prompts.preparing, cfg.prompts.connecting, cfg.prompts.received,
        cfg.prompts.complete] }

variable {σ η : Type} {w : Surroundings σ} {h : KeyHost η} {i : Interface} {s s' : σ} {k k' : η}
variable {cfg : Config} {t : Terminal} {rs : List Request} {unwritable : List String}

/-! ## Steps -/

/-- Within a step an operation leads where it leads, and its failure is the step's. -/
theorem gives_blaming {f : Error → Failure} {a : Attempt Event Error α} {r : Except Error α}
    (ha : Gives w i s a rs r s') : Gives w i s (blaming f a) rs (r.mapError f) s' := by
  have hrun := Session.run_bind w a.run (settle f) s
  dsimp only at hrun
  rw [ha.value_eq, ha.state_eq, ← run_blaming] at hrun
  have hsettled : (settle f r).run w s' = ⟨r.mapError f, s', []⟩ := by cases r <;> rfl
  rw [hsettled, List.append_nil] at hrun
  refine ⟨?_, ?_, ?_⟩
  · rw [hrun]
  · rw [hrun]
  · rw [hrun, ← ha.commands_eq]

/-- Entering a stage changes nothing. -/
theorem gives_enter_bind {stage : Stage} {task : Task α} {r : Except Failure α}
    (htask : Gives w i s task rs r s') :
    Gives w i s (enter stage >>= fun _ => task) rs r s' :=
  (Gives.emit (Event.stage stage)).bind htask

theorem gives_prompt (hfaults : t.faults = .unwritable unwritable) {text : String}
    (hlength : (textBytes text).length ≤ DisplayRequest.maxText) :
    Gives (.obeying h) cfg.interface (t, k) (prompt cfg text) [.display (.prompt text)] (.ok ())
      ({ t with display := t.display.push text }, k) :=
  (gives_display hfaults hlength).lift_run.bind (.pure ())

/-- A bootstrap file is read as the text it holds. -/
theorem gives_readText {file text : String} (hfile : file ∈ bootstrapFiles)
    (hfaults : t.faults = .unwritable unwritable)
    (hcontent : t.files.get? file = some (textBytes text))
    (hsome : 0 < (textBytes text).length) (hsize : (textBytes text).length < 0x80000000)
    (hchunk : 0 < cfg.download.maxChunk) :
    Gives (.obeying h) cfg.interface (t, k) (readText cfg file)
      ((Phase.download file text
        (Bytes.pieces cfg.download.maxChunk (textBytes text))).requests cfg)
      (.ok text) ({ t with selected := t.selected.set cfg.interface (some file) }, k) := by
  have hname := length_textBytes_file file (List.mem_append_left _ hfile)
  rw [Phase.requests, Bytes.flatten_pieces hchunk, ← List.append_nil (downloadRequests ..)]
  refine (gives_blaming
    (gives_download hfaults hname hcontent hsome hsize hchunk (.download file))).bind ?_
  rw [Bytes.text?_textBytes]
  exact .pure text

theorem gives_writeKeyFile {f : KeyFile} (hfile : f.name ∈ keyFiles)
    (hfaults : t.faults = .unwritable unwritable) (hwritable : f.name ∉ unwritable)
    (hsize : f.data.length < 0x100000000) (hchunk : 0 < cfg.upload.maxChunk) :
    Gives (.obeying h) cfg.interface (t, k) (writeKeyFile cfg f)
      (uploadRequests f.name cfg.upload f.data) (.ok ())
      ({ t with
        files := t.files.put f.name f.data
        selected := t.selected.set cfg.interface (some f.name) }, k) := by
  have hname := length_textBytes_file f.name (List.mem_append_right _ hfile)
  have hselectable : t.faults.failSelect.contains f.name = false := by
    rw [hfaults]
    rfl
  have hwritable : t.faults.failWrite.contains f.name = false := by
    simpa [hfaults, Faults.unwritable] using hwritable
  have hwritten := gives_upload (h := h) (t := t) (k := k) (i := cfg.interface) hselectable hname
    (fun _ => hwritable) hsize hchunk (Event.upload f.name)
  rw [writeKeyFile, ← List.append_nil (uploadRequests ..)]
  exact (gives_blaming hwritten).bind (.pure ())

/-- Key files are written one after the other. -/
theorem gives_writeKeyFiles {content : String → Bytes} {names : List String}
    (hfiles : names ⊆ keyFiles) (hfaults : t.faults = .unwritable unwritable)
    (hwritable : ∀ name ∈ names, name ∉ unwritable)
    (hsize : ∀ name ∈ names, (content name).length < 0x100000000)
    (hchunk : 0 < cfg.upload.maxChunk) :
    Gives (.obeying h) cfg.interface (t, k)
      ((names.map fun name => KeyFile.mk name (content name)).forM (writeKeyFile cfg))
      ((names.map fun name => Phase.upload name (content name)).flatMap (·.requests cfg)) (.ok ())
      ({ t with
        files := names.foldl (fun files name => files.put name (content name)) t.files
        selected := names.foldl (fun selected name => selected.set cfg.interface (some name))
          t.selected }, k) := by
  induction names generalizing t with
  | nil => exact .pure ()
  | cons name rest ih =>
    have hhead : name ∈ keyFiles := hfiles (List.mem_cons_self ..)
    refine (gives_writeKeyFile hhead hfaults (hwritable name (List.mem_cons_self ..))
      (hsize name (List.mem_cons_self ..)) hchunk).bind ?_
    let written : Terminal :=
      { t with
        files := t.files.put name (content name)
        selected := t.selected.set cfg.interface (some name) }
    have hworking : written.faults = .unwritable unwritable := hfaults
    exact ih (List.Subset.trans (List.subset_cons_self ..) hfiles) hworking
      (fun name hname => hwritable name (List.mem_cons_of_mem _ hname))
      fun name hname => hsize name (List.mem_cons_of_mem _ hname)

/-! ## Stages -/

variable {text : String → String} {response : ProvisioningResponse}

/-- Key injection mode is active, and earlier keys are gone. -/
theorem gives_initialise (hfaults : t.faults = .unwritable unwritable)
    (hprompt : (textBytes cfg.prompts.preparing).length ≤ DisplayRequest.maxText) :
    Gives (.obeying h) cfg.interface (t, k) (initialise cfg)
      ((startPhases cfg).flatMap (·.requests cfg)) (.ok ())
      ({ t with
        display := t.display.push cfg.prompts.preparing
        secure := ⟨true, false, false⟩ }, k) := by
  let shown : Terminal := { t with display := t.display.push cfg.prompts.preparing }
  have hshown : shown.faults = .unwritable unwritable := hfaults
  refine gives_enter_bind ((gives_prompt hfaults hprompt).bind ?_)
  refine (gives_blaming (gives_secureInit hshown)).bind ?_
  exact (gives_blaming gives_secureState).bind (.pure ())

/-- The four bootstrap files are read. -/
theorem gives_readBootstrap (hfaults : t.faults = .unwritable unwritable)
    (hfiles : ∀ file ∈ bootstrapFiles, t.files.get? file = some (textBytes (text file)) ∧
      0 < (textBytes (text file)).length ∧ (textBytes (text file)).length < 0x80000000)
    (hchunk : 0 < cfg.download.maxChunk) :
    Gives (.obeying h) cfg.interface (t, k) (readBootstrap cfg)
      ((bootstrapPhases text fun file =>
        Bytes.pieces cfg.download.maxChunk (textBytes (text file))).flatMap (·.requests cfg))
      (.ok (requestOf text))
      ({ t with selected := t.selected.set cfg.interface (some suggestedIksnFile) }, k) := by
  -- Reading changes nothing but the selection, and a selection replaces the one before.
  have hread : ∀ file ∈ bootstrapFiles, ∀ selected : PerInterface (Option String),
      (∀ name, selected.set cfg.interface name = t.selected.set cfg.interface name) →
      Gives (.obeying h) cfg.interface ({ t with selected }, k) (readText cfg file)
        ((Phase.download file (text file)
          (Bytes.pieces cfg.download.maxChunk (textBytes (text file)))).requests cfg)
        (.ok (text file))
        ({ t with selected := t.selected.set cfg.interface (some file) }, k) := by
    intro file hfile selected hselected
    obtain ⟨hcontent, hsome, hsize⟩ := hfiles file hfile
    let before : Terminal := { t with selected }
    have hworking : before.faults = .unwritable unwritable := hfaults
    rw [← hselected]
    exact gives_readText hfile hworking hcontent hsome hsize hchunk
  refine gives_enter_bind ((hread prodSignCertFile (by decide) t.selected fun _ => rfl).bind ?_)
  refine (hread terminalCertFile (by decide) _ fun _ => PerInterface.set_set ..).bind ?_
  refine (hread tempLoadCertFile (by decide) _ fun _ => PerInterface.set_set ..).bind ?_
  refine (hread suggestedIksnFile (by decide) _ fun _ => PerInterface.set_set ..).bind ?_
  exact .pure _

/-- The key host is asked, and its answer is key material. -/
theorem gives_contactHost {url : String} {r : ProvisioningRequest} {answer : Bytes}
    (hfaults : t.faults = .unwritable unwritable)
    (hprompt : (textBytes cfg.prompts.connecting).length ≤ DisplayRequest.maxText)
    (hpost : h.post url r.body k = (.ok answer, k'))
    (hanswer : ProvisioningResponse.ofBytes answer = .ok response) :
    Gives (.obeying h) cfg.interface (t, k) (contactHost cfg url r)
      [.display (.prompt cfg.prompts.connecting)] (.ok response)
      ({ t with display := t.display.push cfg.prompts.connecting }, k') := by
  let shown : Terminal := { t with display := t.display.push cfg.prompts.connecting }
  have hasked : Gives (.obeying h) cfg.interface (shown, k)
      (ExceptT.mk (Session.requestProvisioning url r) : Attempt Event Error ProvisioningResponse)
      [] (.ok response) (shown, k') := by
    have hrun : (Session.requestProvisioning url r).run (.obeying h) (shown, k) =
        (⟨.ok response, (shown, k'), [.posted url r.body (.ok answer)]⟩ :
          Outcome Event _ (Except Error ProvisioningResponse)) := by
      rw [Session.run_requestProvisioning]
      simp only [Surroundings.obeying, hpost, Except.bind, hanswer]
    exact ⟨congrArg Outcome.value hrun, congrArg Outcome.state hrun,
      congrArg (commandsOf ·.steps) hrun⟩
  exact gives_enter_bind ((gives_prompt hfaults hprompt).bind (gives_blaming hasked))

theorem length_contentOf_lt
    (hhex : ∀ key ∈ keyFields, key.encoding = .hex → Hex.IsHex (key.field response))
    (hsize : ∀ key ∈ keyFields, (textBytes (key.field response)).length < 0x100000000) :
    ∀ name ∈ keyFiles, (contentOf response name).length < 0x100000000 := by
  intro name hname
  obtain ⟨key, hkey, rfl⟩ := List.mem_map.1 hname
  rw [(deriveKeyFiles_of_isHex hhex).2 key hkey]
  exact Nat.lt_of_le_of_lt (key.contentLength_le response) (hsize key hkey)

/-- The key files are written and imported. -/
theorem gives_injectKeys (hfaults : t.faults = .none) (hmode : t.secure.initialised = true)
    (hprompt : (textBytes cfg.prompts.received).length ≤ DisplayRequest.maxText)
    (hhex : ∀ key ∈ keyFields, key.encoding = .hex → Hex.IsHex (key.field response))
    (hsize : ∀ key ∈ keyFields, (textBytes (key.field response)).length < 0x100000000)
    (hchunk : 0 < cfg.upload.maxChunk) :
    Gives (.obeying h) cfg.interface (t, k) (injectKeys cfg response)
      ((keyPhases cfg response (contentOf response)).flatMap (·.requests cfg)) (.ok ())
      ({ t with
        files := keyFiles.foldl (fun files name => files.put name (contentOf response name)) t.files
        selected := keyFiles.foldl (fun selected name => selected.set cfg.interface (some name))
          t.selected
        secure := .provisioned
        display := t.display.push cfg.prompts.received }, k) := by
  have hderive := (deriveKeyFiles_of_isHex hhex).1
  have hlength := length_contentOf_lt hhex hsize
  let shown : Terminal := { t with display := t.display.push cfg.prompts.received }
  have hshown : shown.faults = .none := hfaults
  let written : Terminal :=
    { shown with
      files := keyFiles.foldl (fun files name => files.put name (contentOf response name)) t.files
      selected := keyFiles.foldl (fun selected name => selected.set cfg.interface (some name))
        t.selected }
  have hworking : written.faults = .none := hfaults
  have hready : written.hasKeyFiles = true := by
    rw [Terminal.hasKeyFiles, List.all_eq_true]
    intro name hname
    rw [FileStore.contains, FileStore.get?_foldl_put, if_pos hname]
    rfl
  rw [keyPhases, List.flatMap_append, List.flatMap_append, List.append_assoc]
  refine gives_enter_bind ((gives_prompt hfaults hprompt).bind ?_)
  rw [hderive]
  refine (gives_writeKeyFiles (List.Subset.refl _) hshown (fun _ _ => List.not_mem_nil) hlength
    hchunk).bind ?_
  exact gives_blaming (gives_keyImport hworking hmode hready)

/-- The keys are found in place, and the last prompt is shown. -/
theorem gives_confirm (hfaults : t.faults = .none) (hsecure : t.secure = .provisioned)
    (hprompt : (textBytes cfg.prompts.complete).length ≤ DisplayRequest.maxText) :
    Gives (.obeying h) cfg.interface (t, k) (confirm cfg)
      ((endPhases .healthy).flatMap (·.requests cfg)) (.ok .healthy)
      ({ t with display := t.display.push cfg.prompts.complete }, k) := by
  have hstate : Gives (.obeying h) cfg.interface (t, k)
      (Device.secureState cfg.interface : Attempt Event Error SecureState) [.secureState]
      (.ok .provisioned) (t, k) := hsecure ▸ gives_secureState
  refine gives_enter_bind ((gives_blaming hstate).bind ?_)
  exact (gives_display hfaults hprompt).lift_run.bind (.pure Report.healthy)

/-! ## The whole -/

/-- The file selected last stays selected. -/
theorem selected_foldl (i : Interface) (before : PerInterface (Option String)) (file : String) :
    keyFiles.foldl (fun selected name => selected.set i (some name)) (before.set i (some file)) =
      before.set i keyFiles.getLast? := by
  simp [keyFiles, keyFields]

/-- What an injection makes of a terminal until the key host has answered. -/
def approach (cfg : Config) (t : Terminal) : Terminal :=
  { t with
    selected := t.selected.set cfg.interface (some suggestedIksnFile)
    secure := ⟨true, false, false⟩
    display := (t.display.push cfg.prompts.preparing).push cfg.prompts.connecting }

/-- Until the key host has answered nothing is written. -/
theorem gives_steps_of_injectKeys {url : String} {answer : Bytes} {r : Except Failure Report}
    {s : Terminal × η} (hfaults : t.faults = .unwritable unwritable)
    (hfiles : ∀ file ∈ bootstrapFiles, t.files.get? file = some (textBytes (text file)) ∧
      0 < (textBytes (text file)).length ∧ (textBytes (text file)).length < 0x80000000)
    (hchunk : 0 < cfg.download.maxChunk)
    (hprompts : ∀ prompt ∈ [cfg.prompts.preparing, cfg.prompts.connecting],
      (textBytes prompt).length ≤ DisplayRequest.maxText)
    (hpost : h.post url (requestOf text).body k = (.ok answer, k'))
    (hanswer : ProvisioningResponse.ofBytes answer = .ok response)
    (hkeys : Gives (.obeying h) cfg.interface (approach cfg t, k')
      (injectKeys cfg response >>= fun _ => confirm cfg) rs r s) :
    Gives (.obeying h) cfg.interface (t, k) (steps cfg url)
      ((startPhases cfg ++ bootstrapPhases text (fun file =>
          Bytes.pieces cfg.download.maxChunk (textBytes (text file))) ++
        hostPhases cfg text response).flatMap (·.requests cfg) ++ rs) r s := by
  let started : Terminal :=
    { t with
      display := t.display.push cfg.prompts.preparing
      secure := ⟨true, false, false⟩ }
  let read : Terminal :=
    { started with selected := t.selected.set cfg.interface (some suggestedIksnFile) }
  simp only [List.flatMap_append, List.append_assoc]
  refine (gives_initialise hfaults (hprompts _ (by simp))).bind ?_
  refine (gives_readBootstrap (t := started) hfaults hfiles hchunk).bind ?_
  exact (gives_contactHost (t := read) hfaults (hprompts _ (by simp)) hpost hanswer).bind hkeys

/-- A healthy injection makes all requests of its phases and leaves the terminal provisioned. -/
theorem gives_steps {url : String} {answer : Bytes} (hhealthy : Healthy cfg t text response)
    (hpost : h.post url (requestOf text).body k = (.ok answer, k'))
    (hanswer : ProvisioningResponse.ofBytes answer = .ok response) :
    Gives (.obeying h) cfg.interface (t, k) (steps cfg url)
      ((healthyOrder cfg text response).flatMap (·.requests cfg)) (.ok .healthy)
      (provision cfg response t, k') := by
  obtain ⟨hfaults, hfiles, hhex, hfield, ⟨hdownload, hupload⟩, hprompts⟩ := hhealthy
  let asked : Terminal := approach cfg t
  let imported : Terminal :=
    { asked with
      files := keyFiles.foldl (fun files name => files.put name (contentOf response name)) t.files
      selected := keyFiles.foldl (fun selected name => selected.set cfg.interface (some name))
        asked.selected
      secure := .provisioned
      display := asked.display.push cfg.prompts.received }
  have hend : { imported with display := imported.display.push cfg.prompts.complete } =
      provision cfg response t := by
    have hdisplay : imported.display.push cfg.prompts.complete =
        t.display ++ #[cfg.prompts.preparing, cfg.prompts.connecting, cfg.prompts.received,
          cfg.prompts.complete] := by
      apply Array.ext'
      simp [imported, asked, approach]
    rw [hdisplay]
    simp [provision, imported, asked, approach, selected_foldl]
  have hasked : asked.faults = .none := hfaults
  have himported : imported.faults = .none := hfaults
  have hearly : ∀ prompt ∈ [cfg.prompts.preparing, cfg.prompts.connecting],
      (textBytes prompt).length ≤ DisplayRequest.maxText :=
    fun prompt hprompt => hprompts prompt (List.mem_append_left _ hprompt)
  rw [← hend, healthyOrder, order, List.append_assoc, List.flatMap_append]
  apply gives_steps_of_injectKeys hfaults hfiles hdownload hearly hpost hanswer
  rw [List.flatMap_append]
  exact (gives_injectKeys (t := asked) hasked rfl (hprompts _ (by simp)) hhex hfield hupload).bind
    (gives_confirm himported rfl (hprompts _ (by simp)))

/-- Around its steps an injection only publishes. -/
theorem run_inject {url : String} {r : Except Failure Report}
    (hsteps : Gives w i s (steps cfg url) rs r s') :
    let out := (inject cfg url).run w s
    out.value = r ∧ out.state = s' ∧ commandsOf out.steps = submissions i rs := by
  have hbind := Session.run_bind w (steps cfg url).run finish s
  dsimp only at hbind ⊢
  rw [hsteps.value_eq, hsteps.state_eq] at hbind
  rw [inject_eq, Session.run_publish, hbind, ← hsteps.commands_eq]
  cases r <;>
    exact ⟨rfl, rfl, by simp [finish, Session.run_publish, Session.run_done, Step.command?]⟩

/-- So it goes over a channel in the same process. -/
theorem run_inject_inProcess {l : TerminalLink} {url : String} {answer : Bytes}
    (hopen : l.closed = false) (hhealthy : Healthy cfg l.terminal text response)
    (hpost : h.post url (requestOf text).body k = (.ok answer, k'))
    (hanswer : ProvisioningResponse.ofBytes answer = .ok response) :
    let out := (inject cfg url).run (.of .inProcess h) (l, k)
    out.value = .ok .healthy ∧ out.state.2 = k' ∧
      commandsOf out.steps = submissions cfg.interface
        ((healthyOrder cfg text response).flatMap (·.requests cfg)) ∧
      ∃ log, out.state.1.terminal = (provision cfg response l.terminal).withLog log := by
  intro out
  have hlink : l.IsTo l.terminal := ⟨hopen, hhealthy.faults_eq, l.terminal.commands, rfl⟩
  obtain ⟨hvalue, hsteps, ⟨-, -, log, hterminal⟩, hhost⟩ :=
    Session.run_inProcess (inject cfg url) h hlink k
  obtain ⟨hdirectValue, hdirectState, hdirectCommands⟩ :=
    run_inject (gives_steps hhealthy hpost hanswer)
  rw [hdirectState] at hterminal hhost
  refine ⟨hvalue.trans hdirectValue, hhost, ?_, log, hterminal⟩
  rw [hsteps]
  exact hdirectCommands

/-! ## With the scripted key host -/

/-- The scripted key host records the request, and answers if its script says so. -/
theorem post_scripted {k : ScriptedHost} {answer : Bytes} (hscript : k.script = .respond answer)
    (url : String) (r : ProvisioningRequest) :
    KeyHost.scripted.post url r.body k =
      (.ok answer, { k with
        requests := k.requests ++
          [(url, .object (Json.stringMembers (ProvisioningRequest.names.zip r.values)))] }) := by
  rw [KeyHost.post_scripted, hscript]
  rfl

/-- The key material that the scripted key host answers with. -/
def successResponse : ProvisioningResponse where
  hsmCert := "-----BEGIN CERTIFICATE-----\nMIIBsim\n-----END CERTIFICATE-----\n"
  kbpk := "0123456789abcdef0123456789abcdef"
  kbpkSig := "deadbeefcafebabe"
  sredTr31 := "B0096B1TX00N0100KS1800604B120F9292800000"
  sredIksn := "FFFF9876543210E00000"
  pinTr31 := "B0096P0TE00N0100KS1800604B120F9292800001"
  pinIksn := "FFFF9876543210E00001"

/-- An answer in which all members are texts is read as the object that it is. -/
theorem ofBytes_objectText (members : List (String × String)) :
    ProvisioningResponse.ofBytes (textBytes (Json.objectText members)) =
      ProvisioningResponse.ofJson (.object (Json.stringMembers members)) := by
  rw [ProvisioningResponse.ofBytes, Bytes.text?_textBytes]
  show ProvisioningResponse.parse _ = _
  rw [ProvisioningResponse.parse, Json.parse?_objectText]

theorem ofBytes_success :
    ProvisioningResponse.ofBytes (textBytes (Json.objectText ScriptedHost.successMembers)) =
      .ok successResponse := by
  rw [ofBytes_objectText]
  rfl

/-- What the files of a seeded terminal hold. -/
def seededText (name : String) : String := s!"simulated {name}\n"

/-- The channel to a seeded terminal in the same process, which has keys in place already. -/
def seededLink : TerminalLink := { terminal := .seeded false true }

theorem healthy_seeded : Healthy {} seededLink.terminal seededText successResponse where
  faults_eq := rfl
  file := by decide
  isHex := by decide +kernel
  field_lt := by decide
  chunk_pos := by decide
  prompt_le := by decide

/-- An injection into a healthy terminal succeeds. The key host gets one request, with the contents
of the bootstrap files; each key file then holds just what is derived for it, whatever it held
before, no other file has changed, the keys are in place, and the four prompts were shown. The
terminal was sent one selection for each file and as many reads and writes as the files have
pieces. -/
theorem inject_healthy (l : TerminalLink) (k : ScriptedHost) (cfg : Config) (url : String)
    (text : String → String) (answer : Bytes) (response : ProvisioningResponse)
    (hopen : l.closed = false) (hhealthy : Healthy cfg l.terminal text response)
    (hscript : k.script = .respond answer)
    (hanswer : ProvisioningResponse.ofBytes answer = .ok response) :
    let out := (inject cfg url).run (.of .inProcess .scripted) (l, k)
    let t := out.state.1.terminal
    out.value = .ok ⟨⟨false, true, true⟩, none⟩ ∧
      out.state.2.requests = k.requests ++ [(url, .object [
        ("prodSignCert", .string (text prodSignCertFile)),
        ("terminalCert", .string (text terminalCertFile)),
        ("tempLoadCert", .string (text tempLoadCertFile)),
        ("suggestedIKSN", .string (text suggestedIksnFile)),
        ("keyHostIndex", .string "1")])] ∧
      (∀ key ∈ keyFields, ∃ data, key.derive response = .ok ⟨key.name, data⟩ ∧
        t.files.get? key.name = some data) ∧
      (∀ file, file ∉ keyFiles → t.files.get? file = l.terminal.files.get? file) ∧
      t.secure = ⟨false, true, true⟩ ∧
      t.display = l.terminal.display ++
        #[cfg.prompts.preparing, cfg.prompts.connecting, cfg.prompts.received,
          cfg.prompts.complete] ∧
      t.selected = l.terminal.selected.set cfg.interface keyFiles.getLast? ∧
      t.faults = .none ∧
      commandsOf out.steps = submissions cfg.interface
        ((healthyOrder cfg text response).flatMap (·.requests cfg)) := by
  intro out t
  obtain ⟨hvalue, hhost, hcommands, log, hterminal⟩ :=
    run_inject_inProcess hopen hhealthy (post_scripted hscript url _) hanswer
  -- From here on the run itself no longer matters, only the terminal it left.
  replace hterminal : t = (provision cfg response l.terminal).withLog log := hterminal
  clear_value t
  subst hterminal
  refine ⟨hvalue, congrArg ScriptedHost.requests hhost, ?_, ?_, rfl, rfl, rfl, hhealthy.faults_eq,
    hcommands⟩
  · intro key hkey
    have hname : key.name ∈ keyFiles := List.mem_map_of_mem hkey
    have hderive := (deriveKeyFiles_eq_ok (deriveKeyFiles_of_isHex hhealthy.isHex).1).2
    refine ⟨contentOf response key.name, hderive key hkey, ?_⟩
    exact (FileStore.get?_foldl_put ..).trans (if_pos hname)
  · intro file hfile
    exact (FileStore.get?_foldl_put ..).trans (if_neg hfile)

/-- A seeded terminal, and the usual answer of the scripted key host. -/
theorem inject_healthy_seeded :
    let out := (inject {} "").run (.of .inProcess .scripted)
      (seededLink, ScriptedHost.ofScript ScriptedHost.success)
    seededLink.closed = false ∧ Healthy {} seededLink.terminal seededText successResponse ∧
      out.value = .ok ⟨⟨false, true, true⟩, none⟩ ∧
      out.state.2.requests = [] ++ [("", .object [
        ("prodSignCert", .string (seededText prodSignCertFile)),
        ("terminalCert", .string (seededText terminalCertFile)),
        ("tempLoadCert", .string (seededText tempLoadCertFile)),
        ("suggestedIKSN", .string (seededText suggestedIksnFile)),
        ("keyHostIndex", .string "1")])] ∧
      ∀ key ∈ keyFields, ∃ data, key.derive successResponse = .ok ⟨key.name, data⟩ ∧
        out.state.1.terminal.files.get? key.name = some data := by
  obtain ⟨hvalue, hrequests, hkeys, -⟩ :=
    inject_healthy seededLink (.ofScript ScriptedHost.success) {} "" seededText _ successResponse
      rfl healthy_seeded rfl ofBytes_success
  exact ⟨rfl, healthy_seeded, hvalue, hrequests, hkeys⟩

end Injection

end KeyInjection
