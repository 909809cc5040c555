-- SUMMARY: The phases of an injection, how each can pass or fail, and their fixed order.
import Mathlib.Data.List.Basic
import KeyInjection.Injection.Run
import KeyInjection.Proofs.Transfer.Dialogue

/-!
# Phases of an injection

An injection is a fixed sequence of phases. `Phase.Passes` says with which talk a phase lets the
injection go on, `Phase.Fails` with which talk and as which failure it ends it; `Runs` plays phases
in order up to the first that fails. What the phases carry (texts read, key material, contents
written) is what passed between them and the terminal or the key host; the order is the same for
all of it.
-/

namespace KeyInjection.Injection

open Device Transfer

/-- A phase of an injection, with what it moves if it passes. -/
inductive Phase where
  /-- A prompt is shown before the keys are in place. -/
  | prompt (text : String)
  /-- Key injection mode is started. -/
  | start
  /-- The terminal shows that the mode is active. -/
  | started
  /-- A bootstrap file is read, in pieces that make up a text. -/
  | download (file text : String) (pieces : List Bytes)
  /-- The key host is asked. -/
  | host (request : ProvisioningRequest) (response : ProvisioningResponse)
  /-- The contents of the key files are made, by name. -/
  | derive (response : ProvisioningResponse) (content : String → Bytes)
  /-- A key file is written. -/
  | upload (file : String) (content : Bytes)
  /-- The key files are imported. -/
  | keyImport
  /-- The terminal shows that keys are in place. -/
  | confirm (state : SecureState)
  /-- The last prompt is shown, or why not is kept. -/
  | lastPrompt (warning : Option Error)

abbrev Queries (cfg : Config) : List (Step Event) → Except Error SecureState → Prop :=
  Requests cfg.interface .secureState SecureState.decode

abbrev Shows (cfg : Config) (text : String) : List (Step Event) → Except Error Unit → Prop :=
  Commands cfg.interface (.display (.prompt text))

/-- The phase leaves this talk and the injection goes on. -/
def Phase.Passes (cfg : Config) (url : String) : Phase → List (Step Event) → Prop
  | prompt text, talk => ∃ r, Shows cfg text talk r ∧ (r = .ok () ∨ cfg.policy = .bestEffort)
  | start, talk => Commands cfg.interface .secureInit talk (.ok ())
  | started, talk => ∃ state, Queries cfg talk (.ok state) ∧ state.initialised = true
  | download file text pieces, talk =>
    Downloads cfg.interface file cfg.download.maxChunk talk (.ok pieces) ∧
      pieces.flatten = textBytes text
  | host request response, talk =>
    ∃ answer, talk = [.posted url request.body (.ok answer)] ∧
      ProvisioningResponse.ofBytes answer = .ok response
  | derive response content, talk =>
    talk = [] ∧ ∀ k ∈ keyFields, k.derive response = .ok ⟨k.name, content k.name⟩
  | upload file content, talk =>
    Uploads cfg.interface file cfg.upload content talk (.ok content.length)
  | keyImport, talk => Imports cfg.interface talk (.ok ())
  | confirm state, talk =>
    Queries cfg talk (.ok state) ∧ state.initialised = false ∧ state.anyKeyReady = true
  | lastPrompt warning, talk => Shows cfg cfg.prompts.complete talk (warning.elim (.ok ()) .error)

/-- The phase leaves this talk and the injection ends in this failure. -/
def Phase.Fails (cfg : Config) (url : String) : Phase → List (Step Event) → Failure → Prop
  | prompt text, talk, f =>
    cfg.policy = .strict ∧ ∃ e, Shows cfg text talk (.error e) ∧ f = .displayFailed e
  | start, talk, f =>
    ∃ e, Commands cfg.interface .secureInit talk (.error e) ∧ f = .initialiseFailed e
  | started, talk, f =>
    f = .initialiseNotConfirmed ∧ ((∃ e, Queries cfg talk (.error e)) ∨
      ∃ state, Queries cfg talk (.ok state) ∧ state.initialised = false)
  | download file _ _, talk, f =>
    (∃ e, Downloads cfg.interface file cfg.download.maxChunk talk (.error e) ∧
      f = .bootstrapDownloadFailed file e) ∨
    ∃ pieces, Downloads cfg.interface file cfg.download.maxChunk talk (.ok pieces) ∧
      Bytes.text? pieces.flatten = none ∧ f = .bootstrapDownloadFailed file (.utf8 file)
  | host request _, talk, f =>
    ∃ e, f = .host e ∧ (talk = [.posted url request.body (.error e)] ∨
      ∃ answer, talk = [.posted url request.body (.ok answer)] ∧
        ProvisioningResponse.ofBytes answer = .error e)
  | derive response _, talk, f =>
    talk = [] ∧ ∃ before k after e, keyFields = before ++ k :: after ∧
      (∀ earlier ∈ before, ∃ file, earlier.derive response = .ok file) ∧ k.encoding = .hex ∧
      Hex.decode (k.field response) = .error e ∧ f = .keyDecodeFailed k.name (.hexDecode e)
  | upload file content, talk, f =>
    ∃ e, Uploads cfg.interface file cfg.upload content talk (.error e) ∧ f = .uploadFailed file e
  | keyImport, talk, f => ∃ e, Imports cfg.interface talk (.error e) ∧ f = .importFailed e
  | confirm _, talk, f =>
    (∃ e, Queries cfg talk (.error e) ∧ f = .statusUnavailable e) ∨
    ∃ state, Queries cfg talk (.ok state) ∧
      ((state.initialised = true ∧ f = .unexpectedlyStillInitialised) ∨
        (state.initialised = false ∧ state.anyKeyReady = false ∧ f = .noKeyReady))
  | lastPrompt _, _, _ => False

/-- The phases are gone through in order, up to the first that fails. -/
inductive Runs (cfg : Config) (url : String) :
    List Phase → List (Step Event) → Except Failure Unit → Prop where
  | done : Runs cfg url [] [] (.ok ())
  | fail {p : Phase} {later : List Phase} {talk : List (Step Event)} {f : Failure}
      (hfail : p.Fails cfg url talk f) : Runs cfg url (p :: later) talk (.error f)
  | pass {p : Phase} {later : List Phase} {first rest : List (Step Event)}
      {r : Except Failure Unit} (hpass : p.Passes cfg url first)
      (hlater : Runs cfg url later rest r) : Runs cfg url (p :: later) (first ++ rest) r

/-- The request for the key host, made of the texts of the bootstrap files. -/
def requestOf (text : String → String) : ProvisioningRequest :=
  .ofFiles (text prodSignCertFile) (text terminalCertFile) (text tempLoadCertFile)
    (text suggestedIksnFile)

/-- The phases up to and with the start of key injection mode. -/
def startPhases (cfg : Config) : List Phase := [.prompt cfg.prompts.preparing, .start, .started]

def bootstrapPhases (text : String → String) (pieces : String → List Bytes) : List Phase :=
  bootstrapFiles.map fun file => .download file (text file) (pieces file)

def hostPhases (cfg : Config) (text : String → String) (response : ProvisioningResponse) :
    List Phase :=
  [.prompt cfg.prompts.connecting, .host (requestOf text) response]

def keyPhases (cfg : Config) (response : ProvisioningResponse) (content : String → Bytes) :
    List Phase :=
  [.prompt cfg.prompts.received, .derive response content] ++
    (keyFiles.map fun file => .upload file (content file)) ++ [.keyImport]

def endPhases (report : Report) : List Phase :=
  [.confirm report.state, .lastPrompt report.displayWarning]

/-- The phases of an injection that reads these texts in these pieces, gets this response, writes
these contents and ends in this report. -/
def order (cfg : Config) (text : String → String) (pieces : String → List Bytes)
    (response : ProvisioningResponse) (content : String → Bytes) (report : Report) : List Phase :=
  startPhases cfg ++ bootstrapPhases text pieces ++ hostPhases cfg text response ++
    keyPhases cfg response content ++ endPhases report

/-! ## Phases in the order -/

section Order

variable {cfg : Config} {text : String → String} {pieces : String → List Bytes}
variable {response : ProvisioningResponse} {content : String → Bytes} {report : Report}

theorem prompt_mem_order {prompt : String}
    (hprompt : prompt ∈ [cfg.prompts.preparing, cfg.prompts.connecting, cfg.prompts.received]) :
    .prompt prompt ∈ order cfg text pieces response content report := by
  simp only [List.mem_cons, List.not_mem_nil, or_false] at hprompt
  rcases hprompt with rfl | rfl | rfl <;> simp [order, startPhases, hostPhases, keyPhases]

theorem download_mem_order {file : String} (hfile : file ∈ bootstrapFiles) :
    .download file (text file) (pieces file) ∈ order cfg text pieces response content report := by
  have hread : .download file (text file) (pieces file) ∈ bootstrapPhases text pieces :=
    List.mem_map.2 ⟨file, hfile, rfl⟩
  simp [order, hread]

theorem upload_mem_order {file : String} (hfile : file ∈ keyFiles) :
    .upload file (content file) ∈ order cfg text pieces response content report := by
  have hwrite : .upload file (content file) ∈
      keyFiles.map fun file => Phase.upload file (content file) :=
    List.mem_map.2 ⟨file, hfile, rfl⟩
  simp only [order, keyPhases, List.mem_append]
  exact .inl (.inr (.inl (.inr hwrite)))

theorem nodup_keyFiles : keyFiles.Nodup := by decide

/-- What comes before the upload of a key file. -/
theorem order_eq_append_upload {before after : List String} {file : String} {data : Bytes}
    {passed later : List Phase} (hfiles : keyFiles = before ++ file :: after)
    (horder : order cfg text pieces response content report =
      passed ++ .upload file data :: later) :
    passed = startPhases cfg ++ bootstrapPhases text pieces ++ hostPhases cfg text response ++
        ([.prompt cfg.prompts.received, .derive response content] ++
          before.map fun file => .upload file (content file)) ∧
      data = content file := by
  obtain ⟨-, hnodup, hapart⟩ := List.nodup_append.1 (hfiles ▸ nodup_keyFiles)
  have hbefore : file ∉ before := fun hfile => hapart _ hfile _ (List.mem_cons_self ..) rfl
  have hafter : file ∉ after := (List.nodup_cons.1 hnodup).1
  have hsplit : order cfg text pieces response content report =
      (startPhases cfg ++ bootstrapPhases text pieces ++ hostPhases cfg text response ++
        ([.prompt cfg.prompts.received, .derive response content] ++
          before.map fun file => .upload file (content file))) ++
        .upload file (content file) ::
          (after.map (fun file => .upload file (content file)) ++
            .keyImport :: endPhases report) := by
    rw [order, keyPhases, hfiles]
    simp
  rw [hsplit] at horder
  obtain ⟨hpassed, hphase, -⟩ := (List.append_cons_inj_of_notMem
    (by simp [startPhases, bootstrapPhases, hostPhases]; grind)
    (by simp [endPhases]; grind)).1 horder
  cases hphase
  exact ⟨hpassed.symm, rfl⟩

end Order

/-- Only the upload of a file fails as one. -/
theorem Phase.Fails.eq_upload {cfg : Config} {url : String} {p : Phase} {talk : List (Step Event)}
    {file : String} {e : Error} (hfail : p.Fails cfg url talk (.uploadFailed file e)) :
    ∃ data, p = .upload file data := by
  cases p with
  | upload name data =>
    obtain ⟨_, -, hfailure⟩ := hfail
    cases hfailure
    exact ⟨data, rfl⟩
  | prompt | start | started | download | host | derive | keyImport | confirm | lastPrompt =>
    simp [Fails] at hfail

/-! ## Runs of phases -/

namespace Runs

variable {cfg : Config} {url : String}

theorem single_pass {p : Phase} {talk : List (Step Event)} (hpass : p.Passes cfg url talk) :
    Runs cfg url [p] talk (.ok ()) := by
  simpa using Runs.pass hpass .done

theorem append {first second : List Phase} {talk rest : List (Step Event)}
    {r : Except Failure Unit} (hfirst : Runs cfg url first talk (.ok ()))
    (hsecond : Runs cfg url second rest r) : Runs cfg url (first ++ second) (talk ++ rest) r := by
  generalize hok : (.ok () : Except Failure Unit) = x at hfirst
  induction hfirst with
  | done => exact hsecond
  | fail hfail => cases hok
  | pass hpass _ ih =>
    rw [List.append_assoc]
    exact .pass hpass (ih hok)

theorem append_error {first second : List Phase} {talk : List (Step Event)} {f : Failure}
    (hfirst : Runs cfg url first talk (.error f)) :
    Runs cfg url (first ++ second) talk (.error f) := by
  generalize herror : (.error f : Except Failure Unit) = x at hfirst
  induction hfirst with
  | done => cases herror
  | fail hfail => exact .fail hfail
  | pass hpass _ ih => exact .pass hpass (ih herror)

/-- A failed run is a passed beginning and then one phase that fails. -/
theorem error_iff {phases : List Phase} {talk : List (Step Event)} {f : Failure} :
    Runs cfg url phases talk (.error f) ↔
      ∃ passed p later before last, phases = passed ++ p :: later ∧ talk = before ++ last ∧
        Runs cfg url passed before (.ok ()) ∧ p.Fails cfg url last f := by
  constructor
  · intro hruns
    generalize herror : (.error f : Except Failure Unit) = x at hruns
    induction hruns with
    | done => cases herror
    | fail hfail =>
      cases herror
      exact ⟨[], _, _, [], _, rfl, rfl, .done, hfail⟩
    | pass hpass _ ih =>
      obtain ⟨passed, p, later, before, last, rfl, rfl, hpassed, hfail⟩ := ih herror
      exact ⟨_ :: passed, p, later, _ ++ before, last, rfl, by simp, .pass hpass hpassed, hfail⟩
  · rintro ⟨passed, p, later, before, last, rfl, rfl, hpassed, hfail⟩
    exact hpassed.append (.fail hfail)

end Runs

end KeyInjection.Injection
