-- SUMMARY: An injection makes good what an earlier one has left, whatever became of that.
import KeyInjection.Proofs.Injection.Writes

/-!
# Repeated injections

Nothing is undone when an injection fails: key files may be left empty or written in part, a file
selected, key injection mode active. But an injection changes no files other than the key files, so
the bootstrap files stay; and one that succeeds writes all key files anew and sets the state of the
secure storage. What an earlier injection has left therefore does not show in a later one.
-/

namespace KeyInjection

def TerminalLink.withoutFaults (l : TerminalLink) : TerminalLink :=
  { l with terminal := { l.terminal with faults := .none } }

theorem TerminalLink.closed_withoutFaults (l : TerminalLink) :
    l.withoutFaults.closed = l.closed := rfl

theorem TerminalLink.faults_withoutFaults (l : TerminalLink) :
    l.withoutFaults.terminal.faults = .none := rfl

theorem TerminalLink.keepsOutside_withoutFaults {names : List String} {l l' : TerminalLink}
    (hkeeps : Terminal.KeepsOutside names l.terminal l'.terminal) :
    Terminal.KeepsOutside names l.withoutFaults.terminal l'.withoutFaults.terminal :=
  fun name hname => hkeeps name hname

namespace Injection

open Device Transfer Terminal

variable {η : Type} {cfg : Config} {url : String} {t : Terminal}

/-! ## Injections after one another -/

variable {text : String → String} {response : ProvisioningResponse}

theorem not_mem_keyFiles_of_mem_bootstrapFiles : ∀ file ∈ bootstrapFiles, file ∉ keyFiles := by
  decide

/-- What makes an injection healthy is not lost if only key files change. -/
theorem Healthy.of_keepsOutside {t' : Terminal} (hhealthy : Healthy cfg t text response)
    (hfaults : t'.faults = .none) (hkeeps : KeepsOutside keyFiles t t') :
    Healthy cfg t' text response where
  faults_eq := hfaults
  file := by
    intro file hfile
    rw [hkeeps file (not_mem_keyFiles_of_mem_bootstrapFiles file hfile)]
    exact hhealthy.file file hfile
  isHex := hhealthy.isHex
  field_lt := hhealthy.field_lt
  chunk_pos := hhealthy.chunk_pos
  prompt_le := hhealthy.prompt_le

theorem get?_provision (cfg : Config) (response : ProvisioningResponse) (t : Terminal)
    (name : String) :
    (provision cfg response t).files.get? name =
      if name ∈ keyFiles then some (contentOf response name) else t.files.get? name :=
  FileStore.get?_foldl_put ..

/-- Healthy injections into terminals that differ in key files only leave the same files and the
same state of the secure storage. -/
theorem inject_alike {h : KeyHost η} {l l' : TerminalLink} {k k' m m' : η} {answer : Bytes}
    (hopen : l.closed = false) (hopen' : l'.closed = false)
    (hhealthy : Healthy cfg l.terminal text response) (hfaults : l'.terminal.faults = .none)
    (hkeeps : KeepsOutside keyFiles l.terminal l'.terminal)
    (hpost : h.post url (requestOf text).body k = (.ok answer, k'))
    (hpost' : h.post url (requestOf text).body m = (.ok answer, m'))
    (hanswer : ProvisioningResponse.ofBytes answer = .ok response) :
    let out := (inject cfg url).run (.of .inProcess h) (l, k)
    let out' := (inject cfg url).run (.of .inProcess h) (l', m)
    out'.value = .ok .healthy ∧
      (∀ name, out'.state.1.terminal.files.get? name = out.state.1.terminal.files.get? name) ∧
      out'.state.1.terminal.secure = out.state.1.terminal.secure := by
  intro out out'
  obtain ⟨-, -, -, log, hterminal⟩ := run_inject_inProcess hopen hhealthy hpost hanswer
  obtain ⟨hvalue, -, -, log', hterminal'⟩ :=
    run_inject_inProcess hopen' (hhealthy.of_keepsOutside hfaults hkeeps) hpost' hanswer
  refine ⟨hvalue, fun name => ?_, ?_⟩
  · rw [hterminal, hterminal']
    show (provision cfg response l'.terminal).files.get? name =
      (provision cfg response l.terminal).files.get? name
    rw [get?_provision, get?_provision]
    split
    case isTrue => rfl
    case isFalse hname => exact hkeeps name hname
  · rw [hterminal, hterminal']
    rfl

/-- An injection after another one, whatever became of that, and with all faults cleared in
between. It succeeds, and the files and the state of the secure storage are then what it alone
would have made of the terminal without faults. In particular, an injection that has succeeded on
its own can be followed by the same once more, and files and state stay what they are. -/
theorem inject_again {η₁ : Type} (l : TerminalLink) (h₁ : KeyHost η₁) (k₁ : η₁) (cfg₁ : Config)
    (url₁ : String) (h : KeyHost η) (k k' m m' : η) (cfg : Config) (url : String)
    (text : String → String) (answer : Bytes) (response : ProvisioningResponse)
    (hopen : l.closed = false) (hhealthy : Healthy cfg l.withoutFaults.terminal text response)
    (hpost : h.post url (requestOf text).body k = (.ok answer, k'))
    (hpost' : h.post url (requestOf text).body m = (.ok answer, m'))
    (hanswer : ProvisioningResponse.ofBytes answer = .ok response) :
    let first := (inject cfg₁ url₁).run (.of .inProcess h₁) (l, k₁)
    let second := (inject cfg url).run (.of .inProcess h) (first.state.1.withoutFaults, m)
    let alone := (inject cfg url).run (.of .inProcess h) (l.withoutFaults, k)
    let twice := (inject cfg url).run (.of .inProcess h) (alone.state.1, m)
    (second.value = .ok .healthy ∧
      (∀ name, second.state.1.terminal.files.get? name =
        alone.state.1.terminal.files.get? name) ∧
      second.state.1.terminal.secure = alone.state.1.terminal.secure) ∧
    (alone.value = .ok .healthy ∧ twice.value = .ok .healthy ∧
      (∀ name, twice.state.1.terminal.files.get? name =
        alone.state.1.terminal.files.get? name) ∧
      twice.state.1.terminal.secure = alone.state.1.terminal.secure) := by
  intro first second alone twice
  obtain ⟨hfirstOpen, hfirst⟩ := keepsOutside_inject h₁ cfg₁ url₁ hopen k₁
  obtain ⟨haloneOpen, halone⟩ := keepsOutside_inject h cfg url (l := l.withoutFaults) hopen k
  obtain ⟨hvalue, -, -, log, hterminal⟩ :=
    run_inject_inProcess (l := l.withoutFaults) hopen hhealthy hpost hanswer
  have hfaults : alone.state.1.terminal.faults = .none := by
    rw [hterminal]
    rfl
  obtain ⟨htwice, htwiceSame⟩ :=
    inject_alike (l := l.withoutFaults) hopen haloneOpen hhealthy hfaults halone hpost hpost'
      hanswer
  have hsecond :=
    inject_alike (l := l.withoutFaults) hopen
      ((TerminalLink.closed_withoutFaults first.state.1).trans hfirstOpen) hhealthy
      (TerminalLink.faults_withoutFaults _) (TerminalLink.keepsOutside_withoutFaults hfirst)
      hpost hpost' hanswer
  exact ⟨hsecond, hvalue, htwice, htwiceSame⟩

/-- The channel to a seeded terminal that stops responding after twelve commands. -/
def faultyLink : TerminalLink :=
  { terminal := { Terminal.seeded false true with faults := { dropResponsesAfter := some 12 } } }

/-- A first injection that gets no further than that. -/
theorem inject_again_seeded :
    faultyLink.closed = false ∧
      Healthy {} faultyLink.withoutFaults.terminal seededText successResponse ∧
      ((inject {} "").run (.of .inProcess .scripted)
        (((inject {} "").run (.of .inProcess .scripted)
          (faultyLink, .ofScript .unreachable)).state.1.withoutFaults,
            .ofScript ScriptedHost.success)).value = .ok .healthy := by
  have hpost := post_scripted (k := .ofScript ScriptedHost.success) rfl "" (requestOf seededText)
  obtain ⟨⟨hvalue, -⟩, -⟩ := inject_again faultyLink .scripted (.ofScript .unreachable) {} ""
    .scripted _ _ _ _ {} "" seededText _ successResponse rfl healthy_seeded hpost hpost
    ofBytes_success
  exact ⟨rfl, healthy_seeded, hvalue⟩

end Injection

end KeyInjection
