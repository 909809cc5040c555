-- SUMMARY: An injection into a terminal that cannot write some key files fails at the first one.
import KeyInjection.Proofs.Injection.Healthy
import KeyInjection.Proofs.Terminal.Uploads

/-!
# Key files that cannot be written

A terminal that cannot write some of the key files lets an injection go on until the first of them
is written. The key files before it are in place by then.
-/

namespace KeyInjection.Injection

open Device Transfer

variable {η : Type} {h : KeyHost η} {k k' : η} {cfg : Config} {t : Terminal}
variable {unwritable before after : List String} {name : String}

/-- Of a key file that cannot be written one piece is sent, and nothing is left. -/
theorem gives_writeKeyFile_unwritable {f : KeyFile} (hfile : f.name ∈ keyFiles)
    (hfaults : t.faults = .unwritable unwritable) (hname : f.name ∈ unwritable)
    (hsome : f.data ≠ []) (hchunk : 0 < cfg.upload.maxChunk) :
    ∃ rs, Gives (.obeying h) cfg.interface (t, k) (writeKeyFile cfg f) rs
      (.error (.uploadFailed f.name (.transferFailed 0)))
      ({ t with
        files := t.files.put f.name []
        selected := t.selected.set cfg.interface (some f.name) }, k) := by
  have hselectable : t.faults.failSelect.contains f.name = false := by
    rw [hfaults]
    rfl
  have hrefused : t.faults.failWrite.contains f.name = true := by
    simpa [hfaults, Faults.unwritable] using hname
  have hlength := length_textBytes_file f.name (List.mem_append_right _ hfile)
  exact ⟨_, (gives_blaming
    (gives_upload_unwritable hselectable hrefused hlength hsome hchunk)).bind_error⟩

/-- The key files before the first that cannot be written are written. -/
theorem gives_writeKeyFiles_unwritable {content : String → Bytes}
    (hfiles : before ++ name :: after ⊆ keyFiles) (hfaults : t.faults = .unwritable unwritable)
    (hbefore : ∀ earlier ∈ before, earlier ∉ unwritable) (hname : name ∈ unwritable)
    (hsize : ∀ earlier ∈ before, (content earlier).length < 0x100000000)
    (hsome : content name ≠ []) (hchunk : 0 < cfg.upload.maxChunk) :
    ∃ rs selected, Gives (.obeying h) cfg.interface (t, k)
      (((before ++ name :: after).map fun name => KeyFile.mk name (content name)).forM
        (writeKeyFile cfg)) rs (.error (.uploadFailed name (.transferFailed 0)))
      ({ t with
        files := (before.foldl (fun files name => files.put name (content name))
          t.files).put name []
        selected }, k) := by
  induction before generalizing t with
  | nil =>
    obtain ⟨rs, hfails⟩ := gives_writeKeyFile_unwritable (h := h) (k := k)
      (f := ⟨name, content name⟩) (hfiles (List.mem_cons_self ..)) hfaults hname hsome hchunk
    exact ⟨rs, _, hfails.bind_error⟩
  | cons earlier rest ih =>
    have hhead : earlier ∈ keyFiles := hfiles (List.mem_cons_self ..)
    have hwritten := gives_writeKeyFile (h := h) (k := k) (f := ⟨earlier, content earlier⟩) hhead
      hfaults (hbefore earlier (List.mem_cons_self ..)) (hsize earlier (List.mem_cons_self ..))
      hchunk
    let written : Terminal :=
      { t with
        files := t.files.put earlier (content earlier)
        selected := t.selected.set cfg.interface (some earlier) }
    obtain ⟨rs, selected, hfails⟩ := ih (t := written)
      (List.Subset.trans (List.subset_cons_self ..) hfiles) hfaults
      (fun name hname => hbefore name (List.mem_cons_of_mem _ hname))
      (fun name hname => hsize name (List.mem_cons_of_mem _ hname))
    exact ⟨_, selected, hwritten.bind hfails⟩

variable {text : String → String} {response : ProvisioningResponse}

/-- An injection into a terminal that would be healthy if it could write all key files fails at the
first that it cannot write. The key files before are in place, that one is empty, and key injection
mode goes on. -/
theorem gives_steps_unwritable {url : String} {answer : Bytes}
    (hhealthy : Healthy cfg { t with faults := .none } text response)
    (hfaults : t.faults = .unwritable unwritable)
    (hpost : h.post url (requestOf text).body k = (.ok answer, k'))
    (hanswer : ProvisioningResponse.ofBytes answer = .ok response)
    (hfiles : keyFiles = before ++ name :: after)
    (hbefore : ∀ earlier ∈ before, earlier ∉ unwritable) (hname : name ∈ unwritable)
    (hsome : contentOf response name ≠ []) :
    ∃ rs t', Gives (.obeying h) cfg.interface (t, k) (steps cfg url) rs
        (.error (.uploadFailed name (.transferFailed 0))) (t', k') ∧
      t'.files = (before.foldl (fun files name => files.put name (contentOf response name))
        t.files).put name [] ∧
      t'.secure = ⟨true, false, false⟩ := by
  obtain ⟨-, hread, hhex, hfield, ⟨hdownload, hupload⟩, hprompts⟩ := hhealthy
  have hderive := (deriveKeyFiles_of_isHex hhex).1
  have hsize := length_contentOf_lt hhex hfield
  have hlisted : before ++ name :: after ⊆ keyFiles := hfiles ▸ List.Subset.refl _
  rw [hfiles] at hderive hsize
  let asked : Terminal := approach cfg t
  let shown : Terminal := { asked with display := asked.display.push cfg.prompts.received }
  obtain ⟨rs, selected, hfails⟩ := gives_writeKeyFiles_unwritable (h := h) (t := shown) (k := k')
    hlisted hfaults hbefore hname
    (fun earlier hearlier => hsize earlier (List.mem_append_left _ hearlier)) hsome hupload
  have hreceived : (textBytes cfg.prompts.received).length ≤ DisplayRequest.maxText :=
    hprompts _ (by simp)
  have hkeys : Gives (.obeying h) cfg.interface (asked, k') (injectKeys cfg response)
      (.display (.prompt cfg.prompts.received) :: rs)
      (.error (.uploadFailed name (.transferFailed 0)))
      ({ shown with
        files := (before.foldl (fun files name => files.put name (contentOf response name))
          t.files).put name []
        selected }, k') := by
    refine gives_enter_bind ((gives_prompt (t := asked) hfaults hreceived).bind ?_)
    rw [hderive]
    exact hfails.bind_error
  have hearly : ∀ prompt ∈ [cfg.prompts.preparing, cfg.prompts.connecting],
      (textBytes prompt).length ≤ DisplayRequest.maxText :=
    fun prompt hprompt => hprompts prompt (List.mem_append_left _ hprompt)
  exact ⟨_, _, gives_steps_of_injectKeys hfaults hread hdownload hearly hpost hanswer
    hkeys.bind_error, rfl, rfl⟩

/-- So it does over a channel in the same process. -/
theorem run_inject_unwritable {l : TerminalLink} {url : String} {answer : Bytes}
    (hopen : l.closed = false)
    (hhealthy : Healthy cfg { l.terminal with faults := .none } text response)
    (hfaults : l.terminal.faults = .unwritable unwritable)
    (hpost : h.post url (requestOf text).body k = (.ok answer, k'))
    (hanswer : ProvisioningResponse.ofBytes answer = .ok response)
    (hfiles : keyFiles = before ++ name :: after)
    (hbefore : ∀ earlier ∈ before, earlier ∉ unwritable) (hname : name ∈ unwritable)
    (hsome : contentOf response name ≠ []) :
    let out := (inject cfg url).run (.of .inProcess h) (l, k)
    out.value = .error (.uploadFailed name (.transferFailed 0)) ∧
      out.state.1.terminal.files =
        (before.foldl (fun files name => files.put name (contentOf response name))
          l.terminal.files).put name [] ∧
      out.state.1.terminal.secure = ⟨true, false, false⟩ := by
  intro out
  obtain ⟨rs, t', hgives, hleft, hsecure⟩ := gives_steps_unwritable hhealthy hfaults hpost hanswer
    hfiles hbefore hname hsome
  have hunlimited : l.terminal.faults.dropResponsesAfter = none := by
    rw [hfaults]
    rfl
  obtain ⟨hvalue, hsent, log, hterminal⟩ := hgives.run_inProcess hopen hunlimited
  have hsteps : Gives (.of .inProcess h) cfg.interface (l, k) (steps cfg url) rs
      (.error (.uploadFailed name (.transferFailed 0)))
      ((steps cfg url).run.run (.of .inProcess h) (l, k)).state := ⟨hvalue, rfl, hsent⟩
  obtain ⟨hresult, hstate, -⟩ := run_inject hsteps
  replace hterminal : out.state.1.terminal = t'.withLog log := hstate ▸ hterminal
  refine ⟨hresult, ?_, ?_⟩
  · rw [hterminal, ← hleft]
    rfl
  · rw [hterminal, ← hsecure]
    rfl

end KeyInjection.Injection
