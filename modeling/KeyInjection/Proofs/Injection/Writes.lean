-- SUMMARY: An injection writes the key files, and changes no others.
import KeyInjection.Proofs.Injection.Contract
import KeyInjection.Proofs.Terminal.Keeping

/-!
# What an injection writes

Only uploads write, and what they write goes into the file that they have selected for it, a key
file. So every write of an injection comes after the selection of a key file (`writesInto_inject`),
and all other files of the terminal stay as they are (`keepsOutside_inject`).
-/

namespace KeyInjection.Injection

open Device Transfer Terminal

variable {η σ : Type} {cfg : Config} {url : String} {t : Terminal}

/-! ## Requests that write -/

/-- Every write comes after a selection for writing of one of these files, and there is no other
selection between the two. At first the given file is selected for writing, if any. -/
def WritesInto (files : List String) : Option String → List Request → Prop
  | _, [] => True
  | _, .fileSelect r :: rest =>
    WritesInto files (if r.mode = .truncate then some r.name else none) rest
  | selected, .fileWrite _ :: rest =>
    (∃ file ∈ files, selected = some file) ∧ WritesInto files selected rest
  | selected, _ :: rest => WritesInto files selected rest

namespace WritesInto

variable {files : List String} {selected : Option String} {first second rs : List Request}

theorem of_isReadOnly (hreads : ∀ r ∈ rs, r.IsReadOnly) : WritesInto files selected rs := by
  induction rs generalizing selected with
  | nil => trivial
  | cons r rest ih =>
    obtain ⟨hr, hrest⟩ := List.forall_mem_cons.1 hreads
    cases r with
    | fileWrite r => exact hr.elim
    | _ => exact ih hrest

theorem of_writes {file : String} (hfile : file ∈ files)
    (hwrites : ∀ r ∈ rs, ∃ x, r = .fileWrite x) : WritesInto files (some file) rs := by
  induction rs with
  | nil => trivial
  | cons r rest ih =>
    obtain ⟨⟨x, rfl⟩, hrest⟩ := List.forall_mem_cons.1 hwrites
    exact ⟨⟨file, hfile, rfl⟩, ih hrest⟩

theorem append (hfirst : WritesInto files selected first)
    (hsecond : ∀ selected, WritesInto files selected second) :
    WritesInto files selected (first ++ second) := by
  induction first generalizing selected with
  | nil => exact hsecond selected
  | cons r rest ih =>
    cases r with
    | fileWrite r => exact ⟨hfirst.1, ih hfirst.2⟩
    | _ => exact ih hfirst

end WritesInto

/-- A phase begins with requests that write nothing, or with those of an upload. -/
theorem isReadOnly_or_upload_of_begins {p : Phase} (hlisted : p.Listed) {begun : List Request}
    (hbegun : p.Begins cfg begun) :
    (∀ r ∈ begun, r.IsReadOnly) ∨
      ∃ file content, file ∈ keyFiles ∧ begun <+: uploadRequests file cfg.upload content := by
  cases p with
  | prompt | start | started | keyImport | confirm | lastPrompt =>
    refine .inl fun r hr => ?_
    rw [List.mem_singleton.1 (hbegun.subset hr)]
    trivial
  | host | derive => exact .inl fun r hr => by cases hbegun.subset hr
  | download file text pieces =>
    obtain ⟨total, brought, hbegun⟩ := hbegun
    refine .inl fun r hr => ?_
    rcases List.mem_cons.1 (hbegun.subset hr) with rfl | hr
    · rfl
    · obtain ⟨x, rfl⟩ := fileRead_of_mem_readRequests hr
      trivial
  | upload file content => exact .inr ⟨file, content, hlisted, hbegun⟩

theorem writesInto_begins {p : Phase} (hlisted : p.Listed) {begun : List Request}
    (hbegun : p.Begins cfg begun) (selected : Option String) :
    WritesInto keyFiles selected begun := by
  rcases isReadOnly_or_upload_of_begins hlisted hbegun with hreads | ⟨file, content, hfile, hbegun⟩
  · exact .of_isReadOnly hreads
  · rcases List.prefix_cons_iff.1 hbegun with rfl | ⟨writes, rfl, hwrites⟩
    · trivial
    · exact WritesInto.of_writes hfile fun r hr =>
        fileWrite_of_mem_writeRequests (hwrites.subset hr)

/-- Going through phases, up to a failure or to the end, writes into key files only. -/
theorem Runs.writesInto {phases : List Phase} (hlisted : ∀ p ∈ phases, p.Listed)
    {talk : List (Step Event)} {r : Except Failure Unit} (hruns : Runs cfg url phases talk r) :
    ∃ requests, commandsOf talk = submissions cfg.interface requests ∧
      ∀ selected, WritesInto keyFiles selected requests := by
  induction hruns with
  | done => exact ⟨[], rfl, fun _ => trivial⟩
  | @fail p later talk f hfail =>
    obtain ⟨begun, hbegun, hcommands, -⟩ := hfail.says
    exact ⟨begun, hcommands, writesInto_begins (hlisted p (List.mem_cons_self ..)) hbegun⟩
  | @pass p later first rest r hpass _ ih =>
    obtain ⟨requests, hcommands, hwrites⟩ := ih fun q hq => hlisted q (List.mem_cons_of_mem _ hq)
    refine ⟨p.requests cfg ++ requests, ?_, fun selected => .append ?_ hwrites⟩
    · rw [commandsOf_append, submissions_append, hpass.says.1, hcommands]
    · exact writesInto_begins (hlisted p (List.mem_cons_self ..)) p.begins_requests selected

/-- Whatever the terminal and the key host do, an injection writes into key files only. -/
theorem writesInto_inject (w : Surroundings σ) (cfg : Config) (url : String) (s : σ) :
    ∃ requests,
      commandsOf ((inject cfg url).run w s).steps = submissions cfg.interface requests ∧
        WritesInto keyFiles none requests := by
  obtain ⟨text, pieces, response, content, report, hruns, -⟩ := runs_of_inject w cfg url s
  obtain ⟨requests, hcommands, hwrites⟩ := hruns.writesInto fun p => listed_of_mem_order
  rw [commandsOf_talkOf] at hcommands
  exact ⟨requests, hcommands, hwrites none⟩

/-! ## Files that no injection changes -/

/-- The requests that a phase begins with change no files but the key files. -/
theorem keepsOutside_begins {p : Phase} (hlisted : p.Listed) {begun : List Request}
    (hbegun : p.Begins cfg begun) :
    KeepsOutside keyFiles t (t.handleAll (submissions cfg.interface begun)) := by
  rcases isReadOnly_or_upload_of_begins hlisted hbegun with hreads | ⟨file, content, hfile, hbegun⟩
  · exact .of_files_eq (files_handleAll hreads)
  · have hname := length_textBytes_file file (List.mem_append_right _ hfile)
    exact (keepsOutside_upload hname hbegun).mono (List.cons_subset.2 ⟨hfile, List.nil_subset _⟩)

/-- Going through phases, up to a failure or to the end, changes no files but the key files. -/
theorem Runs.keepsOutside {phases : List Phase} (hlisted : ∀ p ∈ phases, p.Listed)
    {talk : List (Step Event)} {r : Except Failure Unit} (hruns : Runs cfg url phases talk r) :
    KeepsOutside keyFiles t (t.handleAll (commandsOf talk)) := by
  induction hruns generalizing t with
  | done => exact .of_files_eq rfl
  | @fail p later talk f hfail =>
    obtain ⟨begun, hbegun, hcommands, -⟩ := hfail.says
    rw [hcommands]
    exact keepsOutside_begins (hlisted p (List.mem_cons_self ..)) hbegun
  | @pass p later first rest r hpass _ ih =>
    rw [commandsOf_append, handleAll_append, hpass.says.1]
    have hfirst : KeepsOutside keyFiles t
        (t.handleAll (submissions cfg.interface (p.requests cfg))) :=
      keepsOutside_begins (hlisted p (List.mem_cons_self ..)) p.begins_requests
    exact hfirst.trans (ih fun q hq => hlisted q (List.mem_cons_of_mem _ hq))

/-- However an injection ends, it has changed no files but the key files, and the channel is still
open. -/
theorem keepsOutside_inject (h : KeyHost η) (cfg : Config) (url : String) {l : TerminalLink}
    (hopen : l.closed = false) (k : η) :
    let out := (inject cfg url).run (.of .inProcess h) (l, k)
    out.state.1.closed = false ∧ KeepsOutside keyFiles l.terminal out.state.1.terminal := by
  intro out
  obtain ⟨-, hsteps, ⟨hstill, hterminal⟩, -⟩ :=
    Session.run_inProcess_handling (inject cfg url) h hopen k
  obtain ⟨text, pieces, response, content, report, hruns, -⟩ :=
    runs_of_inject (.of .inProcess h) cfg url (l, k)
  refine ⟨hstill, ?_⟩
  rw [hterminal, Session.terminal_of_run_handling, ← hsteps, ← commandsOf_talkOf]
  exact hruns.keepsOutside fun p => listed_of_mem_order

end KeyInjection.Injection
