-- SUMMARY: What an injection submits to the terminal and posts to the key host, phase by phase.
import KeyInjection.Proofs.Apdu.RoundTrip
import KeyInjection.Proofs.Injection.Dialogue
import KeyInjection.Proofs.Session.Runs
import KeyInjection.Proofs.Transfer.Transcript

/-!
# Transcripts of injections

Each phase has its requests to the terminal and to the key host. An injection that succeeds has
made all of them, in order; one that fails has made those of the phases before the failed one and
has begun with those of the failed one.
-/

namespace KeyInjection.Injection

open Device Transfer

variable {cfg : Config} {url : String}

/-! ## Phases -/

def Phase.requests (cfg : Config) : Phase → List Request
  | prompt text => [.display (.prompt text)]
  | start => [.secureInit]
  | started | confirm _ => [.secureState]
  | download file _ pieces =>
    downloadRequests file cfg.download.maxChunk pieces.flatten.length pieces
  | host .. | derive .. => []
  | upload file content => uploadRequests file cfg.upload content
  | keyImport => [.keyImport]
  | lastPrompt _ => [.display (.prompt cfg.prompts.complete)]

def Phase.posts (url : String) : Phase → List (String × String)
  | host request _ => [(url, request.body)]
  | _ => []

/-- The requests to the terminal that a phase has made when it fails: the first of those that it
makes when it passes. How large the file of a download is, and in which pieces it is read, then is
not known to the end. -/
def Phase.Begins (cfg : Config) : Phase → List Request → Prop
  | download file _ _, begun =>
    ∃ total pieces, begun <+: downloadRequests file cfg.download.maxChunk total pieces
  | p, begun => begun <+: p.requests cfg

theorem Phase.Passes.says {p : Phase} {talk : List (Step Event)} (hpass : p.Passes cfg url talk) :
    commandsOf talk = submissions cfg.interface (p.requests cfg) ∧ postsOf talk = p.posts url := by
  cases p with
  | prompt text =>
    obtain ⟨r, hshows, -⟩ := hpass
    exact ⟨hshows.submits.commands_eq, hshows.submits.posts_eq⟩
  | start =>
    have hsubmits := Commands.submits hpass
    exact ⟨hsubmits.commands_eq, hsubmits.posts_eq⟩
  | started =>
    obtain ⟨state, hquery, -⟩ := hpass
    exact ⟨hquery.submits.commands_eq, hquery.submits.posts_eq⟩
  | download file text pieces =>
    have hsubmits := hpass.1.submits
    exact ⟨hsubmits.commands_eq, hsubmits.posts_eq⟩
  | host request response =>
    obtain ⟨answer, rfl, -⟩ := hpass
    exact ⟨rfl, rfl⟩
  | derive response content =>
    obtain ⟨rfl, -⟩ := hpass
    exact ⟨rfl, rfl⟩
  | upload file content =>
    have hsubmits := Uploads.submits hpass
    exact ⟨hsubmits.commands_eq, hsubmits.posts_eq⟩
  | keyImport =>
    have hsubmits := Imports.submits hpass
    exact ⟨hsubmits.commands_eq, hsubmits.posts_eq⟩
  | confirm state =>
    have hsubmits := hpass.1.submits
    exact ⟨hsubmits.commands_eq, hsubmits.posts_eq⟩
  | lastPrompt warning =>
    have hsubmits := Commands.submits hpass
    exact ⟨hsubmits.commands_eq, hsubmits.posts_eq⟩

theorem Phase.Fails.says {p : Phase} {talk : List (Step Event)} {f : Failure}
    (hfail : p.Fails cfg url talk f) :
    ∃ begun, p.Begins cfg begun ∧ commandsOf talk = submissions cfg.interface begun ∧
      postsOf talk = p.posts url := by
  have hwhole : ∀ {rs}, (∀ begun, begun <+: rs → p.Begins cfg begun) → p.posts url = [] →
      Submits cfg.interface rs talk → ∃ begun, p.Begins cfg begun ∧
        commandsOf talk = submissions cfg.interface begun ∧ postsOf talk = p.posts url :=
    fun hbegins hposts hsubmits =>
      ⟨_, hbegins _ List.prefix_rfl, hsubmits.commands_eq, hsubmits.posts_eq.trans hposts.symm⟩
  cases p with
  | prompt text =>
    obtain ⟨-, e, hshows, -⟩ := hfail
    exact hwhole (fun _ h => h) rfl hshows.submits
  | start =>
    obtain ⟨e, hcommand, -⟩ := hfail
    exact hwhole (fun _ h => h) rfl hcommand.submits
  | started =>
    obtain ⟨-, ⟨e, hquery⟩ | ⟨state, hquery, -⟩⟩ := hfail
    · exact hwhole (fun _ h => h) rfl hquery.submits
    · exact hwhole (fun _ h => h) rfl hquery.submits
  | download file text pieces =>
    obtain ⟨e, hdownload, -⟩ | ⟨brought, hdownload, -⟩ := hfail
    · obtain ⟨total, brought, begun, hprefix, hsubmits⟩ := hdownload.submits_prefix
      exact ⟨begun, ⟨total, brought, hprefix⟩, hsubmits.commands_eq, hsubmits.posts_eq⟩
    · exact hwhole (fun _ h => ⟨_, _, h⟩) rfl hdownload.submits
  | host request response =>
    obtain ⟨e, -, rfl | ⟨answer, rfl, -⟩⟩ := hfail
    · exact ⟨[], List.nil_prefix, rfl, rfl⟩
    · exact ⟨[], List.nil_prefix, rfl, rfl⟩
  | derive response content =>
    obtain ⟨rfl, -⟩ := hfail
    exact ⟨[], List.nil_prefix, rfl, rfl⟩
  | upload file content =>
    obtain ⟨e, hupload, -⟩ := hfail
    obtain ⟨begun, hprefix, hsubmits⟩ := hupload.submits_prefix
    exact ⟨begun, hprefix, hsubmits.commands_eq, hsubmits.posts_eq⟩
  | keyImport =>
    obtain ⟨e, himport, -⟩ := hfail
    exact hwhole (fun _ h => h) rfl himport.submits
  | confirm state =>
    obtain ⟨e, hquery, -⟩ | ⟨state, hquery, -⟩ := hfail
    · exact hwhole (fun _ h => h) rfl hquery.submits
    · exact hwhole (fun _ h => h) rfl hquery.submits
  | lastPrompt warning => exact hfail.elim

/-! ## Runs of phases -/

/-- What has been gone through has been said. -/
theorem Runs.says {phases : List Phase} {talk : List (Step Event)}
    (hruns : Runs cfg url phases talk (.ok ())) :
    commandsOf talk = submissions cfg.interface (phases.flatMap (·.requests cfg)) ∧
      postsOf talk = phases.flatMap (·.posts url) := by
  generalize hok : (.ok () : Except Failure Unit) = r at hruns
  induction hruns with
  | done => exact ⟨rfl, rfl⟩
  | fail => cases hok
  | pass hpass _ ih =>
    obtain ⟨hcommands, hposts⟩ := hpass.says
    obtain ⟨hlater, hlaterPosts⟩ := ih hok
    rw [List.flatMap_cons, List.flatMap_cons, submissions_append]
    exact ⟨by rw [commandsOf_append, hcommands, hlater],
      by rw [postsOf_append, hposts, hlaterPosts]⟩

/-- Every phase that has been gone through has passed. -/
theorem Runs.passes_of_mem {phases : List Phase} {talk : List (Step Event)}
    (hruns : Runs cfg url phases talk (.ok ())) {p : Phase} (hp : p ∈ phases) :
    ∃ part, p.Passes cfg url part := by
  generalize hok : (.ok () : Except Failure Unit) = r at hruns
  induction hruns with
  | done => cases hp
  | fail => cases hok
  | pass hpass _ ih =>
    rcases List.mem_cons.1 hp with rfl | hp
    · exact ⟨_, hpass⟩
    · exact ih hp hok

/-! ## Requests that have no encoding -/

/-- The request has an encoding, or it is for a prompt that is too long. -/
def IsEncodable (r : Request) : Prop :=
  (∃ c, r.command = .ok c) ∨
    ∃ text, r = .display (.prompt text) ∧ DisplayRequest.maxText < (textBytes text).length

theorem isEncodable_prompt (text : String) : IsEncodable (.display (.prompt text)) := by
  by_cases hlong : DisplayRequest.maxText < (textBytes text).length
  · exact .inr ⟨text, rfl, hlong⟩
  · exact .inl (exists_command_prompt_iff.2 (Nat.le_of_not_lt hlong))

/-- The names of the bootstrap and key files can be sent. -/
theorem length_textBytes_file : ∀ file ∈ bootstrapFiles ++ keyFiles,
    0 < (textBytes file).length ∧ (textBytes file).length ≤ SelectRequest.maxName := by
  decide

/-- The file that a phase reads is one of the bootstrap files, one that it writes a key file. -/
def Phase.Listed : Phase → Prop
  | download file .. => file ∈ bootstrapFiles
  | upload file _ => file ∈ keyFiles
  | _ => True

theorem listed_of_mem_order {text : String → String} {pieces : String → List Bytes}
    {response : ProvisioningResponse} {content : String → Bytes} {report : Report} {p : Phase}
    (hp : p ∈ order cfg text pieces response content report) : p.Listed := by
  simp only [order, startPhases, hostPhases, keyPhases, endPhases, List.mem_append, List.mem_cons,
    List.not_mem_nil, or_false] at hp
  rcases hp with ((((rfl | rfl | rfl) | hread) | (rfl | rfl)) | (((rfl | rfl) | hwrite) | rfl)) |
    (rfl | rfl)
  case inl.inl.inl.inr =>
    obtain ⟨file, hfile, rfl⟩ := List.mem_map.1 hread
    exact hfile
  case inl.inr.inl.inr =>
    obtain ⟨file, hfile, rfl⟩ := List.mem_map.1 hwrite
    exact hfile
  all_goals trivial

/-- Of the requests of an injection only those for prompts can lack an encoding. -/
theorem isEncodable_of_begins {text : String → String} {pieces : String → List Bytes}
    {response : ProvisioningResponse} {content : String → Bytes} {report : Report} {p : Phase}
    (hp : p ∈ order cfg text pieces response content report) {begun : List Request}
    (hbegun : p.Begins cfg begun) {r : Request} (hr : r ∈ begun) : IsEncodable r := by
  have hlisted := listed_of_mem_order hp
  cases p with
  | prompt text | lastPrompt warning =>
    rw [List.mem_singleton.1 (hbegun.subset hr)]
    exact isEncodable_prompt _
  | start | started | keyImport | confirm state =>
    rw [List.mem_singleton.1 (hbegun.subset hr)]
    exact .inl ⟨_, rfl⟩
  | host request response | derive response content => cases hbegun.subset hr
  | download file text pieces =>
    obtain ⟨total, brought, hbegun⟩ := hbegun
    rcases List.mem_cons.1 (hbegun.subset hr) with rfl | hr
    · exact .inl (exists_command_fileSelect _
        (length_textBytes_file file (List.mem_append_left _ hlisted)))
    · obtain ⟨x, rfl⟩ := fileRead_of_mem_readRequests hr
      exact .inl ⟨_, rfl⟩
  | upload file content =>
    rcases List.mem_cons.1 (hbegun.subset hr) with rfl | hr
    · exact .inl (exists_command_fileSelect _
        (length_textBytes_file file (List.mem_append_right _ hlisted)))
    · obtain ⟨x, rfl⟩ := fileWrite_of_mem_writeRequests hr
      exact .inl ⟨_, rfl⟩

/-- A phase that passes began in the same way. -/
theorem Phase.begins_requests (p : Phase) : p.Begins cfg (p.requests cfg) := by
  cases p with
  | download file text pieces => exact ⟨_, _, List.prefix_rfl⟩
  | prompt | start | started | host | derive | upload | keyImport | confirm | lastPrompt =>
    exact List.prefix_rfl

theorem isEncodable_of_mem_requests {text : String → String} {pieces : String → List Bytes}
    {response : ProvisioningResponse} {content : String → Bytes} {report : Report}
    {phases : List Phase} (hphases : phases ⊆ order cfg text pieces response content report)
    {r : Request} (hr : r ∈ phases.flatMap (·.requests cfg)) : IsEncodable r := by
  obtain ⟨p, hp, hr⟩ := List.mem_flatMap.1 hr
  exact isEncodable_of_begins (hphases hp) p.begins_requests hr

end KeyInjection.Injection
