-- SUMMARY: Of the key material nothing shows but in what is written into key files.
import KeyInjection.Channel.Script
import KeyInjection.Proofs.Injection.Parts
import KeyInjection.Proofs.Injection.Writes
import KeyInjection.Proofs.Transfer.Lengths

/-!
# Secrecy of key material

Two injections get different key material, of which every field has the same length and can be made
into a file, from a terminal that answers alike in both. Then nothing tells them apart but the bytes
that they write into key files: not how they end, not what they publish, and not what they ask of
the terminal (`inject_secrecy`).
-/

namespace KeyInjection.Injection

open Device Transfer

variable {σ τ : Type} {cfg : Config} {url : String}

/-! ## Scripted surroundings -/

/-- The rests of the scripts of the terminal are the same, the two key hosts have these answers. -/
structure SameButKeys (answer answer' : Bytes) (s s' : Script × ScriptedHost) : Prop where
  entries_eq : s.1.entries = s'.1.entries
  pending_eq : s.1.pending = s'.1.pending
  script_eq : s.2.script = .respond answer
  script_eq' : s'.2.script = .respond answer'

variable {answer answer' : Bytes}

/-- A scripted channel does not look at what is sent. -/
theorem isBlind_scripted :
    IsBlind (.of .scripted .scripted) (.of .scripted .scripted) (SameButKeys answer answer') := by
  rintro i c c' ⟨⟨entries, pending, sent⟩, k⟩ ⟨⟨entries', pending', sent'⟩, k'⟩ -
    ⟨hentries, hpending, hscript, hscript'⟩
  obtain rfl : entries = entries' := hentries
  obtain rfl : pending = pending' := hpending
  cases entries with
  | nil => exact ⟨rfl, rfl, rfl, hscript, hscript'⟩
  | cons entry rest => cases entry <;> exact ⟨rfl, rfl, rfl, hscript, hscript'⟩

/-! ## Key material of one shape -/

/-- Fields of one length that can be made into files. -/
structure SameShape (r r' : ProvisioningResponse) : Prop where
  length_eq : ∀ k ∈ keyFields, (textBytes (k.field r)).length = (textBytes (k.field r')).length
  isHex : ∀ k ∈ keyFields, k.encoding = .hex → Hex.IsHex (k.field r)
  isHex' : ∀ k ∈ keyFields, k.encoding = .hex → Hex.IsHex (k.field r')

variable {r r' : ProvisioningResponse}

/-- Files of one length are made of them. -/
theorem SameShape.length_contentOf_eq (hshape : SameShape r r') :
    ∀ name ∈ keyFiles, (contentOf r name).length = (contentOf r' name).length := by
  intro name hname
  obtain ⟨k, hk, rfl⟩ := List.mem_map.1 hname
  rw [(deriveKeyFiles_of_isHex hshape.isHex).2 k hk, (deriveKeyFiles_of_isHex hshape.isHex').2 k hk,
    KeyField.contentLength, KeyField.contentLength, hshape.length_eq k hk]

/-! ## Parts of two injections -/

/-- The attempts go alike, keys aside. -/
abbrev AlikeButKeys (answer answer' : Bytes) (Q : α → β → Prop) (a : Task α) (a' : Task β) : Prop :=
  Paired (.of .scripted .scripted) (.of .scripted .scripted) (SameButKeys answer answer')
    SameButWritten Q a a'

theorem paired_blaming {w : Surroundings σ} {v : Surroundings τ} {R : σ → τ → Prop}
    {S : List (Step Event) → List (Step Event) → Prop} (hS : Composes S) {Q : α → β → Prop}
    {f : Error → Failure} {a : Attempt Event Error α} {b : Attempt Event Error β}
    (hab : Paired w v R S Q a b) : Paired w v R S Q (blaming f a) (blaming f b) := by
  intro s t hrel
  obtain ⟨hvalue, hsteps, hstate⟩ := hab s t hrel
  rw [run_blaming, run_blaming, Session.run_bind, Session.run_bind]
  dsimp only
  generalize (a.run.run w s).value = x at hvalue
  generalize (b.run.run v t).value = y at hvalue
  cases hvalue with
  | ok hvalue => exact ⟨.ok hvalue, hS.append hsteps hS.nil, hstate⟩
  | error e => exact ⟨.error (f e), hS.append hsteps hS.nil, hstate⟩

/-- The key hosts bring what their answers say. -/
theorem alike_askHost (hr : ProvisioningResponse.ofBytes answer = .ok r)
    (hr' : ProvisioningResponse.ofBytes answer' = .ok r') (request : ProvisioningRequest) :
    AlikeButKeys answer answer' (fun x y => x = r ∧ y = r') (askHost url request)
      (askHost url request) := by
  refine paired_blaming .sameButWritten ?_
  rintro ⟨script, k⟩ ⟨script', k'⟩ ⟨hentries, hpending, hscript, hscript'⟩
  have hask : ∀ {answer r} (script : Script) {k : ScriptedHost}, k.script = .respond answer →
      ProvisioningResponse.ofBytes answer = .ok r →
      ∃ requests, (Session.requestProvisioning url request : Session Event _).run
        (.of .scripted .scripted) (script, k) =
          ⟨.ok r, (script, { k with requests }), [.posted url request.body (.ok answer)]⟩ := by
    intro answer r script k hscript hr
    rw [Session.run_requestProvisioning]
    simp only [Surroundings.of, post_scripted hscript, Except.bind, hr]
    exact ⟨_, rfl⟩
  obtain ⟨requests, hrun⟩ := hask script hscript hr
  obtain ⟨requests', hrun'⟩ := hask script' hscript' hr'
  rw [ExceptT.run_mk, hrun, hrun']
  exact ⟨.ok ⟨rfl, rfl⟩, .cons (.posted _ _) .nil, hentries, hpending, hscript, hscript'⟩

theorem alike_of_unposted {a : Task α} (honly : Only (fun step => step.posted? = none) a) :
    AlikeButKeys answer answer' Eq a a := .of_unposted isBlind_scripted honly

theorem permits_unposted : Permits cfg fun step => step.posted? = none where
  exchanged _ := fun _ _ _ => rfl
  downloaded _ _ := rfl
  uploaded _ _ := rfl

theorem alike_announce (s : Stage) (text : String) :
    AlikeButKeys answer answer' Eq (announce cfg s text) (announce cfg s text) :=
  alike_of_unposted (only_announce rfl (fun _ _ _ => rfl) fun _ => rfl)

theorem alike_writeKeyFile {f f' : KeyFile} (hname : f.name = f'.name)
    (hlength : f.data.length = f'.data.length) :
    AlikeButKeys answer answer' Eq (writeKeyFile cfg f) (writeKeyFile cfg f') := by
  unfold writeKeyFile
  rw [← hname]
  exact (paired_blaming .sameButWritten (paired_upload isBlind_scripted hlength)).bind
    .sameButWritten fun _ _ _ => .pure .sameButWritten rfl

theorem alike_deriveAndWrite (hshape : SameShape r r') :
    AlikeButKeys answer answer' Eq (deriveAndWrite cfg r) (deriveAndWrite cfg r') := by
  unfold deriveAndWrite
  rw [(deriveKeyFiles_of_isHex hshape.isHex).1, (deriveKeyFiles_of_isHex hshape.isHex').1]
  refine (Paired.forM .sameButWritten ?_).bind .sameButWritten fun _ _ _ =>
    alike_of_unposted permits_unposted.only_keyImport
  rw [List.forall₂_map_left_iff, List.forall₂_map_right_iff, List.forall₂_same]
  exact fun name hname => alike_writeKeyFile rfl (hshape.length_contentOf_eq name hname)

/-- All stages go alike. -/
theorem alike_steps (cfg : Config) (url : String)
    (hr : ProvisioningResponse.ofBytes answer = .ok r)
    (hr' : ProvisioningResponse.ofBytes answer' = .ok r') (hshape : SameShape r r') :
    AlikeButKeys answer answer' Eq (steps cfg url) (steps cfg url) := by
  have hjoins : Composes (SameButWritten (ε := Event)) := .sameButWritten
  have hinitialise : AlikeButKeys answer answer' Eq (initialise cfg) (initialise cfg) := by
    rw [initialise_eq]
    exact (alike_announce _ _).bind hjoins fun _ _ _ =>
      alike_of_unposted permits_unposted.only_start
  have hcontact : ∀ request, AlikeButKeys answer answer' (fun x y => x = r ∧ y = r')
      (contactHost cfg url request) (contactHost cfg url request) := by
    intro request
    rw [contactHost_eq]
    exact (alike_announce _ _).bind hjoins fun _ _ _ => alike_askHost hr hr' request
  have hinject : AlikeButKeys answer answer' Eq (injectKeys cfg r) (injectKeys cfg r') := by
    rw [injectKeys_eq, injectKeys_eq]
    exact (alike_announce _ _).bind hjoins fun _ _ _ => alike_deriveAndWrite hshape
  have hconfirm : AlikeButKeys answer answer' Eq (confirm cfg) (confirm cfg) := by
    rw [confirm_eq]
    exact alike_of_unposted ((permits_unposted.only_confirmState rfl).bind fun _ =>
      only_showLast (fun _ _ _ => rfl) fun _ => rfl)
  refine hinitialise.bind hjoins fun _ _ _ =>
    (alike_of_unposted (permits_unposted.only_readBootstrap rfl)).bind hjoins ?_
  rintro request _ rfl
  refine (hcontact request).bind hjoins ?_
  rintro _ _ ⟨rfl, rfl⟩
  exact hinject.bind hjoins fun _ _ _ => hconfirm

/-- Of the key material nothing shows but in what is written into key files. Two injections have the
same script of a terminal, and key hosts that answer with key material of one shape. They end in the
same way, with the same report or the same failure, publish the same events, and make the same
commands; only in payloads of writes, behind the offset and the delay, there may be other bytes, as
many as in the other. All writes are into key files. -/
theorem inject_secrecy (cfg : Config) (url : String) (entries : List ScriptEntry)
    {answer answer' : Bytes} {r r' : ProvisioningResponse}
    (hr : ProvisioningResponse.ofBytes answer = .ok r)
    (hr' : ProvisioningResponse.ofBytes answer' = .ok r') (hshape : SameShape r r') :
    let out := (inject cfg url).run (.of .scripted .scripted)
      ({ entries }, .ofScript (.respond answer))
    let out' := (inject cfg url).run (.of .scripted .scripted)
      ({ entries }, .ofScript (.respond answer'))
    out.value = out'.value ∧ eventsOf out.steps = eventsOf out'.steps ∧
      List.Forall₂ (fun x y => x.1 = y.1 ∧ x.2.SameButWritten y.2) (commandsOf out.steps)
        (commandsOf out'.steps) ∧
      ∃ requests, commandsOf out.steps = submissions cfg.interface requests ∧
        WritesInto keyFiles none requests := by
  intro out out'
  obtain ⟨hvalue, hsteps, -⟩ := alike_steps cfg url hr hr' hshape
    ({ entries }, .ofScript (.respond answer)) ({ entries }, .ofScript (.respond answer'))
    ⟨rfl, rfl, rfl, rfl⟩
  have hvalue := agree_eq_iff.1 hvalue
  have hrecords : SameButWritten out.steps out'.steps := by
    rw [show out = _ from run_inject_steps .., show out' = _ from run_inject_steps ..]
    dsimp only
    rw [← hvalue]
    exact .cons (.published _) (List.rel_append hsteps (.cons (.published _) .nil))
  refine ⟨?_, hrecords.eventsOf_eq, hrecords.commands, writesInto_inject _ cfg url _⟩
  rw [show out = _ from run_inject_steps .., show out' = _ from run_inject_steps ..]
  exact hvalue

/-- The usual answer of the scripted key host and one with other keys, and a terminal that goes
along with the whole injection. -/
theorem inject_secrecy_scripted :
    let members := ScriptedHost.successMembers.map fun member =>
      if member.1 = "kbpk" then (member.1, "fedcba9876543210fedcba9876543210")
      else if member.1 = "pinTr31" then (member.1, "B0096P0TE00N0100KS1800604B120F9292800009")
      else member
    let answer := textBytes (Json.objectText ScriptedHost.successMembers)
    let answer' := textBytes (Json.objectText members)
    let other := { successResponse with
      kbpk := "fedcba9876543210fedcba9876543210"
      pinTr31 := "B0096P0TE00N0100KS1800604B120F9292800009" }
    let accepted : ScriptEntry := .respond (Terminal.bare .success)
    let reply (r : Reply) : ScriptEntry := .respond (Terminal.answering .success r)
    let entries := [accepted, accepted, reply (.secureState ⟨true, false, false⟩)] ++
      bootstrapFiles.flatMap (fun _ => [reply (.selected ⟨1⟩), .respond ⟨.success, [0x31]⟩]) ++
      [accepted, accepted] ++ keyFiles.flatMap (fun _ => [reply (.selected ⟨0⟩), accepted]) ++
      [reply (.imported ⟨0⟩), reply (.secureState .provisioned), accepted]
    let out := (inject {} "host").run (.of .scripted .scripted)
      ({ entries }, .ofScript (.respond answer))
    let out' := (inject {} "host").run (.of .scripted .scripted)
      ({ entries }, .ofScript (.respond answer'))
    ProvisioningResponse.ofBytes answer = .ok successResponse ∧
      ProvisioningResponse.ofBytes answer' = .ok other ∧ SameShape successResponse other ∧
      out.value = out'.value ∧ eventsOf out.steps = eventsOf out'.steps := by
  intro members answer answer' other accepted reply entries
  have hother : ProvisioningResponse.ofBytes answer' = .ok other :=
    (ofBytes_objectText members).trans rfl
  have hshape : SameShape successResponse other :=
    ⟨by decide +kernel, by decide +kernel, by decide +kernel⟩
  obtain ⟨hvalue, hevents, -⟩ :=
    inject_secrecy {} "host" entries ofBytes_success hother hshape
  exact ⟨ofBytes_success, hother, hshape, hvalue, hevents⟩

end KeyInjection.Injection
