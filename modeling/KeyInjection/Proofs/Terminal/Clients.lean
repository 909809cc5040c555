-- SUMMARY: Clients that move files on different interfaces of a terminal do not disturb each other.
import KeyInjection.Proofs.Session.Turns
import KeyInjection.Proofs.Terminal.Interfaces
import KeyInjection.Proofs.Terminal.Keeping
import KeyInjection.Proofs.Transfer.Moves

/-!
# Clients on both interfaces

File commands that come on the two interfaces of a terminal, in whatever order, are answered as if
those on the other interface had not come, as long as neither interface alters a file of the other.
So clients that move different files need not wait for each other between exchanges
(`interfaces_apart`): a transfer selects its file before it moves it, and so looks at no other file,
whatever was selected before.
-/

namespace KeyInjection

variable {ε η : Type}

theorem PerInterface.ext_get {p q : PerInterface α} (hget : ∀ i, p.get i = q.get i) : p = q := by
  obtain ⟨a, b⟩ := p
  obtain ⟨c, d⟩ := q
  obtain rfl : a = c := hget .primary
  obtain rfl : b = d := hget .secondary
  rfl

/-! ## Transfers stay within their files -/

namespace Terminal

variable {altered : Interface → String → Prop} {t : Terminal} {i : Interface} {c : Command}
variable {name : String} {mode : SelectMode}

theorem Within.append {first second : List (Interface × Command)}
    (hfirst : Within altered i t first) (hsecond : Within altered i (t.handleAll first) second) :
    Within altered i t (first ++ second) := by
  induction hfirst with
  | nil => exact hsecond
  | cons hc hspared haltered _ ih => exact .cons hc hspared haltered (ih hsecond)

/-- The interface may look at the file, and alter it if that is what it is selected for. -/
structure MayMove (altered : Interface → String → Prop) (i : Interface) (mode : SelectMode)
    (name : String) : Prop where
  spared : Spared altered i name
  altered_of_truncate : mode = .truncate → altered i name

/-- A command about a file that may be moved stays within it, and no other file is selected then. -/
theorem MayMove.within_cons (hmay : MayMove altered i mode name)
    (hunlimited : t.faults.dropResponsesAfter = none) (hc : c.IsForFiles)
    (hfile : ∀ other, (t.recordOf i c).file = some other → other = name)
    (hwriting : c.isWriting = true → mode = .truncate) {rest : List (Interface × Command)}
    (hrest : ∀ t', t'.faults.dropResponsesAfter = none → Aims i name t' →
      Within altered i t' rest) :
    Within altered i t ((i, c) :: rest) := by
  refine .cons hc ?_ ?_ (hrest _ (unlimited_handle hunlimited i c) ?_)
  · intro other hother
    rw [hfile other hother]
    exact hmay.spared
  · intro hwrites other hother
    rw [hfile other hother]
    exact hmay.altered_of_truncate (hwriting hwrites)
  · intro other hselected
    rw [handle_of_responds (isSilent_of_unlimited hunlimited)] at hselected
    exact hfile other ((obeyed_obey t i c).file_of_selected hselected)

/-- Moves stay within the selected file. -/
theorem MayMove.within_moves (hmay : MayMove altered i mode name)
    (hunlimited : t.faults.dropResponsesAfter = none) (haims : Aims i name t)
    {steps : List (Step ε)} (hmoves : ∀ step ∈ steps, Transfer.IsMove i mode step) :
    Within altered i t (commandsOf steps) := by
  induction steps generalizing t with
  | nil => exact .nil
  | cons step rest ih =>
    obtain ⟨hmove, hrest⟩ := List.forall_mem_cons.1 hmoves
    cases step with
    | posted url body answer => exact hmove.elim
    | published e => exact ih hunlimited haims hrest
    | exchanged j c answer =>
      obtain ⟨rfl, hread⟩ := hmove
      have hlater : ∀ t', t'.faults.dropResponsesAfter = none → Aims j name t' →
          Within altered j t' (commandsOf rest) := fun t' hunlimited haims =>
        ih hunlimited haims hrest
      rcases hread with ⟨r, hread⟩ | ⟨hmode, r, hread⟩
      · have hfile : (t.recordOf j c).file = t.selected.get j :=
          file_recordOf_of_ne (by simp [hread])
        have hc : c.IsForFiles := (Command.isForFiles_iff hread).2 (.read r)
        refine hmay.within_cons hunlimited hc (by rwa [hfile]) ?_ hlater
        simp [Command.isWriting, hread]
      · have hfile : (t.recordOf j c).file = t.selected.get j :=
          file_recordOf_of_ne (by simp [hread])
        have hc : c.IsForFiles := (Command.isForFiles_iff hread).2 (.write r)
        exact hmay.within_cons hunlimited hc (by rwa [hfile]) (fun _ => hmode) hlater

/-- A transfer stays within its file, whatever was selected before. -/
theorem MayMove.within_movesFile (hmay : MayMove altered i mode name)
    (hunlimited : t.faults.dropResponsesAfter = none) {steps : List (Step ε)}
    (hmoves : Transfer.MovesFile i mode name steps) : Within altered i t (commandsOf steps) := by
  cases hmoves with
  | nothing => exact .nil
  | @moved c answer rest hselect hrest =>
    have hc : c.IsForFiles := (Command.isForFiles_iff hselect).2 (.select _)
    refine hmay.within_cons hunlimited hc ?_ ?_ ?_
    · intro other hother
      rw [file_recordOf_select hselect] at hother
      exact (Option.some.inj hother).symm
    · simp [Command.isWriting, hselect]
    · intro t' hunlimited haims
      exact hmay.within_moves hunlimited haims hrest

end Terminal

/-! ## Clients that stay within their files -/

open Terminal

/-- Alone, the client sends no command but within its files, and asks no key host. -/
structure Session.StaysWithin (altered : Interface → String → Prop) (h : KeyHost η) (i : Interface)
    (p : Session ε α) (own : Terminal × η) : Prop where
  within : Within altered i own.1 (commandsOf (p.run (.handling h) own).steps)
  posts_eq : postsOf (p.run (.handling h) own).steps = []

/-- The link is open to a terminal that responds and keeps the interfaces apart. -/
structure TerminalLink.KeepsApart (altered : Interface → String → Prop) (l : TerminalLink)
    (own : Interface → Terminal) : Prop where
  open_eq : l.closed = false
  unlimited : l.terminal.faults.dropResponsesAfter = none
  apart : Apart altered l.terminal own

section Clients

variable {altered : Interface → String → Prop} {h : KeyHost η}

/-- In an exchange within the files of its interface the link answers as it would alone. -/
theorem TerminalLink.KeepsApart.exchange {l : TerminalLink} {own : Interface → Terminal}
    (hapart : l.KeepsApart altered own) {i j : Interface} {c : Command}
    {rest : List (Interface × Command)} (hwithin : Within altered i (own i) ((j, c) :: rest)) :
    (Channel.inProcess.exchange j c l).1 = ofReceived (.ok ((own i).handle j c).1) ∧
      (Channel.inProcess.exchange j c l).2.KeepsApart altered
        (Function.update own i ((own i).handle j c).2) := by
  obtain ⟨hanswer, hterminal, hopen⟩ := TerminalLink.exchange_handling hapart.open_eq j c
  cases hwithin with
  | cons hc hspared haltered _ =>
    obtain ⟨hsame, hmoved⟩ := hapart.apart.handle hapart.unlimited hc hspared haltered
    refine ⟨?_, hopen, ?_, ?_⟩
    · rw [hanswer, hsame]
    · rw [hterminal]
      exact unlimited_handle hapart.unlimited _ c
    · rw [hterminal]
      exact hmoved

/-- Clients that stay within their files are in line with their runs alone. -/
theorem follows_of_staysWithin :
    Session.Follows (ε := ε) (α := α) (.of .inProcess h) (.handling h)
      (fun s own => s.1.KeepsApart altered (Prod.fst ∘ own))
      (Session.StaysWithin altered h) where
  advance {i p s own} hrel hp := by
    obtain ⟨hwithin, hposts⟩ := hp
    cases p with
    | done a =>
      refine ⟨rfl, rfl, ?_, hwithin, hposts⟩
      show s.1.KeepsApart altered (Prod.fst ∘ Function.update own i (own i))
      rw [Function.update_eq_self]
      exact hrel
    | exchange j c next =>
      rw [Session.run_exchange] at hwithin hposts
      change Within altered i (own i).1 ((j, c) :: commandsOf _) at hwithin
      obtain ⟨hanswer, hmoved⟩ := hrel.exchange hwithin
      refine ⟨congrArg next hanswer, ?_, ?_, ?_, hposts⟩
      · exact congrArg (fun answer => [Step.exchanged j c answer]) hanswer
      · rw [Function.comp_update]
        exact hmoved
      · cases hwithin with
        | cons _ _ _ hrest => exact hrest
    | post url body next =>
      rw [Session.run_post] at hposts
      simp [Step.posted?] at hposts
    | publish e next =>
      rw [Session.run_publish] at hwithin hposts
      refine ⟨rfl, rfl, ?_, hwithin, hposts⟩
      show s.1.KeepsApart altered (Prod.fst ∘ Function.update own i (own i))
      rw [Function.update_eq_self]
      exact hrel

/-- Transfers one after the other stay within their files. -/
theorem Operation.staysWithin_sequence {i : Interface} {ops : List Operation}
    (hops : ∀ op ∈ ops, ∃ mode name, op.Moves i name mode ∧ MayMove altered i mode name)
    {own : Terminal × η} (hunlimited : own.1.faults.dropResponsesAfter = none) :
    (sequence ops).StaysWithin altered h i own := by
  induction ops generalizing own with
  | nil => exact ⟨.nil, rfl⟩
  | cons op rest ih =>
    obtain ⟨⟨mode, name, hop, hmay⟩, hrest⟩ := List.forall_mem_cons.1 hops
    have hmoves := hop.movesFile (Session.generates_run (.handling h) op.session own)
    have hstate := Session.terminal_of_run_handling op.session h own.1 own.2
    have hfaults : (op.session.run (.handling h) own).state.1.faults = own.1.faults := by
      rw [hstate, handleAll_faults]
    obtain ⟨hwithin, hposts⟩ := ih hrest (hfaults ▸ hunlimited)
    rw [hstate] at hwithin
    have hrun : (sequence (op :: rest)).run (.handling h) own =
        let first := op.session.run (.handling h) own
        let later := (sequence rest).run (.handling h) first.state
        ⟨first.value :: later.value, later.state, first.steps ++ later.steps⟩ := by
      rw [sequence, Session.run_bind]
      dsimp only
      rw [Session.run_map]
    constructor
    · rw [hrun]
      dsimp only
      rw [commandsOf_append]
      exact (hmay.within_movesFile hunlimited hmoves).append hwithin
    · rw [hrun]
      dsimp only
      rw [postsOf_append, hposts, hmoves.postsOf_eq]
      rfl

end Clients

/-! ## Interfaces do not disturb each other -/

/-- File commands on both interfaces, in the order in which they come: no file that both have
selected at the beginning, or name in a selection, is altered by either. -/
structure Terminal.Separate (t : Terminal) (order : List (Interface × Command)) : Prop where
  for_files : ∀ x ∈ order, x.2.IsForFiles
  not_altered : ∀ name ∈ t.filesNamed .primary (onInterface .primary order),
    name ∈ t.filesNamed .secondary (onInterface .secondary order) →
      ∀ i, name ∉ t.filesAltered (onInterface i order)

/-- Transfers on both interfaces: no file that is moved on one is uploaded on the other. -/
structure Operation.Separate (ops : Interface → List Operation) : Prop where
  moves (i : Interface) : ∀ op ∈ ops i, ∃ mode name, op.Moves i name mode
  not_uploaded (i j : Interface) (hne : j ≠ i) : ∀ op ∈ ops i, ∀ other ∈ ops j, ∀ mode name,
    op.Moves i name mode → ¬ other.Moves j name .truncate

/-- A command on this interface alters the file. -/
def Terminal.AlteredIn (t : Terminal) (order : List (Interface × Command)) (i : Interface)
    (name : String) : Prop :=
  name ∈ t.filesAltered (onInterface i order)

/-- An operation on this interface uploads the file. -/
def Operation.UploadedIn (ops : Interface → List Operation) (i : Interface) (name : String) :
    Prop :=
  ∃ op ∈ ops i, op.Moves i name .truncate

namespace Terminal

variable {t : Terminal} {order : List (Interface × Command)} {i : Interface} {name : String}

theorem isSome_of_mem_answers (hunlimited : t.faults.dropResponsesAfter = none) :
    ∀ x ∈ t.answers order, x.2.isSome := by
  induction order generalizing t with
  | nil => simp [answers]
  | cons x rest ih =>
    obtain ⟨i, c⟩ := x
    refine List.forall_mem_cons.2 ⟨?_, ih (unlimited_handle hunlimited i c)⟩
    rw [handle_of_responds (isSilent_of_unlimited hunlimited)]
    rfl

theorem Separate.of_mem_onInterface (hseparate : t.Separate order) :
    ∀ x ∈ onInterface i order, x.1 = i ∧ x.2.IsForFiles := by
  intro x hx
  obtain ⟨hmem, hi⟩ := mem_onInterface.1 hx
  exact ⟨hi, hseparate.for_files x hmem⟩

/-- Which commands are separate depends on what comes on each interface only. -/
theorem Separate.of_onInterface_eq (hseparate : t.Separate order)
    {order' : List (Interface × Command)}
    (hsame : ∀ i, onInterface i order' = onInterface i order) : t.Separate order' := by
  refine ⟨?_, by simpa only [hsame] using hseparate.not_altered⟩
  intro x hx
  have hmem : x ∈ onInterface x.1 order' := mem_onInterface.2 ⟨hx, rfl⟩
  rw [hsame] at hmem
  exact (hseparate.of_mem_onInterface x hmem).2

section Orders

variable (hseparate : t.Separate order) (hunlimited : t.faults.dropResponsesAfter = none)
include hseparate hunlimited

/-- A file that one interface names is not altered on the other. -/
theorem Separate.spared (hnamed : name ∈ t.filesNamed i (onInterface i order)) :
    Spared (t.AlteredIn order) i name := by
  intro j hj haltered
  have hother : name ∈ t.filesNamed j (onInterface j order) :=
    filesAltered_subset_filesNamed hunlimited hseparate.of_mem_onInterface haltered
  cases i <;> cases j
  · exact hj rfl
  · exact hseparate.not_altered name hnamed hother _ haltered
  · exact hseparate.not_altered name hother hnamed _ haltered
  · exact hj rfl

/-- Some interface sees what becomes of the file: the one that alters it, if any does. -/
theorem Separate.exists_spared (name : String) : ∃ i, Spared (t.AlteredIn order) i name := by
  by_cases haltered : t.AlteredIn order .secondary name
  · refine ⟨.secondary, hseparate.spared hunlimited ?_⟩
    exact filesAltered_subset_filesNamed hunlimited hseparate.of_mem_onInterface haltered
  · refine ⟨.primary, fun j hj => ?_⟩
    cases j with
    | primary => exact absurd rfl hj
    | secondary => exact haltered

/-- Each interface gets the answers that it would get alone, and leaves what it would leave. -/
theorem Separate.handleAll (i : Interface) :
    onInterface i (t.answers order) = t.answers (onInterface i order) ∧
      Alike i (Spared (t.AlteredIn order) i) (t.handleAll order)
        (t.handleAll (onInterface i order)) := by
  have hstart : Apart (t.AlteredIn order) t fun _ => t := fun _ => .refl
  refine hstart.handleAll hunlimited ?_ i
  intro j
  exact within_of_named hunlimited hseparate.of_mem_onInterface
    (fun name hnamed => hseparate.spared hunlimited hnamed) fun name haltered => haltered

end Orders

end Terminal

/-- Clients that move files end as each would alone, whatever the order of their steps. -/
theorem Operation.Separate.takeTurns {ops : Interface → List Operation}
    (hseparate : Operation.Separate ops) (h : KeyHost η) {l : TerminalLink}
    (hopen : l.closed = false) (hunlimited : l.terminal.faults.dropResponsesAfter = none) (k : η)
    (turns : List Interface) (i : Interface) :
    let together := Session.takeTurns (.of .inProcess h) turns
      (fun i => Operation.sequence (ops i)) (l, k)
    let alone := (Operation.sequence (ops i)).run (.of .inProcess h) (l, k)
    together.1 i = (alone.value, alone.steps) ∧
      Alike i (Spared (Operation.UploadedIn ops) i) together.2.1.terminal
        alone.state.1.terminal := by
  intro together alone
  have hstart : l.KeepsApart (Operation.UploadedIn ops) (Prod.fst ∘ fun _ => (l.terminal, k)) :=
    ⟨hopen, hunlimited, fun _ => .refl⟩
  have hwithin : ∀ j, (Operation.sequence (ops j)).StaysWithin (Operation.UploadedIn ops) h j
      (l.terminal, k) := by
    intro j
    refine Operation.staysWithin_sequence ?_ hunlimited
    intro op hop
    obtain ⟨mode, name, hmoves⟩ := hseparate.moves j op hop
    refine ⟨mode, name, hmoves, ?_, ?_⟩
    · rintro other hother ⟨op', hop', huploads⟩
      exact hseparate.not_uploaded j other hother op hop op' hop' mode name hmoves huploads
    · rintro rfl
      exact ⟨op, hop, hmoves⟩
  obtain ⟨hvalues, hleft⟩ := follows_of_staysWithin.takeTurns (s := (l, k)) turns hstart hwithin
  obtain ⟨hvalue, hsteps, ⟨-, hterminal⟩, -⟩ :=
    Session.run_inProcess_handling (Operation.sequence (ops i)) h hopen k
  constructor
  · rw [hvalue, hsteps]
    exact hvalues i
  · rw [hterminal]
    exact hleft.apart i

/-- Interfaces do not disturb each other. Of file commands that come in any order, each is answered,
as if those on the other interface had not come, and the selections and files that are left do not
depend on the order. Hence clients that move files on both interfaces end as each would alone,
whatever the order of their exchanges: with the same results, the same record, the same selection,
and the same content of every file that the other does not upload. -/
theorem interfaces_apart {t : Terminal} (hunlimited : t.faults.dropResponsesAfter = none)
    (h : KeyHost η) :
    (∀ order, t.Separate order →
      (∀ x ∈ t.answers order, x.2.isSome) ∧
      (∀ i, onInterface i (t.answers order) = t.answers (onInterface i order) ∧
        (t.handleAll order).selected.get i =
          (t.handleAll (onInterface i order)).selected.get i ∧
        ∀ name, (∀ j, j ≠ i → name ∉ t.filesAltered (onInterface j order)) →
          (t.handleAll order).files.get? name =
            (t.handleAll (onInterface i order)).files.get? name) ∧
      ∀ order', (∀ i, onInterface i order' = onInterface i order) →
        (t.handleAll order').selected = (t.handleAll order).selected ∧
          ∀ name, (t.handleAll order').files.get? name = (t.handleAll order).files.get? name) ∧
    ∀ (l : TerminalLink) (k : η) (ops : Interface → List Operation), l.closed = false →
      l.terminal = t → Operation.Separate ops → ∀ turns,
        let together := Session.takeTurns (.of .inProcess h) turns
          (fun i => Operation.sequence (ops i)) (l, k)
        ∀ i,
          let alone := (Operation.sequence (ops i)).run (.of .inProcess h) (l, k)
          together.1 i = (alone.value, alone.steps) ∧
            together.2.1.terminal.selected.get i = alone.state.1.terminal.selected.get i ∧
            ∀ name, (∀ j, j ≠ i → ∀ op ∈ ops j, ¬ op.Moves j name .truncate) →
              together.2.1.terminal.files.get? name = alone.state.1.terminal.files.get? name := by
  constructor
  · intro order hseparate
    have halone := fun i => hseparate.handleAll hunlimited i
    refine ⟨isSome_of_mem_answers hunlimited,
      fun i => ⟨(halone i).1, (halone i).2.selected_eq, (halone i).2.files_eq⟩, ?_⟩
    intro order' hsame
    have haltered : t.AlteredIn order' = t.AlteredIn order := by
      funext i name
      rw [AlteredIn, AlteredIn, hsame]
    have halone' := fun i => (hseparate.of_onInterface_eq hsame).handleAll hunlimited i
    simp only [haltered, hsame] at halone'
    constructor
    · apply PerInterface.ext_get
      intro i
      exact (halone' i).2.selected_eq.trans (halone i).2.selected_eq.symm
    · intro name
      obtain ⟨i, hspared⟩ := hseparate.exists_spared hunlimited name
      exact ((halone' i).2.files_eq name hspared).trans ((halone i).2.files_eq name hspared).symm
  · intro l k ops hopen hterminal hseparate turns together i alone
    subst hterminal
    obtain ⟨hresult, hleft⟩ := hseparate.takeTurns h hopen hunlimited k turns i
    refine ⟨hresult, hleft.selected_eq, fun name hkept => hleft.files_eq name ?_⟩
    rintro j hj ⟨op, hop, huploads⟩
    exact hkept j hj op hop huploads

/-- A terminal with one file, which both interfaces select while one of them also writes another. -/
theorem interfaces_apart_shared :
    let t : Terminal := { files := .ofList [("b", [7, 8, 9])] }
    let selectShared : Command := ⟨⟨0xd0, 0x30, 0, 0⟩, [0, 1, 0, 0, 0x62]⟩
    let selectOwn : Command := ⟨⟨0xd0, 0x30, 0, 0⟩, [1, 1, 0, 0, 0x61]⟩
    let read : Command := ⟨⟨0xd0, 0x31, 0, 0⟩, [3, 0, 0, 0, 0, 0, 0, 0, 3, 0, 0, 0]⟩
    let write : Command := ⟨⟨0xd0, 0x32, 0, 0⟩, [0, 0, 0, 0, 0, 0, 0, 0, 1, 2]⟩
    let order := [(.secondary, selectShared), (.primary, selectOwn), (.secondary, read),
      (.primary, write), (.primary, selectShared)]
    let ops
      | Interface.primary => [Operation.upload .primary "a" [1, 2] 0 2 ⟨1, 1, 0⟩]
      | Interface.secondary => [Operation.download .secondary "b" ⟨2, 2, 0⟩]
    let clients := fun i => Operation.sequence (ops i)
    let turns : List Interface := [.primary, .secondary, .secondary, .primary]
    let w := Surroundings.of .inProcess .scripted
    let start := (({ terminal := t } : TerminalLink), ScriptedHost.ofScript .unreachable)
    t.faults.dropResponsesAfter = none ∧ t.Separate order ∧
      onInterface .secondary (t.answers order) = t.answers (onInterface .secondary order) ∧
      Operation.Separate ops ∧
      (Session.takeTurns w turns clients start).1 .secondary =
        (((clients .secondary).run w start).value, ((clients .secondary).run w start).steps) := by
  intro t selectShared selectOwn read write order ops clients turns w start
  have hseparate : t.Separate order := by
    have hnamed : ∀ name ∈ t.filesNamed .primary (onInterface .primary order),
        name ∈ t.filesNamed .secondary (onInterface .secondary order) →
          name ∉ t.filesAltered (onInterface .primary order) ∧
            name ∉ t.filesAltered (onInterface .secondary order) := by decide +kernel
    refine ⟨by decide +kernel, ?_⟩
    intro name hname hother i
    cases i with
    | primary => exact (hnamed name hname hother).1
    | secondary => exact (hnamed name hname hother).2
  have htransfers : Operation.Separate ops := by
    constructor
    · intro i op hop
      cases i with
      | primary =>
        obtain rfl := List.mem_singleton.1 hop
        exact ⟨_, _, .upload ..⟩
      | secondary =>
        obtain rfl := List.mem_singleton.1 hop
        exact ⟨_, _, .download ..⟩
    · intro i j hne op hop other hother mode name hmoves huploads
      cases j with
      | secondary =>
        obtain rfl := List.mem_singleton.1 hother
        cases huploads
      | primary =>
        obtain rfl := List.mem_singleton.1 hother
        obtain rfl : name = "a" := by cases huploads; rfl
        cases i with
        | primary => exact hne rfl
        | secondary =>
          obtain rfl := List.mem_singleton.1 hop
          generalize hname : "a" = name at hmoves
          cases hmoves
          exact absurd hname (by decide)
  obtain ⟨horders, hclients⟩ := interfaces_apart (t := t) rfl KeyHost.scripted
  refine ⟨rfl, hseparate, ((horders order hseparate).2.1 .secondary).1, htransfers, ?_⟩
  exact (hclients _ _ ops rfl rfl htransfers _ .secondary).1

end KeyInjection
