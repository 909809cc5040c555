-- SUMMARY: What the commands of requests leave as it is, files above all.
import KeyInjection.Proofs.Terminal.Interfaces
import KeyInjection.Proofs.Transfer.Transcript

/-!
# What stays as it is

Whatever the faults of a terminal, only selections for writing and writes change files, and only
the file selected. Since a selection ends the one before even when it fails, an upload changes no
file but its own, however far it gets. A file command changes nothing else but the selection on its
own interface, and the log (`KeepsRest`).
-/

namespace KeyInjection

namespace Terminal

variable {t : Terminal} {i : Interface} {r : Request} {c : Command}

/-- No file but these differs. -/
def KeepsOutside (names : List String) (t t' : Terminal) : Prop :=
  ∀ name, name ∉ names → t'.files.get? name = t.files.get? name

namespace KeepsOutside

variable {names more : List String} {t t' t'' : Terminal}

theorem of_files_eq (hfiles : t'.files = t.files) : KeepsOutside names t t' :=
  fun name _ => congrArg (·.get? name) hfiles

theorem trans (hfirst : KeepsOutside names t t') (hsecond : KeepsOutside names t' t'') :
    KeepsOutside names t t'' :=
  fun name hname => (hsecond name hname).trans (hfirst name hname)

theorem mono (hsub : names ⊆ more) (hkeeps : KeepsOutside names t t') : KeepsOutside more t t' :=
  fun name hname => hkeeps name fun hmem => hname (hsub hmem)

theorem put {file : String} (content : Bytes) :
    KeepsOutside [file] t { t with files := t.files.put file content } := by
  intro name hname
  show (t.files.put file content).get? name = _
  rw [FileStore.get?_put, if_neg (fun heq => hname (List.mem_singleton.2 heq))]

end KeepsOutside

/-! ## Commands of requests -/

/-- A terminal that responds executes the request of a command, and logs the command. -/
theorem handle_command (hresponds : t.isSilent = false) (hcode : r.command = .ok c) :
    ∃ log, (t.handle i c).2 = (t.execute i r).2.withLog log := by
  refine ⟨(t.obey i c).2.commands.push (t.recordOf i c), ?_⟩
  rw [handle_of_responds hresponds, obey, readCommand_command hcode]
  rfl

/-- What executing any of some requests preserves, their commands preserve. -/
theorem handleAll_submissions {P : Terminal → Prop} {rs : List Request}
    (hstep : ∀ r ∈ rs, ∀ t log, P t → P ((t.execute i r).2.withLog log)) (ht : P t) :
    P (t.handleAll (submissions i rs)) := by
  induction rs generalizing t with
  | nil => exact ht
  | cons r rest ih =>
    have hrest := fun t => ih (t := t) fun r hr => hstep r (List.mem_cons_of_mem _ hr)
    rw [submissions_cons, handleAll_append]
    unfold Request.submission
    cases hcode : r.command with
    | error e => exact hrest _ ht
    | ok c =>
      refine hrest _ ?_
      show P (t.handle i c).2
      cases hsilent : t.isSilent with
      | true => rwa [handle_of_isSilent hsilent]
      | false =>
        obtain ⟨log, hhandled⟩ := handle_command (i := i) hsilent hcode
        rw [hhandled]
        exact hstep r (List.mem_cons_self ..) t log ht

end Terminal

/-! ## Requests that change no file -/

def Request.IsReadOnly : Request → Prop
  | .fileSelect r => r.mode = .read
  | .fileWrite _ => False
  | _ => True

namespace Terminal

variable {t : Terminal} {i : Interface} {r : Request}

theorem Outcome.files_eq {answer : Response} {after : Terminal} (h : Outcome t i r answer after)
    (hr : r.IsReadOnly) : after.files = t.files := by
  cases h with
  | emptied => cases hr
  | extended => exact hr.elim
  | _ => rfl

theorem files_handleAll {rs : List Request} (hrs : ∀ r ∈ rs, r.IsReadOnly) :
    (t.handleAll (submissions i rs)).files = t.files :=
  handleAll_submissions (P := fun t' => t'.files = t.files)
    (fun r hr _ _ hfiles => ((outcome_execute _ i r).files_eq (hrs r hr)).trans hfiles) rfl

/-! ## Writing -/

/-- What is written on an interface goes to this file, if to any. -/
def Aims (i : Interface) (file : String) (t : Terminal) : Prop :=
  ∀ name, t.selected.get i = some name → name = file

/-- Selecting a file for writing changes no other, and what is written next goes to it. -/
theorem Outcome.keepsOutside_truncate {file : String} {answer : Response} {after : Terminal}
    (h : Outcome t i (.fileSelect ⟨.truncate, file⟩) answer after) :
    KeepsOutside [file] t after ∧ Aims i file after := by
  cases h with
  | emptied =>
    refine ⟨.put [], fun name hname => ?_⟩
    simpa using hname.symm
  | notFound =>
    refine ⟨.of_files_eq rfl, fun name hname => ?_⟩
    simp [deselect] at hname

/-- Writing changes no file but the selected one, and leaves it selected. -/
theorem Outcome.keepsOutside_write {file : String} {r : WriteRequest} {answer : Response}
    {after : Terminal} (h : Outcome t i (.fileWrite r) answer after) (haims : Aims i file t) :
    KeepsOutside [file] t after ∧ Aims i file after := by
  cases h with
  | extended hselected =>
    obtain rfl := haims _ hselected
    exact ⟨.put _, haims⟩
  | notExtended => exact ⟨.of_files_eq rfl, haims⟩

theorem keepsOutside_writes {file : String} (haims : Aims i file t) {rs : List Request}
    (hrs : ∀ r ∈ rs, ∃ x, r = .fileWrite x) :
    KeepsOutside [file] t (t.handleAll (submissions i rs)) := by
  refine (handleAll_submissions (P := fun t' => KeepsOutside [file] t t' ∧ Aims i file t') ?_
    ⟨.of_files_eq rfl, haims⟩).1
  rintro r hr t' log ⟨hkeeps, haims⟩
  obtain ⟨x, rfl⟩ := hrs r hr
  obtain ⟨hwritten, haims⟩ := (outcome_execute t' i (.fileWrite x)).keepsOutside_write haims
  exact ⟨hkeeps.trans hwritten, haims⟩

/-- The beginning of an upload changes no file but the one it is for. -/
theorem keepsOutside_upload {file : String}
    (hname : 0 < (textBytes file).length ∧ (textBytes file).length ≤ SelectRequest.maxName)
    {options : TransferOptions} {content : Bytes} {begun : List Request}
    (hbegun : begun <+: Transfer.uploadRequests file options content) :
    KeepsOutside [file] t (t.handleAll (submissions i begun)) := by
  rcases List.prefix_cons_iff.1 hbegun with rfl | ⟨writes, rfl, hwrites⟩
  · exact .of_files_eq rfl
  cases hsilent : t.isSilent with
  | true => exact .of_files_eq (congrArg Terminal.files (handleAll_of_isSilent hsilent _))
  | false =>
    obtain ⟨c, hcode⟩ := exists_command_fileSelect .truncate hname
    obtain ⟨log, hselected⟩ := handle_command (i := i) hsilent hcode
    obtain ⟨hkeeps, haims⟩ :=
      (outcome_execute t i (.fileSelect ⟨.truncate, file⟩)).keepsOutside_truncate
    rw [submissions_cons, Request.submission, hcode, handleAll_append]
    show KeepsOutside [file] t ((t.handle i c).2.handleAll _)
    rw [hselected]
    exact hkeeps.trans (keepsOutside_writes (t := Terminal.withLog _ log) haims fun r hr =>
      Transfer.fileWrite_of_mem_writeRequests (hwrites.subset hr))

/-! ## All but files -/

/-- No file but these differs, nor do the secure storage, what was shown, and the selection on the
other interface. -/
structure KeepsRest (i : Interface) (names : List String) (t t' : Terminal) : Prop where
  files : KeepsOutside names t t'
  secure_eq : t'.secure = t.secure
  display_eq : t'.display = t.display
  selected_eq : ∀ j, j ≠ i → t'.selected.get j = t.selected.get j

/-- Of what is no file, a file command changes the selection on its own interface at most. -/
theorem Outcome.rest_eq {answer : Response} {after : Terminal} (h : Outcome t i r answer after)
    (hr : r.IsForFiles) :
    after.secure = t.secure ∧ after.display = t.display ∧
      ∀ j, j ≠ i → after.selected.get j = t.selected.get j := by
  cases h with
  | shown | notShown | started | notStarted | startIgnored | told | imported | notImported =>
    cases hr
  | opened | emptied =>
    refine ⟨rfl, rfl, fun j hj => ?_⟩
    simp [Ne.symm hj]
  | notFound =>
    refine ⟨rfl, rfl, fun j hj => ?_⟩
    simp [deselect, Ne.symm hj]
  | brought | notBrought | extended | notExtended => exact ⟨rfl, rfl, fun _ _ => rfl⟩

theorem keepsRest_handleAll {names : List String} {rs : List Request}
    (hrs : ∀ r ∈ rs, r.IsForFiles)
    (hfiles : KeepsOutside names t (t.handleAll (submissions i rs))) :
    KeepsRest i names t (t.handleAll (submissions i rs)) := by
  let P := fun t' : Terminal => t'.secure = t.secure ∧ t'.display = t.display ∧
    ∀ j, j ≠ i → t'.selected.get j = t.selected.get j
  have hstep : ∀ r ∈ rs, ∀ t' log, P t' → P ((t'.execute i r).2.withLog log) := by
    rintro r hr t' log ⟨hsecure, hdisplay, hselected⟩
    obtain ⟨hsecure', hdisplay', hselected'⟩ := (outcome_execute t' i r).rest_eq (hrs r hr)
    exact ⟨hsecure'.trans hsecure, hdisplay'.trans hdisplay,
      fun j hj => (hselected' j hj).trans (hselected j hj)⟩
  obtain ⟨hsecure, hdisplay, hselected⟩ : P (t.handleAll (submissions i rs)) :=
    handleAll_submissions hstep ⟨rfl, rfl, fun _ _ => rfl⟩
  exact ⟨hfiles, hsecure, hdisplay, hselected⟩

end Terminal

end KeyInjection
