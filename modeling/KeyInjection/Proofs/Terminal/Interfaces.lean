-- SUMMARY: File commands on one interface leave alone what the other interface looks at.
import KeyInjection.Proofs.Apdu.RoundTrip
import KeyInjection.Proofs.Terminal.Obeying
import Mathlib.Logic.Function.Basic

/-!
# Interfaces next to each other

The interfaces of a terminal share its files, and each has a selection of its own. A file command
looks at one file only, the one that it selects or the one selected before (`CommandRecord.file`),
and changes none but that one. So next to the terminal one may keep, for each interface, the
terminal as it would be had nothing come on the other. `Apart` says that the two agree in the
selection and in all files that the other interface leaves alone; file commands keep it
(`Apart.handle`) as long as none looks at a file that the other interface alters.
-/

namespace KeyInjection

/-! ## File commands -/

/-- The command is a selection, a read or a write, with any payload. -/
def Command.IsForFiles (c : Command) : Prop :=
  c.header.ins = Instruction.fileSelect.code ∨ c.header.ins = Instruction.fileRead.code ∨
    c.header.ins = Instruction.fileWrite.code

instance (c : Command) : Decidable c.IsForFiles := inferInstanceAs (Decidable (_ ∨ _ ∨ _))

/-- The request is a selection, a read or a write. -/
inductive Request.IsForFiles : Request → Prop where
  | select (r : SelectRequest) : IsForFiles (.fileSelect r)
  | read (r : ReadRequest) : IsForFiles (.fileRead r)
  | write (r : WriteRequest) : IsForFiles (.fileWrite r)

/-- Whether a command asks for a file to be altered: it selects one for writing, or writes. -/
def Command.isWriting (c : Command) : Bool :=
  match Terminal.readCommand c with
  | .ok (.fileSelect r) => r.mode = .truncate
  | .ok (.fileWrite _) => true
  | _ => false

theorem Command.isForFiles_iff {c : Command} {r : Request}
    (hread : Terminal.readCommand c = .ok r) : c.IsForFiles ↔ r.IsForFiles := by
  have hins := Terminal.code_of_readCommand hread
  rw [IsForFiles, ← hins, Instruction.code_inj, Instruction.code_inj, Instruction.code_inj]
  constructor
  · intro hc
    cases r with
    | fileSelect r => exact .select r
    | fileRead r => exact .read r
    | fileWrite r => exact .write r
    | display | secureInit | secureState | keyImport => simp [Request.instruction] at hc
  · intro hr
    cases hr <;> simp [Request.instruction]

/-- The commands of a list that were issued on an interface, or what goes with them. -/
def onInterface (i : Interface) (items : List (Interface × β)) : List (Interface × β) :=
  items.filter (·.1 = i)

@[simp] theorem onInterface_cons (i j : Interface) (b : β) (rest : List (Interface × β)) :
    onInterface i ((j, b) :: rest) =
      if j = i then (j, b) :: onInterface i rest else onInterface i rest := by
  simp [onInterface, List.filter_cons]

theorem mem_onInterface {i : Interface} {items : List (Interface × β)} {x : Interface × β} :
    x ∈ onInterface i items ↔ x ∈ items ∧ x.1 = i := by
  rw [onInterface, List.mem_filter, decide_eq_true_iff]

namespace Terminal

variable {t u : Terminal} {i j : Interface} {c : Command} {name : String}

/-- A terminal that never stops responding goes on so. -/
theorem unlimited_handle (hunlimited : t.faults.dropResponsesAfter = none) (i : Interface)
    (c : Command) : (t.handle i c).2.faults.dropResponsesAfter = none := by
  rw [handle_faults]
  exact hunlimited

/-! ## The file of a command -/

theorem file_recordOf_select {r : SelectRequest} (hread : readCommand c = .ok (.fileSelect r)) :
    (t.recordOf i c).file = some r.name := by
  rw [recordOf, hread]

theorem file_recordOf_of_ne (hread : ∀ r, readCommand c ≠ .ok (.fileSelect r)) :
    (t.recordOf i c).file = t.selected.get i := by
  unfold recordOf
  dsimp only
  split
  case h_1 r hselect => exact absurd hselect (hread r)
  all_goals rfl

theorem file_recordOf_congr (hselected : t.selected.get i = u.selected.get i) :
    (t.recordOf i c).file = (u.recordOf i c).file := by
  unfold recordOf
  rw [hselected]

/-- A file selected on an interface after a command is the one that the command was about. -/
theorem Obeyed.file_of_selected {answer : Response} {after : Terminal}
    (h : Obeyed t i c answer after) (hselected : after.selected.get i = some name) :
    (t.recordOf i c).file = some name := by
  cases h with
  | unread hread =>
    rw [file_recordOf_of_ne (by simp [hread])]
    exact hselected
  | executed hread houtcome =>
    cases houtcome with
    | opened | emptied =>
      rw [file_recordOf_select hread]
      simpa using hselected
    | notFound => simp [deselect] at hselected
    | _ =>
      rw [file_recordOf_of_ne (by simp [hread])]
      exact hselected

/-! ## Two terminals as one interface sees them -/

/-- Both terminals are the same to an interface that looks at no files but the kept ones. -/
structure Alike (i : Interface) (kept : String → Prop) (t u : Terminal) : Prop where
  faults_eq : t.faults = u.faults
  selected_eq : t.selected.get i = u.selected.get i
  files_eq (name : String) (hkept : kept name) : t.files.get? name = u.files.get? name

namespace Alike

variable {kept : String → Prop}

theorem refl : Alike i kept t t := ⟨rfl, rfl, fun _ _ => rfl⟩

theorem withLog (h : Alike i kept t u) (log log' : Array CommandRecord) :
    Alike i kept (t.withLog log) (u.withLog log') :=
  ⟨h.faults_eq, h.selected_eq, h.files_eq⟩

/-- A new selection on the interface, in both. -/
theorem setSelected (h : Alike i kept t u) (file : Option String) :
    Alike i kept { t with selected := t.selected.set i file }
      { u with selected := u.selected.set i file } :=
  ⟨h.faults_eq, by simp, h.files_eq⟩

/-- A new content of a file, in both. -/
theorem put (h : Alike i kept t u) (file : String) (content : Bytes) :
    Alike i kept { t with files := t.files.put file content }
      { u with files := u.files.put file content } where
  faults_eq := h.faults_eq
  selected_eq := h.selected_eq
  files_eq name hkept := by
    simp only [FileStore.get?_put]
    rw [h.files_eq name hkept]

/-- A selection on another interface is not seen. -/
theorem setSelected_left (h : Alike i kept t u) (hne : j ≠ i) (file : Option String) :
    Alike i kept { t with selected := t.selected.set j file } u :=
  ⟨h.faults_eq, by simpa [hne] using h.selected_eq, h.files_eq⟩

/-- Nor is the content of a file that the interface does not look at. -/
theorem put_left (h : Alike i kept t u) {file : String} (hfile : ¬ kept file) (content : Bytes) :
    Alike i kept { t with files := t.files.put file content } u where
  faults_eq := h.faults_eq
  selected_eq := h.selected_eq
  files_eq name hkept := by
    have hne : name ≠ file := fun heq => hfile (heq ▸ hkept)
    simp only [FileStore.get?_put, if_neg hne]
    exact h.files_eq name hkept

/-! ### Commands on the interface -/

theorem select (h : Alike i kept t u) {r : SelectRequest} (hkept : kept r.name) :
    (t.select i r).1 = (u.select i r).1 ∧ Alike i kept (t.select i r).2 (u.select i r).2 := by
  have hnone : Alike i kept (t.deselect i) (u.deselect i) := h.setSelected none
  have hfail : (t.deselect i).faults.failSelect = (u.deselect i).faults.failSelect :=
    congrArg Faults.failSelect hnone.faults_eq
  unfold Terminal.select
  dsimp only
  rw [hfail]
  split
  · exact ⟨rfl, hnone⟩
  · cases r.mode with
    | truncate => exact ⟨rfl, (hnone.put r.name []).setSelected (some r.name)⟩
    | read =>
      dsimp only
      rw [hnone.files_eq r.name hkept]
      cases (u.deselect i).files.get? r.name with
      | none => exact ⟨rfl, hnone⟩
      | some content => exact ⟨rfl, hnone.setSelected (some r.name)⟩

theorem read (h : Alike i kept t u) (hkept : ∀ name, u.selected.get i = some name → kept name)
    (r : ReadRequest) : t.read i r = u.read i r := by
  have hcontent : t.selectedContent i = u.selectedContent i := by
    unfold selectedContent
    rw [h.selected_eq]
    cases hselected : u.selected.get i with
    | none => rfl
    | some name => exact h.files_eq name (hkept name hselected)
  unfold Terminal.read cannotRead
  rw [hcontent, h.faults_eq]

theorem write (h : Alike i kept t u) (hkept : ∀ name, u.selected.get i = some name → kept name)
    (r : WriteRequest) :
    (t.write i r).1 = (u.write i r).1 ∧ Alike i kept (t.write i r).2 (u.write i r).2 := by
  have hfail : t.faults.failWrite = u.faults.failWrite := congrArg Faults.failWrite h.faults_eq
  unfold Terminal.write
  rw [h.selected_eq]
  cases hselected : u.selected.get i with
  | none => exact ⟨rfl, h⟩
  | some name =>
    dsimp only
    rw [hfail, h.files_eq name (hkept name hselected)]
    split
    · exact ⟨rfl, h⟩
    · cases u.files.get? name with
      | none => exact ⟨rfl, h⟩
      | some content =>
        dsimp only
        split
        · exact ⟨rfl, h.put name _⟩
        · exact ⟨rfl, h⟩

/-- A file command about a kept file answers and does the same in both. -/
theorem obey (h : Alike i kept t u) (hc : c.IsForFiles)
    (hkept : ∀ name, (u.recordOf i c).file = some name → kept name) :
    (t.obey i c).1 = (u.obey i c).1 ∧ Alike i kept (t.obey i c).2 (u.obey i c).2 := by
  unfold Terminal.obey
  cases hread : readCommand c with
  | error s => exact ⟨rfl, h⟩
  | ok r =>
    cases (Command.isForFiles_iff hread).1 hc with
    | select r => exact h.select (hkept r.name (file_recordOf_select hread))
    | read r =>
      rw [file_recordOf_of_ne (by simp [hread])] at hkept
      exact ⟨h.read hkept r, h⟩
    | write r =>
      rw [file_recordOf_of_ne (by simp [hread])] at hkept
      exact h.write hkept r

/-! ### Commands on another interface -/

/-- A command on another interface that alters no kept file is not seen. -/
theorem obeyed_left {answer : Response} {after : Terminal} (h : Alike i kept t u) (hne : j ≠ i)
    (hobeyed : Obeyed t j c answer after)
    (hkept : c.isWriting = true → ∀ name, (t.recordOf j c).file = some name → ¬ kept name) :
    Alike i kept after u := by
  cases hobeyed with
  | unread => exact h
  | executed hread houtcome =>
    unfold Command.isWriting at hkept
    rw [hread] at hkept
    cases houtcome with
    | opened => exact h.setSelected_left hne _
    | emptied name =>
      have hname := hkept rfl name (file_recordOf_select hread)
      exact (h.put_left hname []).setSelected_left hne (some name)
    | notFound => exact h.setSelected_left hne none
    | extended hselected =>
      rw [file_recordOf_of_ne (by simp [hread])] at hkept
      exact h.put_left (hkept rfl _ hselected) _
    | _ => exact ⟨h.faults_eq, h.selected_eq, h.files_eq⟩

end Alike

/-! ## Both interfaces -/

/-- No other interface alters the file. -/
def Spared (altered : Interface → String → Prop) (i : Interface) (name : String) : Prop :=
  ∀ j, j ≠ i → ¬ altered j name

/-- Each interface sees the terminal as if nothing had come on the other, but for the files that the
other alters. -/
def Apart (altered : Interface → String → Prop) (t : Terminal) (alone : Interface → Terminal) :
    Prop :=
  ∀ i, Alike i (Spared altered i) t (alone i)

/-- The terminal after commands on one interface only, all of them for files that no other interface
alters, and altering only files that this interface may alter. -/
inductive Within (altered : Interface → String → Prop) (i : Interface) :
    Terminal → List (Interface × Command) → Prop where
  | nil {t : Terminal} : Within altered i t []
  | cons {t : Terminal} {c : Command} {rest : List (Interface × Command)} (hc : c.IsForFiles)
      (hspared : ∀ name, (t.recordOf i c).file = some name → Spared altered i name)
      (haltered : c.isWriting = true →
        ∀ name, (t.recordOf i c).file = some name → altered i name)
      (hrest : Within altered i (t.handle i c).2 rest) : Within altered i t ((i, c) :: rest)

/-- The answers to commands handled one after the other, each with its interface. -/
def answers (t : Terminal) : List (Interface × Command) → List (Interface × Option Response)
  | [] => []
  | (i, c) :: rest => (i, (t.handle i c).1) :: (t.handle i c).2.answers rest

section Apart

variable {altered : Interface → String → Prop} {alone : Interface → Terminal}

/-- A file command on one interface keeps both apart, and is answered as if it were alone. -/
theorem Apart.handle (hapart : Apart altered t alone)
    (hunlimited : t.faults.dropResponsesAfter = none) (hc : c.IsForFiles)
    (hspared : ∀ name, ((alone i).recordOf i c).file = some name → Spared altered i name)
    (haltered : c.isWriting = true →
      ∀ name, ((alone i).recordOf i c).file = some name → altered i name) :
    (t.handle i c).1 = ((alone i).handle i c).1 ∧
      Apart altered (t.handle i c).2 (Function.update alone i ((alone i).handle i c).2) := by
  have hunlimited' : (alone i).faults.dropResponsesAfter = none := by
    rw [← (hapart i).faults_eq]
    exact hunlimited
  rw [handle_of_responds (isSilent_of_unlimited hunlimited),
    handle_of_responds (isSilent_of_unlimited hunlimited')]
  obtain ⟨hanswer, hsame⟩ := (hapart i).obey hc hspared
  refine ⟨congrArg some hanswer, ?_⟩
  intro j
  by_cases hj : j = i
  · subst hj
    rw [Function.update_self]
    exact hsame.withLog _ _
  · rw [Function.update_of_ne hj]
    have hfile : (t.recordOf i c).file = ((alone i).recordOf i c).file :=
      file_recordOf_congr (hapart i).selected_eq
    have hunseen : Alike j (Spared altered j) (t.obey i c).2 (alone j) := by
      refine (hapart j).obeyed_left (Ne.symm hj) (obeyed_obey t i c) ?_
      intro hwriting name hname hkept
      rw [hfile] at hname
      exact hkept i (Ne.symm hj) (haltered hwriting name hname)
    exact hunseen.withLog _ (alone j).commands

/-- In whatever order the commands of both interfaces come, each interface gets the answers that it
would get alone. -/
theorem Apart.handleAll (hapart : Apart altered t alone)
    (hunlimited : t.faults.dropResponsesAfter = none) {order : List (Interface × Command)}
    (hwithin : ∀ i, Within altered i (alone i) (onInterface i order)) (i : Interface) :
    onInterface i (t.answers order) = (alone i).answers (onInterface i order) ∧
      Alike i (Spared altered i) (t.handleAll order)
        ((alone i).handleAll (onInterface i order)) := by
  induction order generalizing t alone with
  | nil => exact ⟨rfl, hapart i⟩
  | cons x rest ih =>
    obtain ⟨j, c⟩ := x
    have hnext := hwithin j
    rw [onInterface_cons, if_pos rfl] at hnext
    cases hnext with
    | cons hc hspared haltered hrest =>
      obtain ⟨hanswer, hmoved⟩ := hapart.handle hunlimited hc hspared haltered
      have hlater : ∀ k, Within altered k
          (Function.update alone j ((alone j).handle j c).2 k) (onInterface k rest) := by
        intro k
        by_cases hk : k = j
        · subst hk
          rw [Function.update_self]
          exact hrest
        · rw [Function.update_of_ne hk]
          have hother := hwithin k
          rwa [onInterface_cons, if_neg (Ne.symm hk)] at hother
      obtain ⟨hanswers, hleft⟩ := ih hmoved (unlimited_handle hunlimited j c) hlater
      rw [answers, onInterface_cons, onInterface_cons, handleAll_cons]
      by_cases hi : j = i
      · subst hi
        rw [Function.update_self] at hanswers hleft
        rw [if_pos rfl, if_pos rfl, answers, hanswer, hanswers]
        exact ⟨rfl, hleft⟩
      · rw [Function.update_of_ne (Ne.symm hi)] at hanswers hleft
        rw [if_neg hi, if_neg hi]
        exact ⟨hanswers, hleft⟩

end Apart

/-! ## Files named and altered -/

/-- The file that a command names: the one it selects. -/
def namedBy (c : Command) : Option String :=
  match readCommand c with
  | .ok (.fileSelect r) => some r.name
  | _ => none

/-- The files that are selected on an interface at the beginning, or named by one of the
commands. -/
def filesNamed (t : Terminal) (i : Interface) (commands : List (Interface × Command)) :
    List String :=
  (t.selected.get i).toList ++ commands.filterMap (namedBy ·.2)

/-- The files that the commands name to select them for writing, or write while they are
selected. -/
def filesAltered (t : Terminal) : List (Interface × Command) → List String
  | [] => []
  | (i, c) :: rest =>
    (if c.isWriting then (t.recordOf i c).file.toList else []) ++
      (t.handle i c).2.filesAltered rest

section Named

variable {rest : List (Interface × Command)}

/-- The file of a command is named by it or was selected before. -/
theorem mem_filesNamed_of_file (hfile : (t.recordOf i c).file = some name) :
    name ∈ t.filesNamed i ((i, c) :: rest) := by
  rw [filesNamed, List.mem_append]
  cases hread : readCommand c with
  | error s =>
    rw [file_recordOf_of_ne (by simp [hread])] at hfile
    exact .inl (by simp [hfile])
  | ok r =>
    cases r with
    | fileSelect r =>
      rw [file_recordOf_select hread] at hfile
      have hnamed : namedBy c = some name := by
        rw [namedBy, hread]
        exact hfile
      exact .inr (List.mem_filterMap.2 ⟨(i, c), List.mem_cons_self .., hnamed⟩)
    | _ =>
      rw [file_recordOf_of_ne (by simp [hread])] at hfile
      exact .inl (by simp [hfile])

theorem filesNamed_handle_subset (hunlimited : t.faults.dropResponsesAfter = none) :
    (t.handle i c).2.filesNamed i rest ⊆ t.filesNamed i ((i, c) :: rest) := by
  intro name hname
  rw [filesNamed, List.mem_append] at hname
  rcases hname with hselected | hnamed
  · rw [handle_of_responds (isSilent_of_unlimited hunlimited)] at hselected
    exact mem_filesNamed_of_file ((obeyed_obey t i c).file_of_selected (by simpa using hselected))
  · rw [filesNamed, List.mem_append]
    refine .inr ?_
    obtain ⟨x, hx, hnamed⟩ := List.mem_filterMap.1 hnamed
    exact List.mem_filterMap.2 ⟨x, List.mem_cons_of_mem _ hx, hnamed⟩

/-- Files that are altered are named. -/
theorem filesAltered_subset_filesNamed (hunlimited : t.faults.dropResponsesAfter = none)
    {commands : List (Interface × Command)} (hcommands : ∀ x ∈ commands, x.1 = i ∧ x.2.IsForFiles) :
    t.filesAltered commands ⊆ t.filesNamed i commands := by
  induction commands generalizing t with
  | nil => exact List.nil_subset _
  | cons x rest ih =>
    obtain ⟨⟨hi, -⟩, hrest⟩ := List.forall_mem_cons.1 hcommands
    obtain ⟨j, c⟩ := x
    obtain rfl : j = i := hi
    intro name hname
    rw [filesAltered, List.mem_append] at hname
    rcases hname with hfirst | hlater
    · split at hfirst
      · exact mem_filesNamed_of_file (by simpa using hfirst)
      · cases hfirst
    · have hnamed := ih (unlimited_handle hunlimited j c) hrest hlater
      exact filesNamed_handle_subset hunlimited hnamed

/-- File commands on one interface stay within the files that are named and those that are
altered. -/
theorem within_of_named {altered : Interface → String → Prop}
    (hunlimited : t.faults.dropResponsesAfter = none) {commands : List (Interface × Command)}
    (hcommands : ∀ x ∈ commands, x.1 = i ∧ x.2.IsForFiles)
    (hnamed : ∀ name ∈ t.filesNamed i commands, Spared altered i name)
    (haltered : ∀ name ∈ t.filesAltered commands, altered i name) :
    Within altered i t commands := by
  induction commands generalizing t with
  | nil => exact .nil
  | cons x rest ih =>
    obtain ⟨⟨hi, hc⟩, hrest⟩ := List.forall_mem_cons.1 hcommands
    obtain ⟨j, c⟩ := x
    obtain rfl : j = i := hi
    refine .cons hc (fun name hfile => hnamed name (mem_filesNamed_of_file hfile)) ?_ ?_
    · intro hwriting name hfile
      refine haltered name ?_
      rw [filesAltered, if_pos hwriting]
      exact List.mem_append_left _ (by simp [hfile])
    · refine ih (unlimited_handle hunlimited j c) hrest ?_ ?_
      · intro name hname
        exact hnamed name (filesNamed_handle_subset hunlimited hname)
      · intro name hname
        exact haltered name (List.mem_append_right _ hname)

end Named

end Terminal

end KeyInjection
