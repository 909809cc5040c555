-- SUMMARY: What the commands of a terminal can come to.
import KeyInjection.Terminal.Handle

/-!
# Outcomes of commands

A request is refused, or it is carried out; `Outcome` says for each request what may become of it:
what the terminal answers, what it changes, and what must have been the case. Whatever the faults
of the terminal, executing a request comes to one of these (`outcome_execute`). So what all requests
have in common is seen case by case, and not in the code of each of them.
-/

namespace KeyInjection

/-- The most bytes that come of a read of `chunk` bytes. -/
def Faults.readStep (f : Faults) (chunk : Nat) : Nat :=
  match f.maxRead with
  | some most => min chunk most
  | .none => chunk

namespace Faults

variable {f : Faults} {chunk n : Nat}

theorem readStep_le : f.readStep chunk ≤ chunk := by
  unfold readStep
  split
  · exact Nat.min_le_left ..
  · exact Nat.le_refl _

theorem readStep_min : f.readStep (min chunk n) = min (f.readStep chunk) n := by
  unfold readStep
  split
  · exact Nat.min_right_comm ..
  · rfl

theorem readStep_pos_iff (hchunk : 0 < chunk) : 0 < f.readStep chunk ↔ f.maxRead ≠ some 0 := by
  unfold readStep
  cases f.maxRead with
  | none => simp [hchunk]
  | some most =>
    have hmost : 0 < most ↔ most ≠ 0 := Nat.pos_iff_ne_zero
    show 0 < min chunk most ↔ _
    rw [Nat.lt_min]
    simp [hchunk, hmost]

end Faults

namespace Terminal

variable {t : Terminal} {i : Interface} {name : String}

/-! ## Selections, reads and writes -/

/-- Selecting a file to read it tells its size. -/
theorem select_read (hselectable : t.faults.failSelect.contains name = false) {content : Bytes}
    (hfile : t.files.get? name = some content) :
    t.select i ⟨.read, name⟩ =
      (answering .success (.selected ⟨Int32.ofNat content.length⟩),
        { t with selected := t.selected.set i (some name) }) := by
  have hselectable : (t.deselect i).faults.failSelect.contains name = false := hselectable
  have hcontent : (t.deselect i).files.get? name = some content := hfile
  simp only [select, hselectable, hcontent]
  simp [deselect]

/-- Selecting a file to write it empties it. -/
theorem select_truncate (hselectable : t.faults.failSelect.contains name = false) :
    t.select i ⟨.truncate, name⟩ =
      (answering .success (.selected ⟨Int32.ofNat 0⟩),
        { t with
          files := t.files.put name []
          selected := t.selected.set i (some name) }) := by
  have hselectable : (t.deselect i).faults.failSelect.contains name = false := hselectable
  simp only [select, hselectable]
  simp [deselect]

/-- A file that cannot be selected, or one to be read that is not there, leaves nothing selected. -/
theorem select_refused {r : SelectRequest}
    (hrefused : t.faults.failSelect.contains r.name = true ∨
      r.mode = .read ∧ t.files.get? r.name = none) :
    t.select i r = (notFound, t.deselect i) := by
  have hfaults : (t.deselect i).faults.failSelect = t.faults.failSelect := rfl
  have hfiles : (t.deselect i).files = t.files := rfl
  unfold select
  dsimp only
  rw [hfaults, hfiles]
  split
  · rfl
  · obtain hname | ⟨hmode, hmissing⟩ := hrefused
    · contradiction
    · rw [hmode, hmissing]

/-- Of the selected file a read brings what it asks for, as far as the terminal and the file go. -/
theorem read_eq {content : Bytes} (hcontent : t.selectedContent i = some content) {r : ReadRequest}
    (hreadable : t.cannotRead r.offset = false) (hoffset : r.offset.toNat < content.length) :
    t.read i r =
      ⟨.success, (content.drop r.offset.toNat).take (t.faults.readStep r.length.toNat)⟩ := by
  rw [read, hcontent]
  simp only [hreadable, if_neg (Nat.not_le.2 hoffset), Bool.false_eq_true, if_false]
  unfold Faults.readStep
  cases t.faults.maxRead <;> rfl

theorem read_failing {content : Bytes} (hcontent : t.selectedContent i = some content)
    {r : ReadRequest} (hfails : t.cannotRead r.offset = true) :
    t.read i r = bare .executionError := by
  rw [read, hcontent]
  simp only [hfails, if_true]

theorem read_beyond {content : Bytes} (hcontent : t.selectedContent i = some content)
    {r : ReadRequest} (hreadable : t.cannotRead r.offset = false)
    (hoffset : content.length ≤ r.offset.toNat) : t.read i r = bare .wrongData := by
  rw [read, hcontent]
  simp only [hreadable, if_pos hoffset, Bool.false_eq_true, if_false]

/-- With nothing selected there is nothing to read. -/
theorem read_unselected (hselected : t.selected.get i = none) (r : ReadRequest) :
    t.read i r = bare .conditionsNotSatisfied := by
  rw [read, selectedContent, hselected]
  rfl

/-- A write at the end of the selected file appends to it. -/
theorem write_eq (hwritable : t.faults.failWrite.contains name = false)
    (hselected : t.selected.get i = some name) {content : Bytes}
    (hfile : t.files.get? name = some content) {r : WriteRequest}
    (hoffset : r.offset.toNat = content.length) :
    t.write i r =
      (bare .success, { t with files := t.files.put name (content ++ r.data) }) := by
  rw [write, hselected]
  simp only [hwritable, hfile, if_pos hoffset]
  simp

theorem write_refused (hrefused : t.faults.failWrite.contains name = true)
    (hselected : t.selected.get i = some name) (r : WriteRequest) :
    t.write i r = (bare .notEnoughSpace, t) := by
  rw [write, hselected]
  simp only [hrefused, if_true]

/-! ## All requests -/

/-- A read or write may be refused with the status: the one that misses a selection is for when
there is none, or the selected file is not there. -/
structure RefusesTransfer (t : Terminal) (i : Interface) (s : Status) : Prop where
  isSuccess_eq : s.isSuccess = false
  eq_of_unselected : t.selected.get i = none → s = .conditionsNotSatisfied
  selectedContent_eq : s = .conditionsNotSatisfied → t.selectedContent i = none

theorem RefusesTransfer.of_unselected (hselected : t.selected.get i = none) :
    t.RefusesTransfer i .conditionsNotSatisfied := by
  refine ⟨rfl, fun _ => rfl, fun _ => ?_⟩
  rw [selectedContent, hselected]
  rfl

/-- For another reason than that nothing is selected. -/
theorem RefusesTransfer.of_selected {s : Status} (hselected : t.selected.get i = some name)
    (hstatus : s.isSuccess = false)
    (hcontent : s = .conditionsNotSatisfied → t.files.get? name = none) :
    t.RefusesTransfer i s := by
  refine ⟨hstatus, fun hnone => ?_, fun hs => ?_⟩
  · rw [hselected] at hnone
    cases hnone
  · rw [selectedContent, hselected]
    exact hcontent hs

/-- What may become of a request: the answer, and the terminal afterwards. -/
inductive Outcome (t : Terminal) (i : Interface) : Request → Response → Terminal → Prop where
  | shown (r : DisplayRequest) :
      Outcome t i (.display r) (bare .success) { t with display := t.display.push r.text }
  | notShown (r : DisplayRequest) : Outcome t i (.display r) (bare .executionError) t
  | started : Outcome t i .secureInit (bare .success) { t with secure := ⟨true, false, false⟩ }
  | notStarted : Outcome t i .secureInit (bare .securityStatus) t
  /-- By a fault, success and nothing else. -/
  | startIgnored : Outcome t i .secureInit (bare .success) t
  | told : Outcome t i .secureState (answering .success (.secureState t.secure)) t
  | imported (hmode : t.secure.initialised = true) (hfiles : t.hasKeyFiles = true) :
      Outcome t i .keyImport (answering .success (.imported ⟨ImportReply.noError⟩))
        { t with secure := t.imported }
  /-- By a fault, the code may be any. -/
  | notImported (code : UInt16) :
      Outcome t i .keyImport (answering .success (.imported ⟨code⟩)) t
  | opened {name : String} {content : Bytes} (hfile : t.files.get? name = some content) :
      Outcome t i (.fileSelect ⟨.read, name⟩)
        (answering .success (.selected ⟨Int32.ofNat content.length⟩))
        { t with selected := t.selected.set i (some name) }
  | emptied (name : String) :
      Outcome t i (.fileSelect ⟨.truncate, name⟩) (answering .success (.selected ⟨Int32.ofNat 0⟩))
        { t with
          files := t.files.put name []
          selected := t.selected.set i (some name) }
  | notFound (r : SelectRequest) : Outcome t i (.fileSelect r) notFound (t.deselect i)
  | brought {r : ReadRequest} {name : String} {content : Bytes}
      (hselected : t.selected.get i = some name) (hfile : t.files.get? name = some content)
      (hoffset : r.offset.toNat < content.length) :
      Outcome t i (.fileRead r)
        ⟨.success, (content.drop r.offset.toNat).take (t.faults.readStep r.length.toNat)⟩ t
  | notBrought {s : Status} (r : ReadRequest) (hrefuses : t.RefusesTransfer i s) :
      Outcome t i (.fileRead r) (bare s) t
  | extended {r : WriteRequest} {name : String} {content : Bytes}
      (hselected : t.selected.get i = some name) (hfile : t.files.get? name = some content)
      (hoffset : r.offset.toNat = content.length) :
      Outcome t i (.fileWrite r) (bare .success)
        { t with files := t.files.put name (content ++ r.data) }
  | notExtended {s : Status} (r : WriteRequest) (hrefuses : t.RefusesTransfer i s) :
      Outcome t i (.fileWrite r) (bare s) t

section Execute

variable (t : Terminal) (i : Interface)

theorem outcome_prompt (r : DisplayRequest) :
    Outcome t i (.display r) (t.prompt r.text).1 (t.prompt r.text).2 := by
  unfold prompt
  split
  · exact .notShown r
  · exact .shown r

theorem outcome_secureInit : Outcome t i .secureInit t.secureInit.1 t.secureInit.2 := by
  unfold secureInit
  split
  · exact .notStarted
  · split
    · exact .startIgnored
    · exact .started

theorem outcome_keyImport :
    Outcome t i .keyImport (answering .success (.imported ⟨t.keyImport.1⟩)) t.keyImport.2 := by
  unfold keyImport
  split
  · exact .notImported _
  · split
    case isTrue hready =>
      rw [Bool.and_eq_true] at hready
      exact .imported hready.1 hready.2
    case isFalse => exact .notImported _

theorem outcome_select (r : SelectRequest) :
    Outcome t i (.fileSelect r) (t.select i r).1 (t.select i r).2 := by
  obtain ⟨mode, name⟩ := r
  cases hselectable : t.faults.failSelect.contains name with
  | true =>
    rw [select_refused (.inl hselectable)]
    exact .notFound _
  | false =>
    cases mode with
    | truncate =>
      rw [select_truncate hselectable]
      exact .emptied name
    | read =>
      cases hfile : t.files.get? name with
      | none =>
        rw [select_refused (.inr ⟨rfl, hfile⟩)]
        exact .notFound _
      | some content =>
        rw [select_read hselectable hfile]
        exact .opened hfile

theorem outcome_read (r : ReadRequest) : Outcome t i (.fileRead r) (t.read i r) t := by
  cases hselected : t.selected.get i with
  | none =>
    rw [read_unselected hselected]
    exact .notBrought r (.of_unselected hselected)
  | some name =>
    have hcontent : t.selectedContent i = t.files.get? name := by
      rw [selectedContent, hselected]
      rfl
    cases hfile : t.files.get? name with
    | none =>
      rw [read, hcontent, hfile]
      exact .notBrought r (.of_selected hselected rfl fun _ => hfile)
    | some content =>
      rw [hfile] at hcontent
      cases hreadable : t.cannotRead r.offset with
      | true =>
        rw [read_failing hcontent hreadable]
        exact .notBrought r (.of_selected hselected rfl nofun)
      | false =>
        by_cases hoffset : r.offset.toNat < content.length
        · rw [read_eq hcontent hreadable hoffset]
          exact .brought hselected hfile hoffset
        · rw [read_beyond hcontent hreadable (Nat.le_of_not_lt hoffset)]
          exact .notBrought r (.of_selected hselected rfl nofun)

theorem outcome_write (r : WriteRequest) :
    Outcome t i (.fileWrite r) (t.write i r).1 (t.write i r).2 := by
  unfold write
  split
  case h_1 hselected => exact .notExtended r (.of_unselected hselected)
  case h_2 name hselected =>
    split
    · exact .notExtended r (.of_selected hselected rfl nofun)
    · split
      case h_1 hfile => exact .notExtended r (.of_selected hselected rfl fun _ => hfile)
      case h_2 content hfile =>
        split
        case isTrue hoffset => exact .extended hselected hfile hoffset
        case isFalse => exact .notExtended r (.of_selected hselected rfl nofun)

/-- Whatever the faults, executing a request has one of the outcomes. -/
theorem outcome_execute (r : Request) : Outcome t i r (t.execute i r).1 (t.execute i r).2 := by
  cases r with
  | display r => exact outcome_prompt t i r
  | secureInit => exact outcome_secureInit t i
  | secureState => exact .told
  | keyImport => exact outcome_keyImport t i
  | fileSelect r => exact outcome_select t i r
  | fileRead r => exact outcome_read t i r
  | fileWrite r => exact outcome_write t i r

end Execute

namespace Outcome

variable {r : Request} {answer : Response} {after : Terminal}

/-- Requests have no influence on faults. -/
theorem faults_eq (h : Outcome t i r answer after) : after.faults = t.faults := by
  cases h <;> rfl

/-- The log is not kept by requests but by commands. -/
theorem commands_eq (h : Outcome t i r answer after) : after.commands = t.commands := by
  cases h <;> rfl

/-- What is refused changes nothing, selections aside. -/
theorem eq_of_refused (h : Outcome t i r answer after)
    (hrefused : answer.status.isSuccess = false) (hother : ∀ x, r ≠ .fileSelect x) : after = t := by
  cases h with
  | notShown | notStarted | startIgnored | told | notImported | brought | notBrought
  | notExtended => rfl
  | notFound r => exact absurd rfl (hother r)
  | shown | started | imported | opened | emptied | extended => cases hrefused

/-- A selection that is refused ends the one before. -/
theorem eq_deselect_of_refused {r : SelectRequest} (h : Outcome t i (.fileSelect r) answer after)
    (hrefused : answer.status.isSuccess = false) : after = t.deselect i := by
  cases h with
  | notFound => rfl
  | opened | emptied => cases hrefused

end Outcome

/-! ## Commands -/

/-- What may become of a command that the terminal obeys: one that cannot be read is refused. -/
inductive Obeyed (t : Terminal) (i : Interface) (c : Command) : Response → Terminal → Prop where
  | unread {s : Status} (hread : readCommand c = .error s) (hstatus : s.isSuccess = false) :
      Obeyed t i c (bare s) t
  | executed {r : Request} {answer : Response} {after : Terminal} (hread : readCommand c = .ok r)
      (houtcome : Outcome t i r answer after) : Obeyed t i c answer after

theorem isSuccess_of_readCommand {c : Command} {s : Status} (hread : readCommand c = .error s) :
    s.isSuccess = false := by
  unfold readCommand at hread
  split at hread
  · cases hread
    rfl
  · split at hread
    · cases hread
      rfl
    · split at hread <;> cases hread
      rfl

theorem obeyed_obey (t : Terminal) (i : Interface) (c : Command) :
    Obeyed t i c (t.obey i c).1 (t.obey i c).2 := by
  unfold obey
  cases hread : readCommand c with
  | ok r => exact .executed hread (outcome_execute t i r)
  | error s => exact .unread hread (isSuccess_of_readCommand hread)

namespace Obeyed

variable {c : Command} {answer : Response} {after : Terminal}

theorem faults_eq (h : Obeyed t i c answer after) : after.faults = t.faults := by
  cases h with
  | unread => rfl
  | executed _ houtcome => exact houtcome.faults_eq

theorem commands_eq (h : Obeyed t i c answer after) : after.commands = t.commands := by
  cases h with
  | unread => rfl
  | executed _ houtcome => exact houtcome.commands_eq

end Obeyed

end Terminal

end KeyInjection
