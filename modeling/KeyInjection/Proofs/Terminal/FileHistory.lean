-- SUMMARY: The files and selections of a terminal, told from its history.
import KeyInjection.Proofs.Terminal.Histories

/-!
# Files and their history

All that a client can learn of the files of a terminal it can tell from the history. The last
selection that was executed on an interface says what is selected there (`selectedBy`): nothing, if
it was refused. What is in a file comes about by effects, one after the other: a selection that
empties it, or a write that extends it, on whatever interface the file was selected by then
(`effectsOn`). No other call has an effect on it, and no write has one that is refused.
-/

namespace KeyInjection

/-- What a call can do to a file. -/
inductive FileEffect where
  | emptied
  | extended (data : Bytes)
  deriving DecidableEq, Repr

/-- The content of a file after an effect; a file that is not there can only be emptied. -/
def FileEffect.apply (content : Option Bytes) : FileEffect → Option Bytes
  | emptied => some []
  | extended data => content.map (· ++ data)

/-- The request is a read or a write. -/
inductive Request.IsTransfer : Request → Prop where
  | read (r : ReadRequest) : IsTransfer (.fileRead r)
  | write (r : WriteRequest) : IsTransfer (.fileWrite r)

namespace Called

/-- What the call says of the selection on an interface: the file if one was selected, none if a
selection was refused. -/
def selection? (x : Called) (i : Interface) : Option (Option String) :=
  match x.executed? with
  | some (.fileSelect r) =>
    if x.interface = i then some (if x.isGranted then some r.name else none) else none
  | _ => none

/-- What the call does to the file of a name, given what was selected on its interface. -/
def effect? (x : Called) (selected : Option String) (name : String) : Option FileEffect :=
  match x.executed? with
  | some (.fileSelect r) =>
    if x.isGranted ∧ r.mode = .truncate ∧ r.name = name then some .emptied else none
  | some (.fileWrite r) =>
    if x.isGranted ∧ selected = some name then some (.extended r.data) else none
  | _ => none

/-- The file that the last selection on an interface selected. -/
def selectedBy (history : List Called) (i : Interface) : Option String :=
  (history.filterMap (·.selection? i)).getLast?.join

/-- What later calls do to the file of a name. -/
def effectsAfter (name : String) (earlier : List Called) : List Called → List FileEffect
  | [] => []
  | x :: rest =>
    (x.effect? (selectedBy earlier x.interface) name).toList ++
      effectsAfter name (earlier ++ [x]) rest

/-- What was done to the file of a name. -/
def effectsOn (name : String) (history : List Called) : List FileEffect :=
  effectsAfter name [] history

theorem selectedBy_concat (history : List Called) (x : Called) (i : Interface) :
    selectedBy (history ++ [x]) i = (x.selection? i).getD (selectedBy history i) := by
  unfold selectedBy
  cases hselection : x.selection? i with
  | none => simp [hselection]
  | some selected => simp [hselection]

theorem effectsAfter_concat (name : String) (earlier later : List Called) (x : Called) :
    effectsAfter name earlier (later ++ [x]) =
      effectsAfter name earlier later ++
        (x.effect? (selectedBy (earlier ++ later) x.interface) name).toList := by
  induction later generalizing earlier with
  | nil => simp [effectsAfter]
  | cons y rest ih =>
    rw [List.cons_append, effectsAfter, ih, effectsAfter]
    simp

theorem effectsOn_concat (name : String) (history : List Called) (x : Called) :
    effectsOn name (history ++ [x]) =
      effectsOn name history ++ (x.effect? (selectedBy history x.interface) name).toList :=
  effectsAfter_concat name [] history x

end Called

namespace Terminal

open Called

variable {t : Terminal} {x : Call} {answer : Response}

/-! ## One call -/

theorem isGranted_called {after : Terminal}
    (hhandled : t.handleCall x = (some answer, after)) :
    (t.called x).isGranted = answer.status.isSuccess := by
  rw [isGranted, called, hhandled]
  rfl

/-- What a call says of a selection is so afterwards. -/
theorem selected_handleCall (t : Terminal) (x : Call) (i : Interface) :
    (t.handleCall x).2.selected.get i = ((t.called x).selection? i).getD (t.selected.get i) := by
  obtain ⟨hexecuted, -, hselected⟩ | ⟨r, answer, after, log, -, hexecuted, houtcome, hhandled⟩ :=
    called_cases t x
  · rw [hselected, selection?, hexecuted]
    rfl
  have hselected : (t.handleCall x).2.selected = after.selected := congrArg (·.2.selected) hhandled
  have hinterface : (t.called x).interface = x.interface := rfl
  rw [hselected, selection?, hexecuted]
  cases houtcome with
  | opened | emptied =>
    have hgranted : (t.called x).isGranted = true := isGranted_called hhandled
    by_cases hi : x.interface = i <;> simp [hgranted, hinterface, hi, withFaults]
  | notFound =>
    have hrefused : (t.called x).isGranted = false := isGranted_called hhandled
    by_cases hi : x.interface = i <;> simp [hrefused, hinterface, hi, deselect, withFaults]
  | _ => rfl

/-- What a call does to a file shows in its content. -/
theorem get?_handleCall (t : Terminal) (x : Call) (name : String) :
    (t.handleCall x).2.files.get? name =
      ((t.called x).effect? (t.selected.get x.interface) name).toList.foldl FileEffect.apply
        (t.files.get? name) := by
  obtain ⟨hexecuted, hfiles, -⟩ | ⟨r, answer, after, log, -, hexecuted, houtcome, hhandled⟩ :=
    called_cases t x
  · rw [hfiles, effect?, hexecuted]
    rfl
  have hfiles : (t.handleCall x).2.files = after.files := congrArg (·.2.files) hhandled
  rw [hfiles, effect?, hexecuted]
  cases houtcome with
  | opened => simp [withFaults]
  | emptied other =>
    have hgranted : (t.called x).isGranted = true := isGranted_called hhandled
    by_cases hname : other = name
    · subst hname
      simp [hgranted, FileEffect.apply]
    · simp [hname, Ne.symm hname, withFaults]
  | notFound r =>
    have hrefused : (t.called x).isGranted = false := isGranted_called hhandled
    simp [hrefused, deselect, withFaults]
  | @extended r file content hselected hfile =>
    have hgranted : (t.called x).isGranted = true := isGranted_called hhandled
    have hselected : t.selected.get x.interface = some file := hselected
    have hfile : t.files.get? file = some content := hfile
    by_cases hname : file = name
    · subst hname
      simp [hgranted, hselected, hfile, FileEffect.apply]
    · simp [hselected, hname, Ne.symm hname, withFaults]
  | notExtended r hrefuses =>
    have hrefused : (t.called x).isGranted = false :=
      (isGranted_called hhandled).trans hrefuses.isSuccess_eq
    simp [hrefused, withFaults]
  | _ => rfl

/-- A read that succeeds brings what it asks for of the selected file, as far as the terminal and
the file go. -/
theorem body_of_fileRead {r : ReadRequest} (hread : readCommand x.command = .ok (.fileRead r))
    (hanswer : (t.handleCall x).1 = some answer) (hsuccess : answer.status.isSuccess = true) :
    ∃ name content, t.selected.get x.interface = some name ∧ t.files.get? name = some content ∧
      r.offset.toNat < content.length ∧
      answer.body = (content.drop r.offset.toNat).take
        (min (x.faults.readStep r.length.toNat) (content.length - r.offset.toNat)) := by
  obtain ⟨after, log, houtcome, -⟩ := outcome_handleCall hread hanswer
  cases houtcome with
  | @brought _ name content hselected hfile hoffset =>
    refine ⟨name, content, hselected, hfile, hoffset, ?_⟩
    rw [← List.length_drop, ← List.take_eq_take_min]
    rfl
  | notBrought r hrefuses => cases hrefuses.isSuccess_eq.symm.trans hsuccess

/-- A write that succeeds starts where the selected file ends, and extends it. -/
theorem get?_of_fileWrite {r : WriteRequest}
    (hread : readCommand x.command = .ok (.fileWrite r))
    (hanswer : (t.handleCall x).1 = some answer) (hsuccess : answer.status.isSuccess = true) :
    ∃ name content, t.selected.get x.interface = some name ∧ t.files.get? name = some content ∧
      r.offset.toNat = content.length ∧
      (t.handleCall x).2.files.get? name = some (content ++ r.data) := by
  obtain ⟨after, log, houtcome, hhandled⟩ := outcome_handleCall hread hanswer
  have hfiles : (t.handleCall x).2.files = after.files := congrArg (·.2.files) hhandled
  cases houtcome with
  | @extended _ name content hselected hfile hoffset =>
    refine ⟨name, content, hselected, hfile, hoffset, ?_⟩
    rw [hfiles]
    simp
  | notExtended r hrefuses => cases hrefuses.isSuccess_eq.symm.trans hsuccess

/-! ## What is selected is there -/

/-- What is selected is there. -/
def SelectsStored (t : Terminal) : Prop :=
  ∀ i name, t.selected.get i = some name → t.files.contains name = true

/-- Only files that are there are selected, and no file ever goes. -/
theorem Outcome.selectsStored {i : Interface} {r : Request} {after : Terminal}
    (houtcome : Outcome t i r answer after) (h : t.SelectsStored) : after.SelectsStored := by
  intro j name hselected
  cases houtcome with
  | opened hfile =>
    rw [PerInterface.get_set] at hselected
    split at hselected
    · obtain rfl := Option.some.inj hselected
      simp [FileStore.contains, hfile]
    · exact h j name hselected
  | emptied other =>
    rw [FileStore.contains_put]
    rw [PerInterface.get_set] at hselected
    split at hselected
    · obtain rfl := Option.some.inj hselected
      simp
    · simp [h j name hselected]
  | notFound r =>
    rw [deselect, PerInterface.get_set] at hselected
    split at hselected
    · cases hselected
    · exact h j name hselected
  | extended =>
    rw [FileStore.contains_put, h j name hselected, Bool.or_true]
  | _ => exact h j name hselected

namespace SelectsStored

theorem handleCall (h : t.SelectsStored) (x : Call) : (t.handleCall x).2.SelectsStored := by
  obtain hignored | ⟨answer, after, log, hobeyed, hhandled⟩ := handleCall_cases t x
  · rwa [hignored]
  rw [hhandled]
  cases hobeyed with
  | unread => exact h
  | executed _ houtcome => exact houtcome.selectsStored (t := t.withFaults x.faults) h

theorem selectedContent_eq_none {i : Interface} (h : t.SelectsStored)
    (hcontent : t.selectedContent i = none) : t.selected.get i = none := by
  cases hselected : t.selected.get i with
  | none => rfl
  | some name =>
    have hmissing : t.files.get? name = none := by
      rwa [selectedContent, hselected] at hcontent
    have hthere := h i name hselected
    rw [FileStore.contains, hmissing] at hthere
    cases hthere

/-- If what is selected is there, a read or write is refused for want of a selection only when there
is none. -/
theorem eq_conditionsNotSatisfied_iff {i : Interface} {s : Status} (h : t.SelectsStored)
    (hrefuses : t.RefusesTransfer i s) :
    s = .conditionsNotSatisfied ↔ t.selected.get i = none :=
  ⟨fun hs => h.selectedContent_eq_none (hrefuses.selectedContent_eq hs),
    hrefuses.eq_of_unselected⟩

/-- With nothing selected, every read and write is refused, changing nothing; any other refusal has
another reason. -/
theorem unselected_iff (h : t.SelectsStored) {r : Request}
    (hread : readCommand x.command = .ok r) (htransfer : r.IsTransfer)
    (hanswer : (t.handleCall x).1 = some answer) :
    (answer.status = .conditionsNotSatisfied ↔ t.selected.get x.interface = none) ∧
      (t.selected.get x.interface = none →
        (t.handleCall x).2.files = t.files ∧ (t.handleCall x).2.selected = t.selected) := by
  have h : (t.withFaults x.faults).SelectsStored := h
  obtain ⟨after, log, houtcome, hhandled⟩ := outcome_handleCall hread hanswer
  have hafter : (t.handleCall x).2.files = after.files ∧
      (t.handleCall x).2.selected = after.selected :=
    ⟨congrArg (·.2.files) hhandled, congrArg (·.2.selected) hhandled⟩
  rw [hafter.1, hafter.2]
  cases htransfer with
  | read q =>
    cases houtcome with
    | @brought _ name _ hselected =>
      have hselected : t.selected.get x.interface = some name := hselected
      simp [hselected, Status.success, Status.conditionsNotSatisfied]
    | notBrought _ hrefuses => exact ⟨h.eq_conditionsNotSatisfied_iff hrefuses, fun _ => ⟨rfl, rfl⟩⟩
  | write q =>
    cases houtcome with
    | @extended _ name _ hselected =>
      have hselected : t.selected.get x.interface = some name := hselected
      simp [hselected, bare, Status.success, Status.conditionsNotSatisfied]
    | notExtended _ hrefuses =>
      exact ⟨h.eq_conditionsNotSatisfied_iff hrefuses, fun _ => ⟨rfl, rfl⟩⟩

end SelectsStored

/-! ## Any calls -/

theorem selected_handleCalls (hnone : t.selected = .both none) (calls : List Call)
    (i : Interface) : (t.handleCalls calls).selected.get i = selectedBy (t.history calls) i := by
  induction calls using List.reverseRecOn with
  | nil =>
    rw [handleCalls_nil, hnone, PerInterface.get_both]
    rfl
  | append_singleton calls x ih =>
    rw [handleCalls_concat, history_concat, selected_handleCall, ih, selectedBy_concat]

theorem get?_handleCalls (hnone : t.selected = .both none) (calls : List Call) (name : String) :
    (t.handleCalls calls).files.get? name =
      (effectsOn name (t.history calls)).foldl FileEffect.apply (t.files.get? name) := by
  induction calls using List.reverseRecOn with
  | nil => rfl
  | append_singleton calls x ih =>
    rw [handleCalls_concat, history_concat, get?_handleCall, ih, selected_handleCalls hnone,
      effectsOn_concat, List.foldl_append]
    rfl

theorem selectsStored_handleCalls (hnone : t.selected = .both none) (calls : List Call) :
    (t.handleCalls calls).SelectsStored := by
  refine handleCalls_preserves ?_ fun _ x _ h => h.handleCall x
  intro i name hselected
  rw [hnone, PerInterface.get_both] at hselected
  cases hselected

/-- The history of a terminal that starts with nothing selected tells what its files are, whatever
the commands on the two interfaces, and whatever the faults while they came. What is selected by it
is selected, and is there; each file has its first content, but for the effects that the history
tells of. As for the next call: a write that succeeds extends the file selected by the history, at
its end; a read that succeeds brings, from its start on, what is asked for of that file, as far as
the terminal and the file go; and if by the history nothing is selected, and only then, both are
refused for want of a selection, and change nothing. -/
theorem files_by_history (t : Terminal) (hnone : t.selected = .both none) (calls : List Call) :
    let now := t.handleCalls calls
    let selected := selectedBy (t.history calls)
    (∀ i, now.selected.get i = selected i ∧
      ∀ name, selected i = some name → now.files.contains name = true) ∧
    (∀ name, now.files.get? name =
      (effectsOn name (t.history calls)).foldl FileEffect.apply (t.files.get? name)) ∧
    ∀ x answer, (now.handleCall x).1 = some answer →
      (∀ r, readCommand x.command = .ok (.fileWrite r) → answer.status.isSuccess = true →
        ∃ name content, selected x.interface = some name ∧ now.files.get? name = some content ∧
          r.offset.toNat = content.length ∧
          (now.handleCall x).2.files.get? name = some (content ++ r.data)) ∧
      (∀ r, readCommand x.command = .ok (.fileRead r) → answer.status.isSuccess = true →
        ∃ name content, selected x.interface = some name ∧ now.files.get? name = some content ∧
          r.offset.toNat < content.length ∧
          answer.body = (content.drop r.offset.toNat).take
            (min (x.faults.readStep r.length.toNat) (content.length - r.offset.toNat))) ∧
      ∀ r, readCommand x.command = .ok r → r.IsTransfer →
        (answer.status = .conditionsNotSatisfied ↔ selected x.interface = none) ∧
        (selected x.interface = none →
          (now.handleCall x).2.files = now.files ∧
            (now.handleCall x).2.selected = now.selected) := by
  intro now selected
  have hselected (i : Interface) : now.selected.get i = selected i :=
    selected_handleCalls hnone calls i
  have hstored : now.SelectsStored := selectsStored_handleCalls hnone calls
  refine ⟨fun i => ⟨hselected i, fun name hname => ?_⟩, get?_handleCalls hnone calls, ?_⟩
  · exact hstored i name ((hselected i).trans hname)
  · intro x answer hanswer
    rw [← hselected x.interface]
    exact ⟨fun r hread => get?_of_fileWrite hread hanswer,
      fun r hread => body_of_fileRead hread hanswer,
      fun r hread htransfer => hstored.unselected_iff hread htransfer hanswer⟩

/-- A file is written on one interface and selected on the other, and then a missing one is selected
on the first: the second brings what was written, and on the first nothing is selected. -/
theorem files_by_history_rewritten :
    let t : Terminal := { files := .ofList [("a", [1])] }
    let calls : List Call := [
      ⟨.none, .primary, ⟨⟨0xd0, 0x30, 0, 0⟩, [1, 1, 0, 0, 0x61]⟩⟩,
      ⟨.none, .primary, ⟨⟨0xd0, 0x32, 0, 0⟩, [0, 0, 0, 0, 0, 0, 0, 0, 5, 6]⟩⟩,
      ⟨.none, .secondary, ⟨⟨0xd0, 0x30, 0, 0⟩, [0, 1, 0, 0, 0x61]⟩⟩,
      ⟨.none, .primary, ⟨⟨0xd0, 0x30, 0, 0⟩, [0, 1, 0, 0, 0x62]⟩⟩]
    let now := t.handleCalls calls
    let read : Call :=
      ⟨.none, .secondary, ⟨⟨0xd0, 0x31, 0, 0⟩, [2, 0, 0, 0, 1, 0, 0, 0, 4, 0, 0, 0]⟩⟩
    let write : Call := ⟨.none, .primary, ⟨⟨0xd0, 0x32, 0, 0⟩, [2, 0, 0, 0, 0, 0, 0, 0, 7]⟩⟩
    effectsOn "a" (t.history calls) = [.emptied, .extended [5, 6]] ∧
      now.files.get? "a" = some [5, 6] ∧
      (now.handleCall read).1 = some ⟨.success, [6]⟩ ∧
      (∃ name content, now.selected.get .secondary = some name ∧
        now.files.get? name = some content ∧
        [6] = (content.drop 1).take (min 4 (content.length - 1))) ∧
      (now.handleCall write).1 = some (bare .conditionsNotSatisfied) ∧
      (now.handleCall write).2.files = now.files := by
  intro t calls now read write
  obtain ⟨hselected, hfiles, hnext⟩ := files_by_history t rfl calls
  have heffects : effectsOn "a" (t.history calls) = [.emptied, .extended [5, 6]] := by
    decide +kernel
  have hcontent := hfiles "a"
  rw [heffects] at hcontent
  have hread : (now.handleCall read).1 = some ⟨.success, [6]⟩ := by decide +kernel
  have hwrite : (now.handleCall write).1 = some (bare .conditionsNotSatisfied) := by decide +kernel
  obtain ⟨-, hbrought, -⟩ := hnext read _ hread
  obtain ⟨name, content, hname, hfile, -, hbody⟩ := hbrought ⟨2, 1, 4⟩ rfl rfl
  obtain ⟨-, -, hrefused⟩ := hnext write _ hwrite
  obtain ⟨hunselected, hkept⟩ := hrefused _ rfl (.write ⟨2, 0, [7]⟩)
  exact ⟨heffects, hcontent, hread, ⟨name, content, (hselected _).1.trans hname, hfile, hbody⟩,
    hwrite, (hkept (hunselected.1 rfl)).1⟩

end Terminal

end KeyInjection
