-- SUMMARY: A refused command changes nothing, but that a refused selection ends the one before.
import KeyInjection.Proofs.Terminal.Handling

/-!
# Refused commands

A client that is refused may try again, as nothing has happened (`refused_unchanged`): the log
aside, a command that is not answered with success leaves the terminal as it was, and so does an
attempt to import that is answered with a code other than that of success. Only a selection that is
refused leaves something: on its interface, nothing is selected any more.
-/

namespace KeyInjection.Terminal

variable {t : Terminal} {i : Interface} {c : Command} {answer : Response} {after : Terminal}

namespace Obeyed

/-- What is refused changes nothing, selections aside. -/
theorem eq_of_refused (h : Obeyed t i c answer after) (hrefused : answer.status.isSuccess = false)
    (hother : ∀ r, readCommand c ≠ .ok (.fileSelect r)) : after = t := by
  cases h with
  | unread => rfl
  | executed hread houtcome =>
    refine houtcome.eq_of_refused hrefused ?_
    rintro r rfl
    exact hother r hread

/-- A selection that is refused ends the one before. -/
theorem eq_deselect_of_refused (h : Obeyed t i c answer after)
    (hrefused : answer.status.isSuccess = false) {r : SelectRequest}
    (hselect : readCommand c = .ok (.fileSelect r)) : after = t.deselect i := by
  cases h with
  | unread hread =>
    rw [hselect] at hread
    cases hread
  | executed hread houtcome =>
    obtain rfl : Request.fileSelect r = _ := Except.ok.inj (hselect.symm.trans hread)
    exact houtcome.eq_deselect_of_refused hrefused

/-- After a refusal all is as before, but what is selected on the interface if the command was to
select. -/
theorem frame_of_refused (h : Obeyed t i c answer after)
    (hrefused : answer.status.isSuccess = false) :
    after.files = t.files ∧ after.secure = t.secure ∧ after.display = t.display ∧
      (∀ j, j ≠ i → after.selected.get j = t.selected.get j) ∧
      ((∃ r, readCommand c = .ok (.fileSelect r)) → after.selected.get i = none) ∧
      ((∀ r, readCommand c ≠ .ok (.fileSelect r)) → after.selected.get i = t.selected.get i) := by
  by_cases hselects : ∃ r, readCommand c = .ok (.fileSelect r)
  · obtain ⟨r, hselect⟩ := hselects
    obtain rfl := h.eq_deselect_of_refused hrefused hselect
    refine ⟨rfl, rfl, rfl, fun j hj => ?_, fun _ => ?_, fun hother => ?_⟩
    · simp [deselect, Ne.symm hj]
    · simp [deselect]
    · exact absurd hselect (hother r)
  · obtain rfl := h.eq_of_refused hrefused fun r hselect => hselects ⟨r, hselect⟩
    exact ⟨rfl, rfl, rfl, fun _ _ => rfl, fun h => absurd h hselects, fun _ => rfl⟩

/-- An import is answered with a code; any other than that of success says that nothing was
imported. -/
theorem keyImport (h : Obeyed t i c answer after) (himport : readCommand c = .ok .keyImport) :
    ∃ code, answer = answering .success (.imported ⟨code⟩) ∧
      (code ≠ ImportReply.noError → after = t) := by
  cases h with
  | unread hread =>
    rw [himport] at hread
    cases hread
  | executed hread houtcome =>
    obtain rfl : Request.keyImport = _ := Except.ok.inj (himport.symm.trans hread)
    cases houtcome with
    | imported => exact ⟨_, rfl, fun hcode => absurd rfl hcode⟩
    | notImported code => exact ⟨code, rfl, fun _ => rfl⟩

end Obeyed

/-- A terminal that gives no answer has not noticed the command. One that answers logs it, and if it
refuses it, changes nothing else, but that a refused selection ends the one before on its interface.
An import that is answered with another code than that of success changes nothing either. -/
theorem refused_unchanged (t : Terminal) (i : Interface) (c : Command) :
    let after := (t.handle i c).2
    ((t.handle i c).1 = none → after = t) ∧
    ∀ answer, (t.handle i c).1 = some answer →
      after.commands = t.commands.push (t.recordOf i c) ∧
      (answer.status.isSuccess = false →
        after.files = t.files ∧ after.secure = t.secure ∧ after.display = t.display ∧
          after.faults = t.faults ∧ (∀ j, j ≠ i → after.selected.get j = t.selected.get j) ∧
          ((∃ r, readCommand c = .ok (.fileSelect r)) → after.selected.get i = none) ∧
          ((∀ r, readCommand c ≠ .ok (.fileSelect r)) →
            after.selected.get i = t.selected.get i)) ∧
      (readCommand c = .ok .keyImport →
        ∃ code, answer = answering .success (.imported ⟨code⟩) ∧
          (code ≠ ImportReply.noError →
            after.files = t.files ∧ after.secure = t.secure ∧ after.display = t.display ∧
              after.selected = t.selected)) := by
  intro after
  obtain hignored | ⟨answer, left, hobeyed, hhandled⟩ := handle_cases t i c
  · have hafter : after = t := congrArg Prod.snd hignored
    refine ⟨fun _ => hafter, fun answer hanswer => ?_⟩
    rw [hignored] at hanswer
    cases hanswer
  have hafter : after = { left with commands := t.commands.push (t.recordOf i c) } :=
    congrArg Prod.snd hhandled
  rw [hhandled]
  refine ⟨nofun, fun answer' hanswer => ?_⟩
  obtain rfl : answer = answer' := Option.some.inj hanswer
  rw [hafter]
  refine ⟨rfl, fun hrefused => ?_, fun himport => ?_⟩
  · obtain ⟨hfiles, hsecure, hdisplay, hselected⟩ := hobeyed.frame_of_refused hrefused
    exact ⟨hfiles, hsecure, hdisplay, hobeyed.faults_eq, hselected⟩
  · obtain ⟨code, hanswered, hsame⟩ := hobeyed.keyImport himport
    refine ⟨code, hanswered, fun hcode => ?_⟩
    obtain rfl := hsame hcode
    exact ⟨rfl, rfl, rfl, rfl⟩

/-- With a file selected on both interfaces, another is looked for on one of them; and an import
comes before key injection mode is started. -/
theorem refused_unchanged_missing :
    let t : Terminal := { files := .ofList [("b", [7])], selected := .both (some "b") }
    let select : Command := ⟨⟨0xd0, 0x30, 0, 0⟩, [0, 1, 0, 0, 0x61]⟩
    let early : Command := ⟨⟨0xd0, 0x22, 0, 0⟩, []⟩
    ((t.handle .primary select).1 = some notFound ∧
        readCommand select = .ok (.fileSelect ⟨.read, "a"⟩) ∧
        (t.handle .primary select).2.files = t.files ∧
        (t.handle .primary select).2.selected.get .primary = none ∧
        (t.handle .primary select).2.selected.get .secondary = some "b") ∧
      (t.handle .primary early).1 = some (answering .success (.imported ⟨importMissingFile⟩)) ∧
      (t.handle .primary early).2.selected = t.selected := by
  intro t select early
  have hread : readCommand select = .ok (.fileSelect ⟨.read, "a"⟩) := rfl
  have hselect : (t.handle .primary select).1 = some notFound := by decide +kernel
  have hearly : (t.handle .primary early).1 =
      some (answering .success (.imported ⟨importMissingFile⟩)) := by decide +kernel
  obtain ⟨-, hrefusal, -⟩ := (refused_unchanged t .primary select).2 _ hselect
  obtain ⟨hfiles, -, -, -, hother, hnone, -⟩ := hrefusal rfl
  obtain ⟨-, -, himport⟩ := (refused_unchanged t .primary early).2 _ hearly
  obtain ⟨code, hcode, hsame⟩ := himport rfl
  have hfailed : code ≠ ImportReply.noError := by
    rintro rfl
    exact absurd hcode (by decide)
  exact ⟨⟨hselect, hread, hfiles, hnone ⟨_, hread⟩, hother .secondary (by decide)⟩, hearly,
    (hsame hfailed).2.2.2⟩

end KeyInjection.Terminal
