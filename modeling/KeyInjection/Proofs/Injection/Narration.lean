-- SUMMARY: The events that the phases of an injection publish, and its stages one after the other.
import KeyInjection.Proofs.Injection.Phases
import KeyInjection.Proofs.Transfer.Progress

/-!
# Narrated injections

A phase that moves a file publishes its progress, a phase that shows a prompt publishes a warning
if the prompt could not be shown and the injection goes on all the same; no other phase publishes
anything. `Tells` plays phases like `Runs`, with the record of each instead of its talk alone.
`Narrates` does the same stage by stage: each stage that is entered has a part of the record, and
its phases are gone through in that part.
-/

namespace KeyInjection.Injection

open Device Transfer

/-! ## Phases -/

/-- The warning of a prompt that could not be shown, under a policy that lets the injection go
on. -/
def warnings (policy : PromptPolicy) : Except Error Unit → List Event
  | .ok () => []
  | .error e => if policy = .bestEffort then [.displayWarning e.message] else []

/-- The phase publishes the events of this record. -/
def Phase.Publishes (cfg : Config) : Phase → List (Step Event) → Prop
  | prompt text, steps =>
    ∃ r, Shows cfg text (talkOf steps) r ∧ eventsOf steps = warnings cfg.policy r
  | lastPrompt _, steps =>
    ∃ r, Shows cfg cfg.prompts.complete (talkOf steps) r ∧
      eventsOf steps = warnings .bestEffort r
  | download file _ _, steps =>
    ∃ result total counts,
      Downloads cfg.interface file cfg.download.maxChunk (talkOf steps) result ∧
        (∀ pieces, result = .ok pieces → pieces.flatten.length = total) ∧
        Progresses cfg.download.granularity total result.isOk counts ∧
        eventsOf steps = counts.map fun moved => .download file ⟨moved, total⟩
  | upload file content, steps =>
    ∃ result counts, Uploads cfg.interface file cfg.upload content (talkOf steps) result ∧
      Progresses cfg.upload.granularity content.length result.isOk counts ∧
      eventsOf steps = counts.map (.upload file)
  | _, steps => eventsOf steps = []

/-- The phases are gone through in order with this record, up to the first that fails. -/
inductive Tells (cfg : Config) (url : String) :
    List Phase → List (Step Event) → Except Failure Unit → Prop where
  | done : Tells cfg url [] [] (.ok ())
  | fail {p : Phase} {later : List Phase} {steps : List (Step Event)} {f : Failure}
      (hfail : p.Fails cfg url (talkOf steps) f) (hevents : p.Publishes cfg steps) :
      Tells cfg url (p :: later) steps (.error f)
  | pass {p : Phase} {later : List Phase} {first rest : List (Step Event)}
      {r : Except Failure Unit} (hpass : p.Passes cfg url (talkOf first))
      (hevents : p.Publishes cfg first) (hlater : Tells cfg url later rest r) :
      Tells cfg url (p :: later) (first ++ rest) r

namespace Tells

variable {cfg : Config} {url : String}

/-- The talk of what is told is a run through the phases. -/
theorem runs {phases : List Phase} {steps : List (Step Event)} {r : Except Failure Unit}
    (htells : Tells cfg url phases steps r) : Runs cfg url phases (talkOf steps) r := by
  induction htells with
  | done => exact .done
  | fail hfail _ => exact .fail hfail
  | pass hpass _ _ ih =>
    rw [talkOf_append]
    exact .pass hpass ih

theorem single {p : Phase} {steps : List (Step Event)} {r : Except Failure Unit}
    (hruns : Runs cfg url [p] (talkOf steps) r) (hevents : p.Publishes cfg steps) :
    Tells cfg url [p] steps r := by
  generalize htalk : talkOf steps = talk at hruns
  cases hruns with
  | fail hfail => exact .fail (htalk ▸ hfail) hevents
  | pass hpass hlater =>
    cases hlater
    rw [List.append_nil] at htalk
    rw [← List.append_nil steps]
    exact .pass (htalk ▸ hpass) hevents .done

theorem append {first second : List Phase} {steps rest : List (Step Event)}
    {r : Except Failure Unit} (hfirst : Tells cfg url first steps (.ok ()))
    (hsecond : Tells cfg url second rest r) :
    Tells cfg url (first ++ second) (steps ++ rest) r := by
  generalize hok : (.ok () : Except Failure Unit) = x at hfirst
  induction hfirst with
  | done => exact hsecond
  | fail => cases hok
  | pass hpass hevents _ ih =>
    rw [List.append_assoc]
    exact .pass hpass hevents (ih hok)

theorem append_error {first second : List Phase} {steps : List (Step Event)} {f : Failure}
    (hfirst : Tells cfg url first steps (.error f)) :
    Tells cfg url (first ++ second) steps (.error f) := by
  generalize herror : (.error f : Except Failure Unit) = x at hfirst
  induction hfirst with
  | done => cases herror
  | fail hfail hevents => exact .fail hfail hevents
  | pass hpass hevents _ ih => exact .pass hpass hevents (ih herror)

/-- What is told of phases that all pass is told of the first of them and then of the others. -/
theorem of_append {first second : List Phase} {steps : List (Step Event)}
    (htells : Tells cfg url (first ++ second) steps (.ok ())) :
    ∃ before after, steps = before ++ after ∧ Tells cfg url first before (.ok ()) ∧
      Tells cfg url second after (.ok ()) := by
  induction first generalizing steps with
  | nil => exact ⟨[], steps, rfl, .done, htells⟩
  | cons p first ih =>
    cases htells with
    | @pass _ _ begun _ _ hpass hevents hlater =>
      obtain ⟨before, after, rfl, hfirst, hsecond⟩ := ih hlater
      exact ⟨begun ++ before, after, by simp, .pass hpass hevents hfirst, hsecond⟩

theorem passes {p : Phase} {steps : List (Step Event)}
    (htells : Tells cfg url [p] steps (.ok ())) : p.Passes cfg url (talkOf steps) := by
  cases htells with
  | pass hpass _ hlater =>
    cases hlater
    rwa [List.append_nil]

/-- Each event is published by one of the phases. -/
theorem exists_publishes {phases : List Phase} {steps : List (Step Event)}
    {r : Except Failure Unit} (htells : Tells cfg url phases steps r) {e : Event}
    (he : e ∈ eventsOf steps) : ∃ p ∈ phases, ∃ part, p.Publishes cfg part ∧ e ∈ eventsOf part := by
  induction htells with
  | done => cases he
  | fail _ hevents => exact ⟨_, List.mem_cons_self .., _, hevents, he⟩
  | pass _ hevents _ ih =>
    rw [eventsOf_append] at he
    rcases List.mem_append.1 he with he | he
    · exact ⟨_, List.mem_cons_self .., _, hevents, he⟩
    · obtain ⟨p, hp, part, hpart⟩ := ih he
      exact ⟨p, List.mem_cons_of_mem _ hp, part, hpart⟩

end Tells

/-! ## Stages -/

/-- The stages of an injection with their phases. -/
def chapters (cfg : Config) (text : String → String) (pieces : String → List Bytes)
    (response : ProvisioningResponse) (content : String → Bytes) (report : Report) :
    List (Stage × List Phase) :=
  [(.initialising, startPhases cfg), (.readingBootstrapFiles, bootstrapPhases text pieces),
    (.contactingHost, hostPhases cfg text response),
    (.injectingKeys, keyPhases cfg response content), (.confirmingState, endPhases report)]

/-- The record of stages that were entered, from their parts. -/
def recordOf (parts : List (Stage × List (Step Event))) : List (Step Event) :=
  parts.flatMap fun part => .published (.stage part.1) :: part.2

/-- The stages are gone through in order, each with its part of the record, up to the first of which
a phase fails. -/
inductive Narrates (cfg : Config) (url : String) : List (Stage × List Phase) →
    List (Stage × List (Step Event)) → Except Failure Unit → Prop where
  | done : Narrates cfg url [] [] (.ok ())
  | fail {s : Stage} {phases : List Phase} {later : List (Stage × List Phase)}
      {steps : List (Step Event)} {f : Failure} (htells : Tells cfg url phases steps (.error f)) :
      Narrates cfg url ((s, phases) :: later) [(s, steps)] (.error f)
  | pass {s : Stage} {phases : List Phase} {later : List (Stage × List Phase)}
      {steps : List (Step Event)} {parts : List (Stage × List (Step Event))}
      {r : Except Failure Unit} (htells : Tells cfg url phases steps (.ok ()))
      (hlater : Narrates cfg url later parts r) :
      Narrates cfg url ((s, phases) :: later) ((s, steps) :: parts) r

@[simp] theorem recordOf_nil : recordOf [] = [] := rfl

@[simp] theorem recordOf_cons (part : Stage × List (Step Event))
    (parts : List (Stage × List (Step Event))) :
    recordOf (part :: parts) = .published (.stage part.1) :: (part.2 ++ recordOf parts) := rfl

namespace Narrates

variable {cfg : Config} {url : String} {stages : List (Stage × List Phase)}
variable {parts : List (Stage × List (Step Event))} {r : Except Failure Unit}

/-- The talk of what is narrated is a run through the phases of the stages. -/
theorem runs (hnarrates : Narrates cfg url stages parts r) :
    Runs cfg url (stages.flatMap (·.2)) (talkOf (recordOf parts)) r := by
  induction hnarrates with
  | done => exact .done
  | @fail s phases later steps f htells =>
    have htalk : talkOf (recordOf [(s, steps)]) = talkOf steps := by
      simp [talkOf, Step.isTalk]
    rw [htalk]
    exact htells.runs.append_error
  | @pass s phases later steps parts r htells _ ih =>
    have htalk :
        talkOf (recordOf ((s, steps) :: parts)) = talkOf steps ++ talkOf (recordOf parts) := by
      simp [talkOf, Step.isTalk]
    rw [htalk]
    exact htells.runs.append ih

/-- Stages are entered in order, at least one if there are any, and all of them unless one fails. -/
theorem entered (hnarrates : Narrates cfg url stages parts r) :
    parts.map (·.1) <+: stages.map (·.1) ∧ (stages ≠ [] → parts ≠ []) ∧
      (r = .ok () → parts.map (·.1) = stages.map (·.1)) := by
  induction hnarrates with
  | done => exact ⟨List.prefix_rfl, fun hnone => absurd rfl hnone, fun _ => rfl⟩
  | fail => exact ⟨⟨_, rfl⟩, fun _ => List.cons_ne_nil _ _, nofun⟩
  | pass _ _ ih =>
    obtain ⟨hinitial, -, hall⟩ := ih
    exact ⟨List.prefix_cons_inj _ |>.2 hinitial, fun _ => List.cons_ne_nil _ _,
      fun hr => congrArg _ (hall hr)⟩

/-- Each part goes through the phases of its stage. -/
theorem tells_of_mem (hnarrates : Narrates cfg url stages parts r)
    {part : Stage × List (Step Event)} (hpart : part ∈ parts) :
    ∃ phases r, (part.1, phases) ∈ stages ∧ Tells cfg url phases part.2 r := by
  induction hnarrates with
  | done => cases hpart
  | fail htells =>
    obtain rfl := List.mem_singleton.1 hpart
    exact ⟨_, _, List.mem_cons_self .., htells⟩
  | pass htells _ ih =>
    rcases List.mem_cons.1 hpart with rfl | hpart
    · exact ⟨_, _, List.mem_cons_self .., htells⟩
    · obtain ⟨phases, r, hphases, htells⟩ := ih hpart
      exact ⟨phases, r, List.mem_cons_of_mem _ hphases, htells⟩

end Narrates

end KeyInjection.Injection
