-- SUMMARY: The grammar of the events that an injection publishes.
import KeyInjection.Proofs.Injection.Dialogue

/-!
# Events of injections

The record of an injection is narrated stage by stage, and within a stage phase by phase. From this
follows which events can stand where, and that the last of the stages before the end is entered
only after the terminal has accepted the keys.
-/

namespace KeyInjection.Injection

open Device Transfer

variable {cfg : Config} {url : String}

/-! ## Which events can stand where -/

/-- The events that a stage can publish between its entry and the next one. -/
def Event.Belongs (cfg : Config) : Event → Stage → Prop
  | stage _, _ => False
  | download file share, s =>
    s = .readingBootstrapFiles ∧ file ∈ bootstrapFiles ∧ 0 < share.moved ∧
      share.moved ≤ share.total
  | upload file sent, s => s = .injectingKeys ∧ file ∈ keyFiles ∧ 0 < sent
  | displayWarning _, s =>
    s ∈ [.initialising, .contactingHost, .injectingKeys, .confirmingState] ∧
      (cfg.policy = .strict → s = .confirmingState)

/-- The events that a phase can publish. -/
def Phase.CanPublish (cfg : Config) : Phase → Event → Prop
  | prompt _, e => cfg.policy = .bestEffort ∧ ∃ text, e = .displayWarning text
  | lastPrompt _, e => ∃ text, e = .displayWarning text
  | download file _ _, e =>
    ∃ share : Share, e = .download file share ∧ 0 < share.moved ∧ share.moved ≤ share.total
  | upload file content, e => ∃ sent, e = .upload file sent ∧ 0 < sent ∧ sent ≤ content.length
  | _, _ => False

theorem mem_warnings {policy : PromptPolicy} {r : Except Error Unit} {e : Event}
    (he : e ∈ warnings policy r) : policy = .bestEffort ∧ ∃ text, e = .displayWarning text := by
  cases r with
  | ok _ => cases he
  | error cause =>
    rw [warnings] at he
    split at he
    case isTrue hpolicy => exact ⟨hpolicy, _, List.mem_singleton.1 he⟩
    case isFalse => cases he

theorem Phase.Publishes.canPublish {p : Phase} {steps : List (Step Event)}
    (hevents : p.Publishes cfg steps) {e : Event} (he : e ∈ eventsOf steps) :
    p.CanPublish cfg e := by
  cases p with
  | prompt text =>
    obtain ⟨r, -, hwarnings⟩ := hevents
    exact mem_warnings (hwarnings ▸ he)
  | lastPrompt warning =>
    obtain ⟨r, -, hwarnings⟩ := hevents
    exact (mem_warnings (hwarnings ▸ he)).2
  | download file text pieces =>
    obtain ⟨result, total, counts, -, -, hprogress, hreports⟩ := hevents
    rw [hreports] at he
    obtain ⟨n, hn, rfl⟩ := List.mem_map.1 he
    exact ⟨_, rfl, hprogress.bounded n hn⟩
  | upload file content =>
    obtain ⟨result, counts, -, hprogress, hreports⟩ := hevents
    rw [hreports] at he
    obtain ⟨n, hn, rfl⟩ := List.mem_map.1 he
    exact ⟨n, rfl, hprogress.bounded n hn⟩
  | start | started | host | derive | keyImport | confirm =>
    have hquiet : eventsOf steps = [] := hevents
    rw [hquiet] at he
    cases he

section

variable {text : String → String} {pieces : String → List Bytes}
variable {response : ProvisioningResponse} {content : String → Bytes} {report : Report}

/-- What a phase can publish belongs to its stage. -/
theorem belongs_of_canPublish {s : Stage} {phases : List Phase}
    (hstage : (s, phases) ∈ chapters cfg text pieces response content report) {p : Phase}
    (hp : p ∈ phases) {e : Event} (he : p.CanPublish cfg e) : e.Belongs cfg s := by
  have hwarning : s ∈ [.initialising, .contactingHost, .injectingKeys, .confirmingState] →
      (cfg.policy = .bestEffort ∧ ∃ text, e = .displayWarning text) → e.Belongs cfg s := by
    rintro hs ⟨hpolicy, text, rfl⟩
    exact ⟨hs, fun hstrict => by rw [hpolicy] at hstrict; cases hstrict⟩
  simp only [chapters, List.mem_cons, Prod.mk.injEq, List.not_mem_nil, or_false] at hstage
  rcases hstage with ⟨rfl, rfl⟩ | ⟨rfl, rfl⟩ | ⟨rfl, rfl⟩ | ⟨rfl, rfl⟩ | ⟨rfl, rfl⟩
  · simp only [startPhases, List.mem_cons, List.not_mem_nil, or_false] at hp
    rcases hp with rfl | rfl | rfl
    · exact hwarning (by simp) he
    · exact he.elim
    · exact he.elim
  · obtain ⟨file, hfile, rfl⟩ := List.mem_map.1 hp
    obtain ⟨share, rfl, hbounds⟩ := he
    exact ⟨rfl, hfile, hbounds⟩
  · simp only [hostPhases, List.mem_cons, List.not_mem_nil, or_false] at hp
    rcases hp with rfl | rfl
    · exact hwarning (by simp) he
    · exact he.elim
  · simp only [keyPhases, List.mem_append, List.mem_cons, List.not_mem_nil, or_false] at hp
    rcases hp with ((rfl | rfl) | hp) | rfl
    · exact hwarning (by simp) he
    · exact he.elim
    · obtain ⟨file, hfile, rfl⟩ := List.mem_map.1 hp
      obtain ⟨sent, rfl, hsent, -⟩ := he
      exact ⟨rfl, hfile, hsent⟩
    · exact he.elim
  · simp only [endPhases, List.mem_cons, List.not_mem_nil, or_false] at hp
    rcases hp with rfl | rfl
    · exact he.elim
    · obtain ⟨text, rfl⟩ := he
      exact ⟨by simp, fun _ => rfl⟩

variable {parts : List (Stage × List (Step Event))} {r : Except Failure Unit}

theorem Narrates.belongs
    (hnarrates : Narrates cfg url (chapters cfg text pieces response content report) parts r) :
    ∀ part ∈ parts, ∀ e ∈ eventsOf part.2, e.Belongs cfg part.1 := by
  intro part hpart e he
  obtain ⟨phases, _, hstage, htells⟩ := hnarrates.tells_of_mem hpart
  obtain ⟨p, hp, _, hevents, he⟩ := htells.exists_publishes he
  exact belongs_of_canPublish hstage hp (hevents.canPublish he)

/-! ## What the last stage before the end comes after -/

/-- The state is confirmed only once the keys have been imported. -/
theorem Narrates.imports
    (hnarrates : Narrates cfg url (chapters cfg text pieces response content report) parts r)
    (hconfirming : .confirmingState ∈ parts.map (·.1)) :
    ∃ written imported, (.injectingKeys, written ++ imported) ∈ parts ∧
      Imports cfg.interface (talkOf imported) (.ok ()) := by
  cases hnarrates with
  | fail => simp at hconfirming
  | pass _ hnarrates =>
    cases hnarrates with
    | fail => simp at hconfirming
    | pass _ hnarrates =>
      cases hnarrates with
      | fail => simp at hconfirming
      | pass _ hnarrates =>
        cases hnarrates with
        | fail => simp at hconfirming
        | pass hkeys _ =>
          obtain ⟨written, imported, rfl, -, himport⟩ := hkeys.of_append
          exact ⟨written, imported, by simp, himport.passes⟩

end

/-! ## The grammar -/

/-- The events of an injection follow its record. First it is idle. Then it enters its stages, each
at most once and in order, until one fails or all have been gone through. In its part of the record
a stage goes through its phases in order, up to one that fails, and each phase publishes what
`Phase.Publishes` says: one warning for a prompt that could not be shown and was ignored, and its
progress for a file that is moved, file after file. Last comes the end, complete if the injection
succeeds and else failed. So between the entries of stages only those events stand that belong
there, and warnings under the policy `strict` only after the last stage was entered. The state is
confirmed only after an import that the terminal answered with the code zero. -/
theorem inject_events (w : Surroundings σ) (cfg : Config) (url : String) (s : σ) :
    let out := (inject cfg url).run w s
    let stages := [Stage.initialising, .readingBootstrapFiles, .contactingHost, .injectingKeys,
      .confirmingState]
    ∃ text pieces response content report parts,
      out.steps = .published (.stage .idle) :: recordOf parts ++
        [.published (.stage (lastStage out.value))] ∧
      Narrates cfg url (chapters cfg text pieces response content report) parts
        (out.value.map fun _ => ()) ∧
      parts ≠ [] ∧ parts.map (·.1) <+: stages ∧
      (∀ result, out.value = .ok result → parts.map (·.1) = stages) ∧
      (∀ part ∈ parts, ∀ e ∈ eventsOf part.2, e.Belongs cfg part.1) ∧
      (.confirmingState ∈ parts.map (·.1) →
        ∃ written imported, (.injectingKeys, written ++ imported) ∈ parts ∧
          Imports cfg.interface (talkOf imported) (.ok ())) := by
  intro out stages
  obtain ⟨text, pieces, response, content, report, parts, hrecord, hnarrates, -⟩ :=
    narrates_of_inject w cfg url s
  obtain ⟨hinitial, hsome, hall⟩ := hnarrates.entered
  refine ⟨text, pieces, response, content, report, parts, hrecord, hnarrates,
    hsome (List.cons_ne_nil _ _), hinitial, ?_, hnarrates.belongs, hnarrates.imports⟩
  intro result hok
  exact hall (by rw [show ((inject cfg url).run w s).value = .ok result from hok]; rfl)

end KeyInjection.Injection
