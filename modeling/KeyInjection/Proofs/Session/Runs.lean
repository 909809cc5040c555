-- SUMMARY: Runs of sessions step by step, and surroundings that write down what is said to them.
import KeyInjection.KeyHost.Client
import KeyInjection.Proofs.Session.Talk

/-!
# Runs

The outcome of a run is made of its first step and the outcome of the rest. From this follow the
two ways used to compare runs: a run of a sequence is a run of each part, and surroundings that
answer alike from states that stay related leave the same record.

The record of a run says what the session saw of its steps. `run_recording` ties it to what the
channel and the key host saw: recording ones, which write down all that is handed to them, get just
the commands and the requests of the record.
-/

namespace KeyInjection

variable {ε φ ψ σ τ η : Type}

namespace Session

/-! ## First steps -/

theorem run_done (w : Surroundings σ) (a : α) (s : σ) :
    (done a : Session ε α).run w s = ⟨a, s, []⟩ := rfl

theorem run_exchange (w : Surroundings σ) (i : Interface) (c : Command)
    (next : Except Error Response → Session ε α) (s : σ) :
    (exchange i c next).run w s =
      let answer := w.exchange i c s
      let out := (next answer.1).run w answer.2
      { out with steps := .exchanged i c answer.1 :: out.steps } := by
  simp only [run, runAfter]
  rw [runAfter_steps]
  rfl

theorem run_post (w : Surroundings σ) (url body : String)
    (next : Except Error Bytes → Session ε α) (s : σ) :
    (post url body next).run w s =
      let answer := w.post url body s
      let out := (next answer.1).run w answer.2
      { out with steps := .posted url body answer.1 :: out.steps } := by
  simp only [run, runAfter]
  rw [runAfter_steps]
  rfl

theorem run_publish (w : Surroundings σ) (e : ε) (next : Session ε α) (s : σ) :
    (publish e next).run w s =
      let out := next.run w s
      { out with steps := .published e :: out.steps } := by
  simp only [run, runAfter]
  rw [runAfter_steps]
  rfl

/-- A run of two sessions in sequence is a run of the first and then one of the second. -/
theorem run_bind (w : Surroundings σ) (p : Session ε α) (k : α → Session ε β) (s : σ) :
    (p.bind k).run w s =
      let first := p.run w s
      let second := (k first.value).run w first.state
      { second with steps := first.steps ++ second.steps } := by
  induction p generalizing s with
  | done a => rfl
  | exchange i c next ih =>
    simp only [bind, run_exchange]
    rw [ih]
    rfl
  | post url body next ih =>
    simp only [bind, run_post]
    rw [ih]
    rfl
  | publish e next ih =>
    simp only [bind, run_publish]
    rw [ih]
    rfl

/-- A function applied to the end of a session changes nothing of its run but the end. -/
theorem run_map (w : Surroundings σ) (f : α → β) (p : Session ε α) (s : σ) :
    (f <$> p).run w s = { p.run w s with value := f (p.run w s).value } := by
  have hrun := run_bind w p (fun a => done (f a)) s
  simp only [run_done, List.append_nil] at hrun
  exact hrun

/-- What comes after an attempt is run from the state that the attempt leaves, unless it fails. -/
theorem run_attempt_bind (w : Surroundings σ) (a : Attempt ε φ α) (k : α → Attempt ε φ β) (s : σ) :
    (a >>= k).run.run w s =
      let first := a.run.run w s
      let second := (ExceptT.bindCont k first.value).run w first.state
      { second with steps := first.steps ++ second.steps } :=
  run_bind ..

/-- An attempt whose failure is looked at does not fail. -/
theorem run_lift (w : Surroundings σ) (a : Attempt ε ψ α) (s : σ) :
    (ExceptT.lift a.run : Attempt ε φ (Except ψ α)).run.run w s =
      { a.run.run w s with value := .ok (a.run.run w s).value } :=
  run_map w Except.ok a.run s

/-- A run of an attempt whose failure is looked at, and then one of what comes after it. -/
theorem run_lift_bind (w : Surroundings σ) (a : Attempt ε ψ α) (k : Except ψ α → Attempt ε φ β)
    (s : σ) :
    (ExceptT.lift a.run >>= k).run.run w s =
      let first := a.run.run w s
      let second := (k first.value).run.run w first.state
      { second with steps := first.steps ++ second.steps } := by
  rw [ExceptT.run_bind_lift]
  exact run_bind ..

/-- What is true of every answer of the surroundings is true of those in the record. -/
theorem forall_mem_answersOf_run {w : Surroundings σ} {Q : Except Error Response → Prop}
    (hexchange : ∀ i c s, Q (w.exchange i c s).1) (p : Session ε α) (s : σ) :
    ∀ answer ∈ answersOf (p.run w s).steps, Q answer := by
  induction p generalizing s with
  | done a => exact nofun
  | exchange i c next ih =>
    rw [run_exchange]
    exact List.forall_mem_cons.2 ⟨hexchange i c s, ih _ _⟩
  | post url body next ih =>
    rw [run_post]
    exact ih _ _
  | publish e next ih =>
    rw [run_publish]
    exact ih _

/-! ## Surroundings that answer alike -/

/-- Surroundings that answer alike from related states, which stay related, leave the same record,
the same value, and related states. This is asked only of steps that the session does take. -/
theorem run_simulates_of_steps {w : Surroundings σ} {v : Surroundings τ} {R : σ → τ → Prop}
    {P : Step ε → Prop}
    (hexchange : ∀ i c s t, R s t → P (.exchanged i c (w.exchange i c s).1) →
      (w.exchange i c s).1 = (v.exchange i c t).1 ∧ R (w.exchange i c s).2 (v.exchange i c t).2)
    (hpost : ∀ url body s t, R s t → P (.posted url body (w.post url body s).1) →
      (w.post url body s).1 = (v.post url body t).1 ∧ R (w.post url body s).2 (v.post url body t).2)
    (p : Session ε α) {s : σ} {t : τ} (hrel : R s t) (hsteps : ∀ step ∈ (p.run w s).steps, P step) :
    (p.run w s).value = (p.run v t).value ∧ (p.run w s).steps = (p.run v t).steps ∧
      R (p.run w s).state (p.run v t).state := by
  induction p generalizing s t with
  | done a => exact ⟨rfl, rfl, hrel⟩
  | exchange i c next ih =>
    rw [run_exchange] at hsteps
    obtain ⟨hstep, hlater⟩ := List.forall_mem_cons.1 hsteps
    obtain ⟨hanswer, hrel⟩ := hexchange i c s t hrel hstep
    obtain ⟨hvalue, hrecord, hrel⟩ := ih (w.exchange i c s).1 hrel hlater
    rw [run_exchange, run_exchange]
    dsimp only
    rw [← hanswer]
    exact ⟨hvalue, congrArg _ hrecord, hrel⟩
  | post url body next ih =>
    rw [run_post] at hsteps
    obtain ⟨hstep, hlater⟩ := List.forall_mem_cons.1 hsteps
    obtain ⟨hanswer, hrel⟩ := hpost url body s t hrel hstep
    obtain ⟨hvalue, hrecord, hrel⟩ := ih (w.post url body s).1 hrel hlater
    rw [run_post, run_post]
    dsimp only
    rw [← hanswer]
    exact ⟨hvalue, congrArg _ hrecord, hrel⟩
  | publish e next ih =>
    rw [run_publish] at hsteps
    obtain ⟨-, hlater⟩ := List.forall_mem_cons.1 hsteps
    obtain ⟨hvalue, hrecord, hrel⟩ := ih hrel hlater
    rw [run_publish, run_publish]
    exact ⟨hvalue, congrArg _ hrecord, hrel⟩

/-- So it is if they answer alike in every exchange. -/
theorem run_simulates {w : Surroundings σ} {v : Surroundings τ} {R : σ → τ → Prop}
    (hexchange : ∀ i c s t, R s t →
      (w.exchange i c s).1 = (v.exchange i c t).1 ∧ R (w.exchange i c s).2 (v.exchange i c t).2)
    (hpost : ∀ url body s t, R s t →
      (w.post url body s).1 = (v.post url body t).1 ∧ R (w.post url body s).2 (v.post url body t).2)
    (p : Session ε α) {s : σ} {t : τ} (hrel : R s t) :
    (p.run w s).value = (p.run v t).value ∧ (p.run w s).steps = (p.run v t).steps ∧
      R (p.run w s).state (p.run v t).state :=
  run_simulates_of_steps (P := fun _ => True) (fun i c s t hrel _ => hexchange i c s t hrel)
    (fun url body s t hrel _ => hpost url body s t hrel) p hrel fun _ _ => trivial

end Session

/-! ## What surroundings are told -/

/-- The channel, with a list of all commands that were handed to it for sending. -/
def Channel.recording (ch : Channel σ) : Channel (σ × List (Interface × Command)) where
  send i c s := let (r, d) := ch.send i c s.1; (r, (d, s.2 ++ [(i, c)]))
  receive i s := let (r, d) := ch.receive i s.1; (r, (d, s.2))

/-- The key host, with a list of all requests that were posted to it. -/
def KeyHost.recording (h : KeyHost η) : KeyHost (η × List (String × String)) where
  post url body k := let (r, d) := h.post url body k.1; (r, (d, k.2 ++ [(url, body)]))

/-- One exchange hands one command over, whatever becomes of it. -/
theorem Channel.exchange_recording (ch : Channel σ) (i : Interface) (c : Command) (s : σ)
    (sent : List (Interface × Command)) :
    ch.recording.exchange i c (s, sent) =
      ((ch.exchange i c s).1, ((ch.exchange i c s).2, sent ++ [(i, c)])) := by
  have hsent : ch.recording.send i c (s, sent) =
      ((ch.send i c s).1, ((ch.send i c s).2, sent ++ [(i, c)])) := rfl
  have hreceived : ∀ d log, ch.recording.receive i (d, log) =
      ((ch.receive i d).1, ((ch.receive i d).2, log)) := fun _ _ => rfl
  rw [exchange, exchange, hsent]
  rcases ch.send i c s with ⟨_ | _, d⟩
  · rfl
  · dsimp only
    rw [hreceived]
    rcases ch.receive i d with ⟨_ | _ | _, d'⟩ <;> rfl

/-- Recording changes nothing that a session sees, and what is written down are the commands and
requests of the record. -/
theorem Session.run_recording (p : Session ε α) (ch : Channel σ) (h : KeyHost η) (s : σ) (k : η)
    (sent : List (Interface × Command)) (posted : List (String × String)) :
    p.run (.of ch.recording h.recording) ((s, sent), (k, posted)) =
      let out := p.run (.of ch h) (s, k)
      ⟨out.value, ((out.state.1, sent ++ commandsOf out.steps),
        (out.state.2, posted ++ postsOf out.steps)), out.steps⟩ := by
  have hexchange : ∀ i c s k sent posted,
      (Surroundings.of ch.recording h.recording).exchange i c ((s, sent), (k, posted)) =
        ((ch.exchange i c s).1, (((ch.exchange i c s).2, sent ++ [(i, c)]), (k, posted))) := by
    intro i c s k sent posted
    simp only [Surroundings.of, Channel.exchange_recording]
  have hpost : ∀ url body s k sent posted,
      (Surroundings.of ch.recording h.recording).post url body ((s, sent), (k, posted)) =
        ((h.post url body k).1, ((s, sent), ((h.post url body k).2, posted ++ [(url, body)]))) :=
    fun _ _ _ _ _ _ => rfl
  induction p generalizing s k sent posted with
  | done a => simp [run_done]
  | exchange i c next ih =>
    rw [run_exchange, run_exchange, hexchange]
    dsimp only
    rw [ih]
    simp [Surroundings.of, Step.command?, Step.posted?]
  | post url body next ih =>
    rw [run_post, run_post, hpost]
    dsimp only
    rw [ih]
    simp [Surroundings.of, Step.command?, Step.posted?]
  | publish e next ih =>
    rw [run_publish, run_publish, ih]
    simp [Step.command?, Step.posted?]

/-- A run with recording surroundings ends as one without, and what they have written down is just
what is in the record. -/
theorem Session.recorded_eq (p : Session ε α) (ch : Channel σ) (h : KeyHost η) (s : σ) (k : η) :
    let out := p.run (.of ch.recording h.recording) ((s, []), (k, []))
    out.value = (p.run (.of ch h) (s, k)).value ∧ out.state.1.2 = commandsOf out.steps ∧
      out.state.2.2 = postsOf out.steps := by
  rw [run_recording]
  exact ⟨rfl, rfl, rfl⟩

end KeyInjection
