-- SUMMARY: Keys are in place only after an import in key injection mode, with all key files there.
import KeyInjection.Proofs.Terminal.Histories

/-!
# The secure storage over any commands

Two commands change the state of the secure storage: starting key injection mode, and an import. So
of a terminal that has keys in place, and had none, one knows what must have happened, whatever else
was done to it: there was an import in key injection mode, with all key files there, and before it
the mode was started, unless it was active from the beginning (`secure_by_history`).
-/

namespace KeyInjection

/-- Key injection mode is active and no key is in place. -/
def SecureState.injecting : SecureState := ⟨true, false, false⟩

/-- Nothing keeps an import, if there is one, from ending key injection mode and putting both keys
in place. -/
def Faults.ImportsInFull (f : Faults) : Prop :=
  f.importKeepsInitialised = false ∧ f.importWithoutKeys = false

/-- The states that a secure storage comes to if imports are in full. -/
inductive SecureState.Regular : SecureState → Prop where
  | empty : Regular .empty
  | injecting : Regular .injecting
  | provisioned : Regular .provisioned

theorem SecureState.Regular.eq_or {s : SecureState} (h : s.Regular) :
    s = .empty ∨ s = .injecting ∨ s = .provisioned := by
  cases h with
  | empty => exact .inl rfl
  | injecting => exact .inr (.inl rfl)
  | provisioned => exact .inr (.inr rfl)

theorem SecureState.Regular.not_both {s : SecureState} (h : s.Regular) :
    ¬ (s.initialised = true ∧ s.anyKeyReady = true) := by
  cases h <;> decide

namespace Terminal

variable {t : Terminal} {x : Call}

/-- The call starts key injection mode. -/
structure Starts (t : Terminal) (x : Call) : Prop where
  read_eq : readCommand x.command = .ok .secureInit
  answer_eq : (t.handleCall x).1 = some (bare .success)
  secure_eq : (t.handleCall x).2.secure = .injecting

/-- The call is an import that succeeds, in key injection mode and with all key files there. -/
structure Imports (t : Terminal) (x : Call) : Prop where
  read_eq : readCommand x.command = .ok .keyImport
  answer_eq : (t.handleCall x).1 = some (answering .success (.imported ⟨ImportReply.noError⟩))
  initialised : t.secure.initialised = true
  contains (name : String) (hname : name ∈ Injection.keyFiles) : t.files.contains name = true

/-! ## One call -/

/-- A call leaves the state as it is, starts key injection mode, or imports the keys. -/
theorem secure_handleCall (t : Terminal) (x : Call) :
    (t.handleCall x).2.secure = t.secure ∨ t.Starts x ∨
      t.Imports x ∧ (t.handleCall x).2.secure = (t.withFaults x.faults).imported := by
  obtain hignored | ⟨answer, after, log, hobeyed, hhandled⟩ := handleCall_cases t x
  · exact .inl (congrArg (·.2.secure) hignored)
  have hanswer : (t.handleCall x).1 = some answer := congrArg Prod.fst hhandled
  have hsecure : (t.handleCall x).2.secure = after.secure := congrArg (·.2.secure) hhandled
  cases hobeyed with
  | unread => exact .inl hsecure
  | executed hread houtcome =>
    cases houtcome with
    | started => exact .inr (.inl ⟨hread, hanswer, hsecure⟩)
    | imported hmode hfiles =>
      exact .inr (.inr ⟨⟨hread, hanswer, hmode, List.all_eq_true.1 hfiles⟩, hsecure⟩)
    | _ => exact .inl hsecure

/-- Key injection mode becomes active by being started. -/
theorem starts_of_initialised (hbefore : ¬ t.secure.initialised = true)
    (hafter : (t.handleCall x).2.secure.initialised = true) : t.Starts x := by
  obtain hsame | hstarts | ⟨himports, -⟩ := secure_handleCall t x
  · rw [hsame] at hafter
    exact absurd hafter hbefore
  · exact hstarts
  · exact absurd himports.initialised hbefore

/-- A key comes to be in place by an import. -/
theorem imports_of_ready {ready : SecureState → Bool}
    (hready : ready ∈ [SecureState.pinKeyReady, SecureState.sredKeyReady])
    (hbefore : ¬ ready t.secure = true) (hafter : ready (t.handleCall x).2.secure = true) :
    t.Imports x := by
  obtain hsame | hstarts | ⟨himports, -⟩ := secure_handleCall t x
  · rw [hsame] at hafter
    exact absurd hafter hbefore
  · rw [hstarts.secure_eq] at hafter
    simp only [List.mem_cons, List.not_mem_nil, or_false] at hready
    obtain rfl | rfl := hready <;> cases hafter
  · exact himports

theorem regular_handleCall (hregular : t.secure.Regular) (hfull : x.faults.ImportsInFull) :
    (t.handleCall x).2.secure.Regular := by
  obtain hsame | hstarts | ⟨-, himported⟩ := secure_handleCall t x
  · rwa [hsame]
  · rw [hstarts.secure_eq]
    exact .injecting
  · have hprovisioned : (t.withFaults x.faults).imported = .provisioned := by
      simp [imported, withFaults, hfull.1, hfull.2, SecureState.provisioned]
    rw [himported, hprovisioned]
    exact .provisioned

/-! ## Any calls -/

/-- Whatever the commands, and whatever the faults while they came: if a key is in place that was
not before, there was an import, answered with success, in key injection mode and with all key files
there, and if the mode was not active from the beginning, it had been started before. The mode only
becomes active by being started, and then no key is in place. If imports are in full, a terminal
that has nothing in place, or both keys, is at no time in key injection mode with a key in place;
starts and imports that fail, and starts that are ignored, do no harm. -/
theorem secure_by_history (t : Terminal) (calls : List Call) :
    (∀ ready ∈ [SecureState.pinKeyReady, SecureState.sredKeyReady],
      ready t.secure = false → ready (t.handleCalls calls).secure = true →
        ∃ before x after, calls = before ++ x :: after ∧ (t.handleCalls before).Imports x ∧
          (t.secure.initialised = true ∨
            ∃ earlier y between, before = earlier ++ y :: between ∧
              (t.handleCalls earlier).Starts y)) ∧
    (∀ before x after, calls = before ++ x :: after →
      (t.handleCalls before).secure.initialised = false →
      ((t.handleCalls before).handleCall x).2.secure.initialised = true →
        (t.handleCalls before).Starts x) ∧
    ((∀ x ∈ calls, x.faults.ImportsInFull) → t.secure = .empty ∨ t.secure = .provisioned →
      ∀ before, before <+: calls →
        let s := (t.handleCalls before).secure
        (s = .empty ∨ s = .injecting ∨ s = .provisioned) ∧
          ¬ (s.initialised = true ∧ s.anyKeyReady = true)) := by
  refine ⟨?_, ?_, ?_⟩
  · intro ready hready hfirst hlast
    obtain ⟨before, x, after, hcalls, hbefore, hafter⟩ :=
      exists_becomes (P := fun t => ready t.secure = true) (by simp [hfirst]) hlast
    have himports := imports_of_ready hready hbefore hafter
    refine ⟨before, x, after, hcalls, himports, ?_⟩
    by_cases hmode : t.secure.initialised = true
    · exact .inl hmode
    · obtain ⟨earlier, y, between, hsplit, hnot, hactive⟩ :=
        exists_becomes (P := fun t => t.secure.initialised = true) hmode himports.initialised
      exact .inr ⟨earlier, y, between, hsplit, starts_of_initialised hnot hactive⟩
  · intro before x after _ hbefore hafter
    exact starts_of_initialised (by simp [hbefore]) hafter
  · intro hfull hstart before hbegun s
    have hregular : s.Regular := by
      refine handleCalls_preserves (P := fun t => t.secure.Regular) ?_ ?_
      · obtain hstart | hstart := hstart <;> rw [hstart]
        · exact .empty
        · exact .provisioned
      · intro t x hx hregular
        exact regular_handleCall hregular (hfull x (List.IsPrefix.subset hbegun hx))
    exact ⟨hregular.eq_or, hregular.not_both⟩

/-- A terminal that has the key files is told to start key injection mode, and then to import. -/
theorem secure_by_history_imported :
    let t : Terminal := { files := .ofList (Injection.keyFiles.map fun name => (name, [])) }
    let start : Call := ⟨.none, .primary, ⟨⟨0xd0, 0x20, 0, 0⟩, []⟩⟩
    let keys : Call := ⟨.none, .primary, ⟨⟨0xd0, 0x22, 0, 0⟩, []⟩⟩
    (t.handleCalls [start, keys]).secure = .provisioned ∧ t.Starts start ∧
      (∃ before x after, [start, keys] = before ++ x :: after ∧
        (t.handleCalls before).Imports x) ∧
      ¬ ((t.handleCalls [start]).secure.initialised = true ∧
        (t.handleCalls [start]).secure.anyKeyReady = true) := by
  intro t start keys
  have hlast : (t.handleCalls [start, keys]).secure = .provisioned := by decide +kernel
  have hfull : ∀ x ∈ [start, keys], x.faults.ImportsInFull := by
    intro x hx
    simp only [List.mem_cons, List.not_mem_nil, or_false] at hx
    obtain rfl | rfl := hx <;> exact ⟨rfl, rfl⟩
  obtain ⟨hready, hmode, hregular⟩ := secure_by_history t [start, keys]
  obtain ⟨before, x, after, hcalls, himports, -⟩ :=
    hready SecureState.pinKeyReady (by simp) rfl (congrArg (·.pinKeyReady) hlast)
  exact ⟨hlast, hmode [] start [keys] rfl rfl rfl, ⟨before, x, after, hcalls, himports⟩,
    (hregular hfull (.inl rfl) [start] ⟨[keys], rfl⟩).2⟩

end Terminal

end KeyInjection
