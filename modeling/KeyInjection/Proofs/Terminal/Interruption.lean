-- SUMMARY: Sessions with a terminal that stops responding after some number of commands.
import KeyInjection.Proofs.Terminal.Obeying

/-!
# Interrupted sessions

A terminal can be told to stop responding once its log has a certain number of commands. While it
responds, a session goes as without the limit; a command that comes later is not executed and gets
no answer, nor does any after it. Hence a session either ends before the limit and is not touched
by it (`run_withLimit_of_le`), or is cut off there: the terminal stays as the commands up to the
limit have left it, and all further answers are timeouts (`run_withLimit_of_lt`).
-/

namespace KeyInjection

variable {ε η : Type}

/-! ## Terminals with a limit -/

namespace Terminal

variable {t : Terminal} {limit : Nat} {i : Interface} {c : Command}

/-- The terminal, told to stop responding once its log has this many commands. -/
def withLimit (t : Terminal) (limit : Nat) : Terminal :=
  { t with faults := { t.faults with dropResponsesAfter := some limit } }

theorem isSilent_withLimit : (t.withLimit limit).isSilent = decide (limit ≤ t.commands.size) := rfl

/-- Below the limit a command is handled as without one. -/
theorem handle_withLimit (hunlimited : t.faults.dropResponsesAfter = none)
    (hroom : t.commands.size < limit) :
    (t.withLimit limit).handle i c = ((t.handle i c).1, (t.handle i c).2.withLimit limit) := by
  have hresponds : (t.withLimit limit).isSilent = false := by
    rw [isSilent_withLimit]
    exact decide_eq_false (Nat.not_le.2 hroom)
  have hobey : (t.withLimit limit).obey i c =
      ((t.obey i c).1, (t.obey i c).2.withLogAndLimit t.commands (some limit)) :=
    obey_withLogAndLimit t t.commands (some limit) i c
  rw [handle_of_responds hresponds, handle_of_responds (isSilent_of_unlimited hunlimited), hobey]
  simp only [withLogAndLimit, withLimit, obey_commands]
  rfl

/-- A terminal that responds logs the command. -/
theorem handle_commands (hresponds : t.isSilent = false) :
    (t.handle i c).2.commands = t.commands.push (t.recordOf i c) := by
  rw [handle_of_responds hresponds, ← obey_commands t i c]

/-- Without a limit the log grows by one. -/
theorem size_handle (hunlimited : t.faults.dropResponsesAfter = none) :
    (t.handle i c).2.commands.size = t.commands.size + 1 := by
  rw [handle_commands (isSilent_of_unlimited hunlimited), Array.size_push]

/-- A terminal without a limit logs every command it is handed, behind what it has logged before. -/
theorem handleAll_commands (hunlimited : t.faults.dropResponsesAfter = none)
    (commands : List (Interface × Command)) :
    ∃ records, records.length = commands.length ∧
      (t.handleAll commands).commands.toList = t.commands.toList ++ records := by
  induction commands generalizing t with
  | nil => exact ⟨[], rfl, by simp⟩
  | cons x rest ih =>
    have hnext : (t.handle x.1 x.2).2.faults.dropResponsesAfter = none := by
      rw [handle_faults, hunlimited]
    obtain ⟨records, hlength, hlog⟩ := ih hnext
    refine ⟨t.recordOf x.1 x.2 :: records, by simp [hlength], ?_⟩
    rw [handleAll_cons, hlog, handle_commands (isSilent_of_unlimited hunlimited)]
    simp

theorem size_handleAll (hunlimited : t.faults.dropResponsesAfter = none)
    (commands : List (Interface × Command)) :
    (t.handleAll commands).commands.size = t.commands.size + commands.length := by
  obtain ⟨records, hlength, hlog⟩ := handleAll_commands hunlimited commands
  rw [← Array.length_toList, hlog, List.length_append, hlength, Array.length_toList]

/-- After the first of some commands the log is the first part of the log after all of them. -/
theorem toList_commands_handleAll_take (hunlimited : t.faults.dropResponsesAfter = none)
    (commands : List (Interface × Command)) (n : Nat) :
    (t.handleAll (commands.take n)).commands.toList =
      (t.handleAll commands).commands.toList.take (t.commands.size + n) := by
  have hsize := size_handleAll hunlimited commands
  by_cases hall : commands.length ≤ n
  · rw [List.take_of_length_le hall, List.take_of_length_le]
    rw [Array.length_toList, hsize]
    exact Nat.add_le_add_left hall _
  · have hfirst := size_handleAll hunlimited (commands.take n)
    obtain ⟨later, -, hlog⟩ := handleAll_commands (t := t.handleAll (commands.take n))
      (by simp [hunlimited]) (commands.drop n)
    rw [← handleAll_append, List.take_append_drop] at hlog
    rw [hlog, List.take_left']
    rw [Array.length_toList, hfirst, List.length_take_of_le (Nat.le_of_not_le hall)]

end Terminal

/-! ## Sessions -/

namespace Session

/-- A silent terminal gives no answer. -/
theorem answersOf_run_silent (p : Session ε α) (h : KeyHost η) {t : Terminal}
    (hsilent : t.isSilent = true) (k : η) :
    ∃ n, answersOf (p.run (.handling h) (t, k)).steps =
      List.replicate n (.error .requestTimeout) := by
  induction p generalizing k with
  | done a => exact ⟨0, rfl⟩
  | exchange i c next ih =>
    rw [run_handling_exchange, Terminal.handle_of_isSilent hsilent]
    obtain ⟨n, hlater⟩ := ih (.error .requestTimeout) k
    exact ⟨n + 1, congrArg (Except.error Error.requestTimeout :: ·) hlater⟩
  | post url body next ih =>
    rw [run_handling_post]
    exact ih _ _
  | publish e next ih =>
    rw [run_publish]
    exact ih k

/-- A terminal without a limit answers everything. -/
theorem answersOf_run_unlimited (p : Session ε α) (h : KeyHost η) {t : Terminal}
    (hunlimited : t.faults.dropResponsesAfter = none) (k : η) :
    ∀ answer ∈ answersOf (p.run (.handling h) (t, k)).steps, ∃ r, answer = .ok r := by
  induction p generalizing t k with
  | done a => exact nofun
  | exchange i c next ih =>
    rw [run_handling_exchange]
    have hlater := ih (ofReceived (.ok (t.handle i c).1)) (t := (t.handle i c).2)
      (by simp [hunlimited]) k
    rw [Terminal.handle_of_responds (Terminal.isSilent_of_unlimited hunlimited)] at hlater ⊢
    exact List.forall_mem_cons.2 ⟨⟨_, rfl⟩, hlater⟩
  | post url body next ih =>
    rw [run_handling_post]
    exact ih _ hunlimited _
  | publish e next ih =>
    rw [run_publish]
    exact ih hunlimited k

/-- A session that ends before the limit is not touched by it. -/
theorem run_withLimit_of_le (p : Session ε α) (h : KeyHost η) {t : Terminal} {limit : Nat}
    (hunlimited : t.faults.dropResponsesAfter = none) (k : η)
    (hroom : t.commands.size + (commandsOf (p.run (.handling h) (t, k)).steps).length ≤ limit) :
    p.run (.handling h) (t.withLimit limit, k) =
      let clean := p.run (.handling h) (t, k)
      ⟨clean.value, (clean.state.1.withLimit limit, clean.state.2), clean.steps⟩ := by
  induction p generalizing t k with
  | done a => rfl
  | exchange i c next ih =>
    have hsize := Terminal.size_handle (i := i) (c := c) hunlimited
    rw [run_handling_exchange] at hroom ⊢
    simp only [commandsOf_cons, Step.command?, Option.toList_some, List.length_append,
      List.length_singleton] at hroom
    rw [Terminal.handle_withLimit hunlimited (by omega)]
    dsimp only
    rw [ih _ (by simp [hunlimited]) k (by omega), run_handling_exchange]
  | post url body next ih =>
    rw [run_handling_post] at hroom ⊢
    dsimp only
    rw [ih _ hunlimited _ hroom, run_handling_post]
  | publish e next ih =>
    rw [run_publish] at hroom ⊢
    rw [ih hunlimited k hroom, run_publish]

/-- A session that would go on beyond the limit is cut off there: the terminal stays as the
commands before have left it, and from then on every answer is a timeout. -/
theorem run_withLimit_of_lt (p : Session ε α) (h : KeyHost η) {t : Terminal} {limit n : Nat}
    (hunlimited : t.faults.dropResponsesAfter = none) (k : η)
    (hlimit : limit - t.commands.size = n)
    (hcut : n < (commandsOf (p.run (.handling h) (t, k)).steps).length) :
    let clean := p.run (.handling h) (t, k)
    let cut := p.run (.handling h) (t.withLimit limit, k)
    cut.state.1 = (t.handleAll ((commandsOf clean.steps).take n)).withLimit limit ∧
      ∃ m, answersOf cut.steps =
        (answersOf clean.steps).take n ++ List.replicate (m + 1) (.error .requestTimeout) := by
  induction p generalizing t k n with
  | done a => exact absurd hcut (Nat.not_lt_zero n)
  | exchange i c next ih =>
    cases n with
    | zero =>
      have hsilent : (t.withLimit limit).isSilent = true :=
        decide_eq_true (Nat.le_of_sub_eq_zero hlimit)
      constructor
      · rw [terminal_of_run_handling, Terminal.handleAll_of_isSilent hsilent]
        rfl
      · obtain ⟨m, hlater⟩ := answersOf_run_silent (next (.error .requestTimeout)) h hsilent k
        rw [run_handling_exchange, Terminal.handle_of_isSilent hsilent]
        exact ⟨m, congrArg (Except.error Error.requestTimeout :: ·) hlater⟩
    | succ n =>
      have hsize := Terminal.size_handle (i := i) (c := c) hunlimited
      rw [run_handling_exchange] at hcut ⊢
      simp only [commandsOf_cons, Step.command?, Option.toList_some, List.length_append,
        List.length_singleton] at hcut
      obtain ⟨hterminal, m, hanswers⟩ :=
        ih (ofReceived (.ok (t.handle i c).1)) (t := (t.handle i c).2) (by simp [hunlimited]) k
          (n := n) (by omega) (by omega)
      rw [run_handling_exchange, Terminal.handle_withLimit hunlimited (by omega)]
      exact ⟨hterminal, m, congrArg (ofReceived (.ok (t.handle i c).1) :: ·) hanswers⟩
  | post url body next ih =>
    rw [run_handling_post] at hcut ⊢
    rw [run_handling_post]
    exact ih _ hunlimited _ hlimit hcut
  | publish e next ih =>
    rw [run_publish] at hcut ⊢
    rw [run_publish]
    exact ih hunlimited k hlimit hcut

/-- In either case the terminal is left as the commands up to the limit make it. -/
theorem terminal_of_run_withLimit (p : Session ε α) (h : KeyHost η) {t : Terminal}
    (hunlimited : t.faults.dropResponsesAfter = none) (k : η) (n : Nat) :
    (p.run (.handling h) (t.withLimit (t.commands.size + n), k)).state.1 =
      (t.handleAll ((commandsOf (p.run (.handling h) (t, k)).steps).take n)).withLimit
        (t.commands.size + n) := by
  by_cases hall : (commandsOf (p.run (.handling h) (t, k)).steps).length ≤ n
  · rw [run_withLimit_of_le p h hunlimited k (Nat.add_le_add_left hall _),
      List.take_of_length_le hall, ← terminal_of_run_handling]
  · exact (run_withLimit_of_lt p h hunlimited k (Nat.add_sub_cancel_left ..)
      (Nat.lt_of_not_le hall)).1

end Session

end KeyInjection
