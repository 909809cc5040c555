-- SUMMARY: Where attempts lead from a given state of their surroundings.
import KeyInjection.Proofs.Session.Runs

/-!
# Attempts in given surroundings

`Gives w i s a rs r s'` says that from the state `s` of the surroundings `w` the attempt `a` makes
the requests `rs` on the interface `i`, ends in `r` and leaves the state `s'`. Its rules follow the
way attempts are put together.
-/

namespace KeyInjection

variable {ε φ ψ σ : Type} {w : Surroundings σ} {i : Interface} {s s' s'' : σ}
variable {rs rs' : List Request}

/-- From this state the attempt makes these requests, ends this way and leaves that state. -/
structure Gives (w : Surroundings σ) (i : Interface) (s : σ) (a : Attempt ε φ α)
    (rs : List Request) (r : Except φ α) (s' : σ) : Prop where
  value_eq : (a.run.run w s).value = r
  state_eq : (a.run.run w s).state = s'
  commands_eq : commandsOf (a.run.run w s).steps = submissions i rs

namespace Gives

theorem pure (v : α) : Gives w i s (Pure.pure v : Attempt ε φ α) [] (.ok v) s := ⟨rfl, rfl, rfl⟩

theorem throw (e : φ) : Gives w i s (throw e : Attempt ε φ α) [] (.error e) s := ⟨rfl, rfl, rfl⟩

theorem emit (e : ε) :
    Gives w i s (ExceptT.lift (Session.emit e) : Attempt ε φ Unit) [] (.ok ()) s :=
  ⟨rfl, rfl, rfl⟩

/-- A request that has an encoding is exchanged for what the surroundings answer. -/
theorem exchange {r : Request} {c : Command} (hcode : r.command = .ok c) :
    Gives w i s (Device.exchange i r : Attempt ε Error Response) [r] (w.exchange i c s).1
      (w.exchange i c s).2 := by
  rw [Device.exchange, hcode]
  refine ⟨rfl, rfl, ?_⟩
  rw [submissions_cons, Request.submission, hcode]
  rfl

/-- An attempt that succeeds hands its state on to the next. -/
theorem bind {a : Attempt ε φ α} {k : α → Attempt ε φ β} {v : α} {r : Except φ β}
    (ha : Gives w i s a rs (.ok v) s') (hk : Gives w i s' (k v) rs' r s'') :
    Gives w i s (a >>= k) (rs ++ rs') r s'' := by
  have hrun := Session.run_attempt_bind w a k s
  dsimp only at hrun
  rw [ha.value_eq, ha.state_eq] at hrun
  refine ⟨?_, ?_, ?_⟩
  · rw [hrun]
    exact hk.value_eq
  · rw [hrun]
    exact hk.state_eq
  · rw [hrun, submissions_append, ← ha.commands_eq, ← hk.commands_eq]
    exact commandsOf_append ..

/-- An attempt that fails is the end. -/
theorem bind_error {a : Attempt ε φ α} {k : α → Attempt ε φ β} {e : φ}
    (ha : Gives w i s a rs (.error e) s') : Gives w i s (a >>= k) rs (.error e) s' := by
  have hrun := Session.run_attempt_bind w a k s
  dsimp only at hrun
  rw [ha.value_eq] at hrun
  refine ⟨?_, ?_, ?_⟩
  · rw [hrun]
    rfl
  · rw [hrun]
    exact ha.state_eq
  · rw [hrun, ← ha.commands_eq]
    exact congrArg commandsOf (List.append_nil _)

/-- What may be published on the way changes nothing. -/
theorem report {c : Prop} [Decidable c] {e : ε} {a : Attempt ε φ β} {r : Except φ β}
    (ha : Gives w i s a rs r s') :
    Gives w i s
      (if c then (ExceptT.lift (Session.emit e) : Attempt ε φ Unit) >>= fun _ => a else a)
      rs r s' := by
  split
  · exact (emit e).bind ha
  · exact ha

/-- An attempt whose end is looked at leads where it leads. -/
theorem lift_run {a : Attempt ε ψ α} {x : Except ψ α} (ha : Gives w i s a rs x s') :
    Gives w i s (ExceptT.lift a.run : Attempt ε φ (Except ψ α)) rs (.ok x) s' := by
  have hrun := Session.run_lift (φ := φ) w a s
  refine ⟨?_, ?_, ?_⟩
  · rw [hrun, ha.value_eq]
  · rw [hrun, ha.state_eq]
  · rw [hrun, ← ha.commands_eq]

end Gives

end KeyInjection
