-- SUMMARY: Exchanges over a channel, by what sending and receiving do.
import KeyInjection.Channel

/-! # Exchanges

An exchange ends with the failure of sending, or with what was received. -/

namespace KeyInjection

variable {σ : Type} {ch : Channel σ} {i : Interface} {c : Command} {s s' : σ}

/-- What an exchange makes of what was received. -/
def ofReceived : Except Error (Option Response) → Except Error Response
  | .error e => .error e
  | .ok none => .error .requestTimeout
  | .ok (some r) => .ok r

namespace Channel

theorem exchange_of_send_error {e : Error} (hsend : ch.send i c s = (.error e, s')) :
    ch.exchange i c s = (.error e, s') := by
  rw [exchange, hsend]

theorem exchange_of_send_ok (hsend : ch.send i c s = (.ok (), s')) :
    ch.exchange i c s = (ofReceived (ch.receive i s').1, (ch.receive i s').2) := by
  rw [exchange, hsend]
  dsimp only
  rcases ch.receive i s' with ⟨_ | _ | _, _⟩ <;> rfl

end Channel

end KeyInjection
