-- SUMMARY: What is sent to a terminal, and what it answers, is read as it was meant.
import KeyInjection.Proofs.Apdu.Encoding
import KeyInjection.Terminal.Handle

/-!
# Reading back encodings

A reader finds in an encoded request the request, and in an encoded reply the reply. The terminal
reads commands by their headers as well, so `readCommand_command` says that the terminal gets the
request that was sent.
-/

namespace KeyInjection

/-! ## Requests that have an encoding -/

/-- A prompt can be sent if it is not too long, and only then. -/
theorem exists_command_prompt_iff {text : String} :
    (∃ c, (Request.display (.prompt text)).command = .ok c) ↔
      (textBytes text).length ≤ DisplayRequest.maxText := Request.exists_command_iff

/-- A name that is neither empty nor too long can be sent. -/
theorem exists_command_fileSelect (mode : SelectMode) {name : String}
    (hname : 0 < (textBytes name).length ∧ (textBytes name).length ≤ SelectRequest.maxName) :
    ∃ c, (Request.fileSelect ⟨mode, name⟩).command = .ok c := Request.exists_command_iff.2 hname

/-! ## Requests -/

/-- Of an encoded request the request is read, and all of the encoding is taken. -/
theorem Request.decode_payload {r : Request} {b : Bytes} (hpayload : r.payload = .ok b) :
    decode r.instruction b = .ok (r, b.length) := by
  have hspells := (Message.spells_of_bytes (m := .request r) hpayload).1
  obtain ⟨r', hdecode, heq⟩ := Message.map_fst_eq_ok_iff.1 hspells.decode_eq
  cases heq
  exact hdecode

/-- The terminal reads the request that a command was made of. -/
theorem Terminal.readCommand_command {r : Request} {c : Command} (hcode : r.command = .ok c) :
    readCommand c = .ok r := by
  obtain ⟨hpayload, hheader⟩ := Request.command_eq_ok_iff.1 hcode
  simp [readCommand, hheader, Request.header, Request.decode_payload hpayload]

/-! ## Instructions of what is read -/

theorem Instruction.ofCode?_eq_some_iff {b : UInt8} {ins : Instruction} :
    ofCode? b = some ins ↔ ins.code = b := by
  constructor
  · intro hcode
    unfold ofCode? at hcode
    split at hcode <;> cases hcode <;> rfl
  · rintro rfl
    exact ofCode?_code ins

/-- Instructions are told apart by their bytes. -/
theorem Instruction.code_inj {ins other : Instruction} : ins.code = other.code ↔ ins = other := by
  constructor
  · intro hcode
    exact Option.some.inj (by rw [← ofCode?_code ins, hcode, ofCode?_code])
  · exact congrArg code

theorem Request.instruction_of_decode {ins : Instruction} {b : Bytes} {r : Request} {n : Nat}
    (hdecode : decode ins b = .ok (r, n)) : r.instruction = ins := by
  have hmap : ∀ {α} {x : Except CodecError (α × Nat)} {f : α → Request},
      (∀ a, (f a).instruction = ins) → x.map (fun (a, n) => (f a, n)) = .ok (r, n) →
        r.instruction = ins := by
    intro α x f hf hx
    cases x with
    | error e => cases hx
    | ok a =>
      cases hx
      exact hf a.1
  cases ins with
  | display | fileSelect | fileRead | fileWrite => exact hmap (fun _ => rfl) hdecode
  | secureInit | secureState | keyImport =>
    cases hdecode
    rfl

/-- The terminal reads a request of the instruction in the header. -/
theorem Terminal.code_of_readCommand {r : Request} {c : Command} (hread : readCommand c = .ok r) :
    r.instruction.code = c.header.ins := by
  unfold readCommand at hread
  split at hread
  case isTrue => cases hread
  case isFalse =>
    split at hread
    case h_1 => cases hread
    case h_2 ins hins =>
      split at hread
      case h_1 hdecode =>
        cases hread
        rw [Request.instruction_of_decode hdecode]
        exact Instruction.ofCode?_eq_some_iff.1 hins
      case h_2 => cases hread

/-! ## Replies -/

theorem SelectReply.decode_bytes (r : SelectReply) : decode r.bytes = .ok (r, 4) := by
  simpa [bytes] using decode_append r.size []

theorem SecureState.decode_bytes (s : SecureState) : decode s.bytes = .ok (s, 4) := by
  show Except.ok (ofByte s.byte, _) = _
  rw [ofByte_byte]
  rfl

theorem ImportReply.decode_bytes (r : ImportReply) : decode r.bytes = .ok (r, 4) :=
  decode_append r.code [0, 0]

end KeyInjection
