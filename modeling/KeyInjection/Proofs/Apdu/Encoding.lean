-- SUMMARY: Which messages can be written, into which buffers, and that they are read back.
import KeyInjection.Channel
import KeyInjection.Proofs.Apdu.Spelling

/-!
# Writing messages

A message is written unless one of its texts has a length that is not sent, or the buffer is too
small; nothing else can go wrong. What is written is a spelling of the message of the announced
length, so it is read back with any bytes behind it (`encoding_round_trip`). A command carries the
same bytes.
-/

namespace KeyInjection

theorem Bytes.writeInto_eq_ok_iff {b buffer out : Bytes} {n : Nat} :
    writeInto b buffer = .ok (out, n) ↔
      b.length ≤ buffer.length ∧ out = b ++ buffer.drop b.length ∧ n = b.length := by
  unfold writeInto
  split
  case isTrue hshort =>
    constructor
    · nofun
    · rintro ⟨hfits, -⟩
      omega
  case isFalse hfits =>
    rw [Except.ok.injEq, Prod.mk.injEq, eq_comm, eq_comm (a := b.length)]
    exact (and_iff_right (Nat.le_of_not_lt hfits)).symm

namespace Message

/-- The texts of the message have lengths that are sent: a prompt at most 64 bytes, a name of a
file between 1 and 32. -/
def WithinLimits : Message → Prop
  | request (.display r) => (textBytes r.text).length ≤ 64
  | request (.fileSelect r) => 1 ≤ (textBytes r.name).length ∧ (textBytes r.name).length ≤ 32
  | _ => True

instance : DecidablePred WithinLimits
  | request (.display r) => inferInstanceAs (Decidable ((textBytes r.text).length ≤ 64))
  | request (.fileSelect r) =>
    inferInstanceAs (Decidable (1 ≤ (textBytes r.name).length ∧ (textBytes r.name).length ≤ 32))
  | request .secureInit | request .secureState | request .keyImport | request (.fileRead _)
  | request (.fileWrite _) | reply _ => isTrue trivial

/-- Names outside the limits are the empty one and those that are too long. -/
theorem withinLimits_fileSelect_iff {mode : SelectMode} {name : String} :
    (request (.fileSelect ⟨mode, name⟩)).WithinLimits ↔
      ¬ (name = "" ∨ 32 < (textBytes name).length) := by
  rw [← textBytes_eq_nil_iff, ← List.length_eq_zero_iff]
  show 1 ≤ (textBytes name).length ∧ (textBytes name).length ≤ 32 ↔ _
  omega

/-! ## Encoded forms -/

/-- A message within the limits is written as one of its spellings, the one of the announced length;
another message has no encoded form. -/
theorem bytes_cases (m : Message) :
    (m.WithinLimits ∧ ∃ b, m.bytes = .ok b ∧ Spells b m ∧ b.length = m.encodedLength) ∨
      ¬ m.WithinLimits ∧ m.bytes = .error .invalidLength := by
  match m with
  | .request (.display r) =>
    by_cases hfits : (textBytes r.text).length ≤ 64
    · refine .inl ⟨hfits, _, if_neg (Nat.not_lt.2 hfits), ?_, ?_⟩
      · have hspells := Spells.display r.line r.flags.byte 0 (Nat.lt_of_le_of_lt hfits (by decide))
        rwa [DisplayFlags.ofByte_byte] at hspells
      · simp only [encodedLength, Request.encodedLength, DisplayRequest.encodedLength,
          List.length_append, List.length_cons, List.length_nil]
    · exact .inr ⟨hfits, if_pos (Nat.lt_of_not_le hfits)⟩
  | .request .secureInit => exact .inl ⟨trivial, [], rfl, .secureInit, rfl⟩
  | .request .secureState => exact .inl ⟨trivial, [], rfl, .secureState, rfl⟩
  | .request .keyImport => exact .inl ⟨trivial, [], rfl, .keyImport, rfl⟩
  | .request (.fileSelect r) =>
    by_cases hfits : 1 ≤ (textBytes r.name).length ∧ (textBytes r.name).length ≤ 32
    · refine .inl ⟨hfits, _, if_neg ?_, ?_, ?_⟩
      · rw [SelectRequest.maxName]
        omega
      · exact .fileSelect r.mode 0 0 (Nat.lt_of_le_of_lt hfits.2 (by decide))
      · simp only [encodedLength, Request.encodedLength, SelectRequest.encodedLength,
          List.length_append, List.length_cons, List.length_nil]
    · refine .inr ⟨hfits, if_pos ?_⟩
      rw [SelectRequest.maxName]
      omega
  | .request (.fileRead r) =>
    exact .inl ⟨trivial, r.bytes, rfl, .fileRead r.total r.offset r.length, by
      simp [ReadRequest.bytes, encodedLength, Request.encodedLength]⟩
  | .request (.fileWrite r) =>
    refine .inl ⟨trivial, r.bytes, rfl, .fileWrite r.offset r.delayMs 0 0 r.data, ?_⟩
    simp only [WriteRequest.bytes, encodedLength, Request.encodedLength, WriteRequest.encodedLength,
      List.length_append, Bytes.length_ofWord32, Bytes.length_ofWord16, List.length_cons,
      List.length_nil]
  | .reply (.selected r) =>
    exact .inl ⟨trivial, r.bytes, rfl, .selected r.size, Bytes.length_ofWord32 _⟩
  | .reply (.secureState s) =>
    refine .inl ⟨trivial, s.bytes, rfl, ?_, rfl⟩
    have hspells := @Spells.state s.byte [0, 0, 0] (Nat.le_refl 3)
    rwa [SecureState.ofByte_byte] at hspells
  | .reply (.imported r) =>
    refine .inl ⟨trivial, r.bytes, rfl, .imported r.code (Nat.le_refl 2), ?_⟩
    simp [ImportReply.bytes, encodedLength]

variable {m : Message} {b : Bytes}

theorem exists_bytes_iff : (∃ b, m.bytes = .ok b) ↔ m.WithinLimits := by
  rcases bytes_cases m with ⟨hlimits, b, hbytes, -⟩ | ⟨hlimits, hbytes⟩
  · exact iff_of_true ⟨b, hbytes⟩ hlimits
  · refine iff_of_false ?_ hlimits
    rintro ⟨b, hb⟩
    rw [hbytes] at hb
    cases hb

theorem bytes_eq_error {e : CodecError} (herror : m.bytes = .error e) : e = .invalidLength := by
  rcases bytes_cases m with ⟨-, b, hbytes, -⟩ | ⟨-, hbytes⟩
  all_goals
    rw [hbytes] at herror
    cases herror
  rfl

theorem spells_of_bytes (hbytes : m.bytes = .ok b) : Spells b m ∧ b.length = m.encodedLength := by
  rcases bytes_cases m with ⟨-, b', hbytes', hspells⟩ | ⟨-, hbytes'⟩
  all_goals
    rw [hbytes'] at hbytes
    cases hbytes
  exact hspells

/-- What is written is read back, with whatever comes behind it. -/
theorem decode_append_of_bytes (hbytes : m.bytes = .ok b) (rest : Bytes) :
    decode m.kind (b ++ rest) = .ok (m.extended rest, (m.extended rest).encodedLength) := by
  obtain ⟨hspells, hlength⟩ := spells_of_bytes hbytes
  have hreach : (m.extended rest).encodedLength ≤ (b ++ rest).length := by
    rw [List.length_append, hlength]
    unfold extended
    split
    · simp only [encodedLength, Request.encodedLength, WriteRequest.encodedLength,
        List.length_append]
      omega
    · exact Nat.le_add_right _ _
  rw [hspells.decode_append, Nat.min_eq_right hreach]

/-! ## Buffers -/

variable {buffer out : Bytes} {n : Nat}

theorem encodeInto_eq_ok_iff :
    m.encodeInto buffer = .ok (out, n) ↔
      ∃ b, m.bytes = .ok b ∧ b.length ≤ buffer.length ∧ out = b ++ buffer.drop b.length ∧
        n = b.length := by
  unfold encodeInto
  cases m.bytes with
  | error e =>
    constructor
    · nofun
    · rintro ⟨b, hbytes, -⟩
      cases hbytes
  | ok b =>
    show Bytes.writeInto b buffer = _ ↔ _
    simp [Bytes.writeInto_eq_ok_iff]

theorem exists_encodeInto_iff :
    (∃ out n, m.encodeInto buffer = .ok (out, n)) ↔
      m.WithinLimits ∧ m.encodedLength ≤ buffer.length := by
  simp only [encodeInto_eq_ok_iff]
  constructor
  · rintro ⟨-, -, b, hbytes, hfits, -, -⟩
    rw [← (spells_of_bytes hbytes).2]
    exact ⟨exists_bytes_iff.1 ⟨b, hbytes⟩, hfits⟩
  · rintro ⟨hlimits, hfits⟩
    obtain ⟨b, hbytes⟩ := exists_bytes_iff.2 hlimits
    rw [← (spells_of_bytes hbytes).2] at hfits
    exact ⟨_, _, b, hbytes, hfits, rfl, rfl⟩

theorem encodeInto_eq_error {e : CodecError} (herror : m.encodeInto buffer = .error e) :
    e = .invalidLength := by
  unfold encodeInto at herror
  cases hbytes : m.bytes with
  | error e' =>
    rw [hbytes] at herror
    cases herror
    exact bytes_eq_error hbytes
  | ok b =>
    rw [hbytes] at herror
    change Bytes.writeInto b buffer = _ at herror
    unfold Bytes.writeInto at herror
    split at herror <;> cases herror
    rfl

end Message

/-! ## Commands -/

namespace Request

variable {r : Request} {c : Command}

theorem command_eq_ok_iff :
    r.command = .ok c ↔ r.payload = .ok c.data ∧ c.header = r.header := by
  unfold command
  cases r.payload with
  | error e => simp [Except.map]
  | ok b =>
    obtain ⟨header, data⟩ := c
    simp only [Except.map, Except.ok.injEq, Command.mk.injEq]
    rw [and_comm, eq_comm (a := header)]

/-- A request can be sent if it is within the limits. -/
theorem exists_command_iff : (∃ c, r.command = .ok c) ↔ (Message.request r).WithinLimits := by
  rw [← Message.exists_bytes_iff]
  constructor
  · rintro ⟨c, hcode⟩
    exact ⟨c.data, (command_eq_ok_iff.1 hcode).1⟩
  · rintro ⟨b, hbytes⟩
    exact ⟨⟨r.header, b⟩, command_eq_ok_iff.2 ⟨hbytes, rfl⟩⟩

theorem command_eq_error {e : CodecError} (herror : r.command = .error e) :
    r.payload = .error e := by
  unfold command at herror
  cases hpayload : r.payload with
  | error e' =>
    rw [hpayload] at herror
    cases herror
    rfl
  | ok b =>
    rw [hpayload] at herror
    cases herror

theorem command_of_not_withinLimits (hlimits : ¬ (Message.request r).WithinLimits) :
    r.command = .error .invalidLength := by
  rcases Message.bytes_cases (.request r) with ⟨hwithin, -⟩ | ⟨-, hbytes⟩
  · exact absurd hwithin hlimits
  · have hpayload : r.payload = .error .invalidLength := hbytes
    rw [command, hpayload]
    rfl

/-- The first parameter repeats the first byte of a prompt and of a selection. -/
theorem head?_payload {b : Bytes} (hpayload : r.payload = .ok b) :
    if r.instruction = .display ∨ r.instruction = .fileSelect then b.head? = some r.parameter
    else r.parameter = 0 := by
  cases r with
  | display r =>
    change DisplayRequest.payload r = _ at hpayload
    unfold DisplayRequest.payload at hpayload
    dsimp only at hpayload
    split at hpayload <;> cases hpayload
    rfl
  | fileSelect r =>
    change SelectRequest.payload r = _ at hpayload
    unfold SelectRequest.payload at hpayload
    dsimp only at hpayload
    split at hpayload <;> cases hpayload
    rfl
  | secureInit | secureState | keyImport | fileRead | fileWrite => rfl

end Request

/-! ## Round trips -/

/-- A message is written into a buffer if its texts are within the limits and the buffer has the
room, and otherwise fails for its length. What is written are the announced bytes at the front of
the buffer, the others being kept; with any bytes behind them the message is read back, of which a
write takes them for data. A request is made a command under the same conditions, of the same bytes;
its first parameter is the first of them in a prompt and a selection, and zero in other commands. -/
theorem Message.encoding_round_trip (m : Message) (buffer : Bytes) :
    ((∃ out n, m.encodeInto buffer = .ok (out, n)) ↔
      m.WithinLimits ∧ m.encodedLength ≤ buffer.length) ∧
    (∀ e, m.encodeInto buffer = .error e → e = .invalidLength) ∧
    (∀ out n, m.encodeInto buffer = .ok (out, n) →
      n = m.encodedLength ∧ out.length = buffer.length ∧ out.drop n = buffer.drop n ∧
        ∀ rest, decode m.kind (out.take n ++ rest) =
          .ok (m.extended rest, (m.extended rest).encodedLength)) ∧
    ∀ r, m = .request r →
      ((∃ c, r.command = .ok c) ↔ m.WithinLimits) ∧
      (∀ e, r.command = .error e → e = .invalidLength) ∧
      ∀ c, r.command = .ok c →
        (∀ out n, m.encodeInto buffer = .ok (out, n) → c.data = out.take n) ∧
        c.header.cla = 0xd0 ∧ c.header.ins = r.instruction.code ∧ c.header.p2 = 0 ∧
        if r.instruction = .display ∨ r.instruction = .fileSelect
        then c.data.head? = some c.header.p1 else c.header.p1 = 0 := by
  refine ⟨exists_encodeInto_iff, fun e => encodeInto_eq_error, ?_, ?_⟩
  · intro out n hok
    obtain ⟨b, hbytes, hfits, rfl, rfl⟩ := encodeInto_eq_ok_iff.1 hok
    refine ⟨(spells_of_bytes hbytes).2, ?_, List.drop_left, ?_⟩
    · rw [List.length_append, List.length_drop]
      omega
    · intro rest
      rw [List.take_left, decode_append_of_bytes hbytes]
  · rintro r rfl
    refine ⟨Request.exists_command_iff, ?_, ?_⟩
    · intro e herror
      exact bytes_eq_error (m := .request r) (Request.command_eq_error herror)
    · intro c hcode
      obtain ⟨hpayload, hheader⟩ := Request.command_eq_ok_iff.1 hcode
      refine ⟨?_, ?_, ?_, ?_, ?_⟩
      · intro out n hok
        obtain ⟨b, hbytes, -, rfl, rfl⟩ := encodeInto_eq_ok_iff.1 hok
        rw [List.take_left]
        exact Except.ok.inj (hpayload.symm.trans hbytes)
      · rw [hheader]
        rfl
      · rw [hheader]
        rfl
      · rw [hheader]
        rfl
      · rw [hheader]
        exact Request.head?_payload hpayload

/-- A write in a buffer with room to spare, read back with one byte behind it; and the command of a
selection. -/
theorem Message.encoding_round_trip_spare :
    let write : Message := .request (.fileWrite ⟨258, 5, [0xa5]⟩)
    let buffer : Bytes := List.replicate 11 0xee
    let out : Bytes := [2, 1, 0, 0, 5, 0, 0, 0, 0xa5, 0xee, 0xee]
    let select : Request := .fileSelect ⟨.truncate, "k"⟩
    let command : Command := ⟨⟨0xd0, 0x30, 1, 0⟩, [1, 1, 0, 0, 0x6b]⟩
    write.encodeInto buffer = .ok (out, 9) ∧ out.drop 9 = buffer.drop 9 ∧
      decode (.request .fileWrite) (out.take 9 ++ [7]) =
        .ok (.request (.fileWrite ⟨258, 5, [0xa5, 7]⟩), 10) ∧
      select.command = .ok command ∧ command.data.head? = some command.header.p1 := by
  intro write buffer out select command
  have hok : write.encodeInto buffer = .ok (out, 9) := by rfl
  have hcode : select.command = .ok command := by rfl
  obtain ⟨-, -, hwritten, -⟩ := encoding_round_trip write buffer
  obtain ⟨-, -, hkept, hread⟩ := hwritten out 9 hok
  obtain ⟨-, -, -, hcommand⟩ := encoding_round_trip (.request select) buffer
  obtain ⟨-, -, hsent⟩ := hcommand select rfl
  obtain ⟨-, -, -, -, hparameter⟩ := hsent command hcode
  exact ⟨hok, hkept, hread [7], hcode, hparameter⟩

end KeyInjection
