-- SUMMARY: The byte strings that a message is read from.
import KeyInjection.Apdu.Message
import Mathlib.Data.List.Basic

/-!
# Spellings of messages

A message can be read from more than one byte string: reserved bytes and flags without a name are
ignored, and the two answers of the secure storage may end behind the part that carries their value.
`Spells b m` lays these byte strings out, format by format and without a reader.

Readers accept just the spellings, with other bytes behind them (`Spells.decode_append`,
`spells_of_decode`). How many bytes they take is the same rule for all formats: as many as a message
is written with, or all of them if there are fewer.
-/

namespace KeyInjection

/-! ## Words and texts -/

namespace Bytes

theorem ofWord16_word16 {b : Bytes} (hlength : 2 ≤ b.length) : ofWord16 (word16 b) = b.take 2 := by
  have htake : (b.take 2).length = 2 := List.length_take_of_le hlength
  have hlt := ofLittleEndian_lt (b.take 2)
  have hback := littleEndian_ofLittleEndian (b.take 2)
  have hpow : Nat.pow 256 2 = 65536 := rfl
  rw [htake, hpow] at hlt
  rw [htake] at hback
  rw [ofWord16, word16, UInt16.toNat_ofNat', Nat.mod_eq_of_lt hlt, hback]

theorem ofWord32_word32 {b : Bytes} (hlength : 4 ≤ b.length) : ofWord32 (word32 b) = b.take 4 := by
  have htake : (b.take 4).length = 4 := List.length_take_of_le hlength
  have hlt := ofLittleEndian_lt (b.take 4)
  have hback := littleEndian_ofLittleEndian (b.take 4)
  have hpow : Nat.pow 256 4 = 4294967296 := rfl
  rw [htake, hpow] at hlt
  rw [htake] at hback
  rw [ofWord32, word32, UInt32.toNat_ofNat', Nat.mod_eq_of_lt hlt, hback]

theorem leadingText_append (text : String) (rest : Bytes) :
    leadingText (textBytes text ++ rest) (textBytes text).length = .ok text := by
  simp [leadingText]

theorem leadingText_eq_ok_iff {b : Bytes} {length : Nat} {text : String} :
    leadingText b length = .ok text ↔ length ≤ b.length ∧ b.take length = textBytes text := by
  unfold leadingText
  by_cases hshort : b.length < length
  · simp only [if_pos hshort, reduceCtorEq, false_iff, not_and]
    omega
  · rw [if_neg hshort, ← text?_eq_some_iff]
    cases text? (b.take length) with
    | none => simp
    | some other => simp [Nat.le_of_not_lt hshort]

/-- A text that was announced by a byte stands at the front. -/
theorem exists_of_leadingText {b : Bytes} {length : UInt8} {text : String}
    (hread : leadingText b length.toNat = .ok text) :
    ∃ rest, (textBytes text).length < 256 ∧ length = UInt8.ofNat (textBytes text).length ∧
      b = textBytes text ++ rest := by
  obtain ⟨hfits, htext⟩ := leadingText_eq_ok_iff.1 hread
  have hlength : (textBytes text).length = length.toNat := by
    rw [← htext, List.length_take_of_le hfits]
  refine ⟨b.drop length.toNat, ?_, ?_, ?_⟩
  · rw [hlength]
    exact length.toNat_lt
  · rw [hlength, UInt8.ofNat_toNat]
  · rw [← htext, List.take_append_drop]

end Bytes

theorem textBytes_eq_nil_iff {text : String} : textBytes text = [] ↔ text = "" := by
  constructor
  · intro hnil
    have htext := Bytes.text?_textBytes text
    rw [hnil] at htext
    exact Option.some.inj (htext.symm.trans (Bytes.text?_textBytes ""))
  · rintro rfl
    rfl

theorem SelectMode.ofCode?_eq_some_iff {b : UInt8} {mode : SelectMode} :
    ofCode? b = some mode ↔ mode.code = b := by
  constructor
  · intro hcode
    unfold ofCode? at hcode
    split at hcode <;> cases hcode <;> rfl
  · rintro rfl
    exact ofCode?_code mode

/-! ## One format at a time -/

theorem toNat_ofNat_length {b : Bytes} (hlength : b.length < 256) :
    (UInt8.ofNat b.length).toNat = b.length := UInt8.toNat_ofNat_of_lt' hlength

namespace DisplayRequest

theorem decode_append (line flags reserved : UInt8) {text : String}
    (hlength : (textBytes text).length < 256) (rest : Bytes) :
    decode ([line, flags, UInt8.ofNat (textBytes text).length, reserved] ++ textBytes text ++
        rest) =
      .ok (⟨line, .ofByte flags, text⟩, 4 + (textBytes text).length) := by
  simp only [List.cons_append, List.nil_append, decode, toNat_ofNat_length hlength,
    Bytes.leadingText_append]
  rfl

theorem exists_of_decode {b : Bytes} {r : DisplayRequest} {n : Nat}
    (hdecode : decode b = .ok (r, n)) :
    ∃ flags reserved rest, (textBytes r.text).length < 256 ∧ r.flags = .ofByte flags ∧
      n = 4 + (textBytes r.text).length ∧
      b = [r.line, flags, UInt8.ofNat (textBytes r.text).length, reserved] ++ textBytes r.text ++
        rest := by
  match b, hdecode with
  | line :: flags :: length :: reserved :: rest, hdecode =>
    rw [decode] at hdecode
    cases hread : Bytes.leadingText rest length.toNat with
    | error e =>
      rw [hread] at hdecode
      cases hdecode
    | ok text =>
      rw [hread] at hdecode
      cases hdecode
      obtain ⟨more, hlength, hannounced, rfl⟩ := Bytes.exists_of_leadingText hread
      refine ⟨flags, reserved, more, hlength, rfl, ?_, ?_⟩
      · rw [hannounced, toNat_ofNat_length hlength]
      · rw [hannounced, List.append_assoc]
        rfl

end DisplayRequest

namespace SelectRequest

theorem decode_append (mode : SelectMode) (reserved reserved' : UInt8) {name : String}
    (hlength : (textBytes name).length < 256) (rest : Bytes) :
    decode ([mode.code, UInt8.ofNat (textBytes name).length, reserved, reserved'] ++
        textBytes name ++ rest) =
      .ok (⟨mode, name⟩, 4 + (textBytes name).length) := by
  simp only [List.cons_append, List.nil_append, decode, SelectMode.ofCode?_code,
    toNat_ofNat_length hlength, Bytes.leadingText_append]
  rfl

theorem exists_of_decode {b : Bytes} {r : SelectRequest} {n : Nat}
    (hdecode : decode b = .ok (r, n)) :
    ∃ reserved reserved' rest, (textBytes r.name).length < 256 ∧
      n = 4 + (textBytes r.name).length ∧
      b = [r.mode.code, UInt8.ofNat (textBytes r.name).length, reserved, reserved'] ++
        textBytes r.name ++ rest := by
  match b, hdecode with
  | code :: length :: reserved :: reserved' :: rest, hdecode =>
    rw [decode] at hdecode
    split at hdecode
    case h_1 => cases hdecode
    case h_2 mode hmode =>
      cases hread : Bytes.leadingText rest length.toNat with
      | error e =>
        rw [hread] at hdecode
        cases hdecode
      | ok name =>
        rw [hread] at hdecode
        cases hdecode
        obtain ⟨more, hlength, hannounced, rfl⟩ := Bytes.exists_of_leadingText hread
        refine ⟨reserved, reserved', more, hlength, ?_, ?_⟩
        · rw [hannounced, toNat_ofNat_length hlength]
        · rw [SelectMode.ofCode?_eq_some_iff.1 hmode, hannounced, List.append_assoc]
          rfl

end SelectRequest

namespace ReadRequest

theorem decode_append (total offset length : UInt32) (rest : Bytes) :
    decode (Bytes.ofWord32 total ++ Bytes.ofWord32 offset ++ Bytes.ofWord32 length ++ rest) =
      .ok (⟨total, offset, length⟩, 12) := by
  have hfits : ¬ (Bytes.ofWord32 total ++ Bytes.ofWord32 offset ++ Bytes.ofWord32 length ++
      rest).length < 12 := by
    simp only [List.length_append, Bytes.length_ofWord32]
    omega
  have hlength : (Bytes.ofWord32 total ++ Bytes.ofWord32 offset ++ Bytes.ofWord32 length ++
      rest).drop 8 = Bytes.ofWord32 length ++ rest := by
    rw [List.append_assoc, List.drop_left' (by simp)]
  rw [decode, if_neg hfits, hlength, Bytes.word32_ofWord32]
  simp only [List.append_assoc]
  rw [Bytes.word32_ofWord32, List.drop_left' (Bytes.length_ofWord32 _), Bytes.word32_ofWord32]

theorem of_decode {b : Bytes} {r : ReadRequest} {n : Nat} (hdecode : decode b = .ok (r, n)) :
    n = 12 ∧ 12 ≤ b.length ∧
      b.take 12 = Bytes.ofWord32 r.total ++ Bytes.ofWord32 r.offset ++ Bytes.ofWord32 r.length := by
  unfold decode at hdecode
  split at hdecode
  case isTrue => cases hdecode
  case isFalse hfits =>
    cases hdecode
    have hfits : 12 ≤ b.length := Nat.le_of_not_lt hfits
    refine ⟨rfl, hfits, ?_⟩
    dsimp only
    rw [Bytes.ofWord32_word32 (by omega), Bytes.ofWord32_word32 (by rw [List.length_drop]; omega),
      Bytes.ofWord32_word32 (by rw [List.length_drop]; omega), ← List.take_add, ← List.take_add]

end ReadRequest

namespace WriteRequest

theorem decode_append (offset : UInt32) (delayMs : UInt16) (reserved reserved' : UInt8)
    (data : Bytes) :
    decode (Bytes.ofWord32 offset ++ Bytes.ofWord16 delayMs ++ [reserved, reserved'] ++ data) =
      .ok (⟨offset, delayMs, data⟩, 8 + data.length) := by
  have hlength : (Bytes.ofWord32 offset ++ Bytes.ofWord16 delayMs ++ [reserved, reserved'] ++
      data).length = 8 + data.length := by
    simp only [List.length_append, Bytes.length_ofWord32, Bytes.length_ofWord16, List.length_cons,
      List.length_nil]
  have hdata : (Bytes.ofWord32 offset ++ Bytes.ofWord16 delayMs ++ [reserved, reserved'] ++
      data).drop 8 = data := List.drop_left' (by simp)
  rw [decode, hlength, if_neg (by omega), hdata]
  simp only [List.append_assoc]
  rw [Bytes.word32_ofWord32, List.drop_left' (Bytes.length_ofWord32 _), Bytes.word16_ofWord16]

theorem exists_of_decode {b : Bytes} {r : WriteRequest} {n : Nat}
    (hdecode : decode b = .ok (r, n)) :
    n = b.length ∧ ∃ reserved reserved',
      b = Bytes.ofWord32 r.offset ++ Bytes.ofWord16 r.delayMs ++ [reserved, reserved'] ++
        r.data := by
  unfold decode at hdecode
  split at hdecode
  case isTrue => cases hdecode
  case isFalse hfits =>
    cases hdecode
    have hreserved : ((b.drop 6).take 2).length = 2 :=
      List.length_take_of_le (by rw [List.length_drop]; omega)
    obtain ⟨reserved, reserved', heq⟩ := List.length_eq_two.1 hreserved
    refine ⟨rfl, reserved, reserved', ?_⟩
    dsimp only
    rw [Bytes.ofWord32_word32 (by omega), Bytes.ofWord16_word16 (by rw [List.length_drop]; omega),
      ← heq, ← List.take_add, ← List.take_add, List.take_append_drop]

end WriteRequest

namespace SelectReply

theorem decode_append (size : Int32) (rest : Bytes) :
    decode (Bytes.ofWord32 size.toUInt32 ++ rest) = .ok (⟨size⟩, 4) := by
  rw [decode, if_neg (by simp), Bytes.word32_ofWord32]
  rfl

theorem of_decode {b : Bytes} {r : SelectReply} {n : Nat} (hdecode : decode b = .ok (r, n)) :
    n = 4 ∧ 4 ≤ b.length ∧ b.take 4 = Bytes.ofWord32 r.size.toUInt32 := by
  unfold decode at hdecode
  split at hdecode
  case isTrue => cases hdecode
  case isFalse hfits =>
    cases hdecode
    have hfits : 4 ≤ b.length := Nat.le_of_not_lt hfits
    exact ⟨rfl, hfits, (Bytes.ofWord32_word32 hfits).symm⟩

end SelectReply

namespace ImportReply

theorem decode_append (code : UInt16) (rest : Bytes) :
    decode (Bytes.ofWord16 code ++ rest) = .ok (⟨code⟩, min (2 + rest.length) 4) := by
  have hlength : (Bytes.ofWord16 code ++ rest).length = 2 + rest.length := by simp
  rw [decode, hlength, if_neg (by omega), Bytes.word16_ofWord16]

theorem of_decode {b : Bytes} {r : ImportReply} {n : Nat} (hdecode : decode b = .ok (r, n)) :
    n = min b.length 4 ∧ 2 ≤ b.length ∧ b.take 2 = Bytes.ofWord16 r.code := by
  unfold decode at hdecode
  split at hdecode
  case isTrue => cases hdecode
  case isFalse hfits =>
    cases hdecode
    have hfits : 2 ≤ b.length := Nat.le_of_not_lt hfits
    exact ⟨rfl, hfits, (Bytes.ofWord16_word16 hfits).symm⟩

end ImportReply

namespace Message

/-! ## Layouts -/

/-- The byte strings that a message is read from, all of their bytes being taken. -/
inductive Spells : Bytes → Message → Prop where
  | display (line flags reserved : UInt8) {text : String}
      (hlength : (textBytes text).length < 256) :
      Spells ([line, flags, UInt8.ofNat (textBytes text).length, reserved] ++ textBytes text)
        (.request (.display ⟨line, .ofByte flags, text⟩))
  | secureInit : Spells [] (.request .secureInit)
  | secureState : Spells [] (.request .secureState)
  | keyImport : Spells [] (.request .keyImport)
  | fileSelect (mode : SelectMode) (reserved reserved' : UInt8) {name : String}
      (hlength : (textBytes name).length < 256) :
      Spells ([mode.code, UInt8.ofNat (textBytes name).length, reserved, reserved'] ++
          textBytes name)
        (.request (.fileSelect ⟨mode, name⟩))
  | fileRead (total offset length : UInt32) :
      Spells (Bytes.ofWord32 total ++ Bytes.ofWord32 offset ++ Bytes.ofWord32 length)
        (.request (.fileRead ⟨total, offset, length⟩))
  | fileWrite (offset : UInt32) (delayMs : UInt16) (reserved reserved' : UInt8) (data : Bytes) :
      Spells (Bytes.ofWord32 offset ++ Bytes.ofWord16 delayMs ++ [reserved, reserved'] ++ data)
        (.request (.fileWrite ⟨offset, delayMs, data⟩))
  | selected (size : Int32) :
      Spells (Bytes.ofWord32 size.toUInt32) (.reply (.selected ⟨size⟩))
  | state (flags : UInt8) {reserved : Bytes} (hreserved : reserved.length ≤ 3) :
      Spells (flags :: reserved) (.reply (.secureState (.ofByte flags)))
  | imported (code : UInt16) {reserved : Bytes} (hreserved : reserved.length ≤ 2) :
      Spells (Bytes.ofWord16 code ++ reserved) (.reply (.imported ⟨code⟩))

/-- The message with more bytes behind it: they are data of a write, and no part of any other
message. -/
def extended : Message → Bytes → Message
  | request (.fileWrite r), rest => request (.fileWrite { r with data := r.data ++ rest })
  | m, _ => m

@[simp] theorem kind_extended (m : Message) (rest : Bytes) : (m.extended rest).kind = m.kind := by
  unfold extended
  split <;> rfl

@[simp] theorem extended_nil (m : Message) : m.extended [] = m := by
  unfold extended
  split <;> simp

variable {m : Message} {b : Bytes}

theorem Spells.length_le (hspells : Spells b m) : b.length ≤ m.encodedLength := by
  cases hspells with
  | display | fileSelect =>
    simp only [encodedLength, Request.encodedLength, DisplayRequest.encodedLength,
      SelectRequest.encodedLength, List.length_append, List.length_cons, List.length_nil]
    omega
  | secureInit | secureState | keyImport => exact Nat.le_refl _
  | fileRead | fileWrite | selected =>
    simp [encodedLength, Request.encodedLength, WriteRequest.encodedLength] <;> omega
  | state _ hreserved =>
    simp only [encodedLength, List.length_cons]
    omega
  | imported _ hreserved =>
    simp only [encodedLength, List.length_append, Bytes.length_ofWord16]
    omega

/-! ## Readers accept the spellings -/

/-- A spelling is read, whatever comes behind it. -/
theorem Spells.decode_append (hspells : Spells b m) (rest : Bytes) :
    decode m.kind (b ++ rest) =
      .ok (m.extended rest, min (b ++ rest).length (m.extended rest).encodedLength) := by
  -- How many bytes are taken is settled by the lengths.
  have htake {v : Message} {n n' : Nat} (hn : n = n') :
      (Except.ok (v, n) : Except CodecError (Message × Nat)) = .ok (v, n') := by rw [hn]
  cases hspells with
  | secureInit | secureState | keyImport => exact htake (Nat.min_zero _).symm
  | display line flags reserved hlength =>
    simp only [kind, Request.instruction, decode, Request.decode]
    rw [DisplayRequest.decode_append line flags reserved hlength]
    refine htake ?_
    simp only [extended, encodedLength, Request.encodedLength, DisplayRequest.encodedLength,
      List.length_append, List.length_cons, List.length_nil]
    omega
  | fileSelect mode reserved reserved' hlength =>
    simp only [kind, Request.instruction, decode, Request.decode]
    rw [SelectRequest.decode_append mode reserved reserved' hlength]
    refine htake ?_
    simp only [extended, encodedLength, Request.encodedLength, SelectRequest.encodedLength,
      List.length_append, List.length_cons, List.length_nil]
    omega
  | fileRead total offset length =>
    simp only [kind, Request.instruction, decode, Request.decode]
    rw [ReadRequest.decode_append]
    refine htake ?_
    simp only [extended, encodedLength, Request.encodedLength, List.length_append,
      Bytes.length_ofWord32]
    omega
  | fileWrite offset delayMs reserved reserved' data =>
    rw [List.append_assoc]
    simp only [kind, Request.instruction, decode, Request.decode]
    rw [WriteRequest.decode_append offset delayMs reserved reserved' (data ++ rest)]
    refine htake ?_
    simp only [extended, encodedLength, Request.encodedLength, WriteRequest.encodedLength,
      List.length_append, Bytes.length_ofWord32, Bytes.length_ofWord16, List.length_cons,
      List.length_nil]
    omega
  | selected size =>
    simp only [kind, Reply.kind, decode, Reply.decode]
    rw [SelectReply.decode_append]
    refine htake ?_
    simp only [extended, encodedLength, List.length_append, Bytes.length_ofWord32]
    omega
  | state flags hreserved =>
    refine htake ?_
    simp [extended, encodedLength]
  | imported code hreserved =>
    rw [List.append_assoc]
    simp only [kind, Reply.kind, decode, Reply.decode]
    rw [ImportReply.decode_append]
    refine htake ?_
    simp [extended, encodedLength]

/-- A spelling is read as a whole. -/
theorem Spells.decode_eq (hspells : Spells b m) : decode m.kind b = .ok (m, b.length) := by
  have hdecode := hspells.decode_append []
  rwa [List.append_nil, extended_nil, Nat.min_eq_left hspells.length_le] at hdecode

/-! ## Readers accept nothing else -/

/-- What becomes of a result by renaming its value. -/
theorem map_fst_eq_ok_iff {ε α β : Type} {x : Except ε (α × Nat)} {f : α → β} {v : β} {n : Nat} :
    x.map (fun (a, n) => (f a, n)) = .ok (v, n) ↔ ∃ a, x = .ok (a, n) ∧ f a = v := by
  rcases x with e | ⟨a, n'⟩
  · simp [Except.map]
  · simp only [Except.map, Except.ok.injEq, Prod.mk.injEq]
    constructor
    · rintro ⟨rfl, rfl⟩
      exact ⟨a, ⟨rfl, rfl⟩, rfl⟩
    · rintro ⟨a, ⟨rfl, rfl⟩, rfl⟩
      exact ⟨rfl, rfl⟩

/-- What is read was spelled by the bytes that are taken, and as many of them are taken as the
message is written with, if there are. -/
theorem spells_of_decode {k : Kind} {b : Bytes} {n : Nat} (hdecode : decode k b = .ok (m, n)) :
    m.kind = k ∧ n = min b.length m.encodedLength ∧ Spells (b.take n) m := by
  match k with
  | .request .display =>
    simp only [decode, Request.decode, map_fst_eq_ok_iff] at hdecode
    obtain ⟨_, ⟨r, hread, rfl⟩, rfl⟩ := hdecode
    obtain ⟨flags, reserved, rest, hlength, hflags, rfl, rfl⟩ :=
      DisplayRequest.exists_of_decode hread
    refine ⟨rfl, ?_, ?_⟩
    · simp only [encodedLength, Request.encodedLength, DisplayRequest.encodedLength,
        List.length_append, List.length_cons, List.length_nil]
      omega
    · rw [List.take_left' (by simp; omega)]
      obtain ⟨line, _, text⟩ := r
      subst hflags
      exact .display line flags reserved hlength
  | .request .secureInit =>
    cases hdecode
    exact ⟨rfl, (Nat.min_zero _).symm, .secureInit⟩
  | .request .secureState =>
    cases hdecode
    exact ⟨rfl, (Nat.min_zero _).symm, .secureState⟩
  | .request .keyImport =>
    cases hdecode
    exact ⟨rfl, (Nat.min_zero _).symm, .keyImport⟩
  | .request .fileSelect =>
    simp only [decode, Request.decode, map_fst_eq_ok_iff] at hdecode
    obtain ⟨_, ⟨r, hread, rfl⟩, rfl⟩ := hdecode
    obtain ⟨reserved, reserved', rest, hlength, rfl, rfl⟩ := SelectRequest.exists_of_decode hread
    refine ⟨rfl, ?_, ?_⟩
    · simp only [encodedLength, Request.encodedLength, SelectRequest.encodedLength,
        List.length_append, List.length_cons, List.length_nil]
      omega
    · rw [List.take_left' (by simp; omega)]
      exact .fileSelect r.mode reserved reserved' hlength
  | .request .fileRead =>
    simp only [decode, Request.decode, map_fst_eq_ok_iff] at hdecode
    obtain ⟨_, ⟨r, hread, rfl⟩, rfl⟩ := hdecode
    obtain ⟨rfl, hfits, htake⟩ := ReadRequest.of_decode hread
    refine ⟨rfl, (Nat.min_eq_right hfits).symm, ?_⟩
    rw [htake]
    exact .fileRead r.total r.offset r.length
  | .request .fileWrite =>
    simp only [decode, Request.decode, map_fst_eq_ok_iff] at hdecode
    obtain ⟨_, ⟨r, hread, rfl⟩, rfl⟩ := hdecode
    obtain ⟨rfl, reserved, reserved', heq⟩ := WriteRequest.exists_of_decode hread
    have hlength : b.length = 8 + r.data.length := by
      rw [heq]
      simp only [List.length_append, Bytes.length_ofWord32, Bytes.length_ofWord16, List.length_cons,
        List.length_nil]
    refine ⟨rfl, ?_, ?_⟩
    · rw [hlength]
      exact (Nat.min_self _).symm
    · rw [List.take_length, heq]
      exact .fileWrite r.offset r.delayMs reserved reserved' r.data
  | .reply .selected =>
    simp only [decode, Reply.decode, map_fst_eq_ok_iff] at hdecode
    obtain ⟨_, ⟨r, hread, rfl⟩, rfl⟩ := hdecode
    obtain ⟨rfl, hfits, htake⟩ := SelectReply.of_decode hread
    refine ⟨rfl, (Nat.min_eq_right hfits).symm, ?_⟩
    rw [htake]
    exact .selected r.size
  | .reply .secureState =>
    match b, hdecode with
    | flags :: rest, hdecode =>
      cases hdecode
      refine ⟨rfl, rfl, ?_⟩
      rw [Nat.min_comm, ← List.length_cons, ← List.take_eq_take_min]
      exact .state flags (List.length_take_le 3 rest)
  | .reply .imported =>
    simp only [decode, Reply.decode, map_fst_eq_ok_iff] at hdecode
    obtain ⟨_, ⟨r, hread, rfl⟩, rfl⟩ := hdecode
    obtain ⟨rfl, hfits, htake⟩ := ImportReply.of_decode hread
    refine ⟨rfl, rfl, ?_⟩
    rw [Nat.min_comm, ← List.take_eq_take_min, List.take_add (i := 2) (j := 2), htake]
    exact .imported r.code (List.length_take_le 2 _)

end Message

end KeyInjection
