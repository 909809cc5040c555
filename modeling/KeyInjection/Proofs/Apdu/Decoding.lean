-- SUMMARY: Which byte strings a message is read from, and what it is written as again.
import KeyInjection.Proofs.Apdu.Encoding

/-!
# Reading messages

Of each form of message, `Accepts` says which byte strings it is read from and `Refuses` why the
others are refused. A message that was read is written as the bytes that were taken, without what a
reader ignores: reserved bytes and flags without a name are zero, and an answer that was cut off is
filled up with zeros (`decoding_exact`). Only texts of lengths that are not sent are read and cannot
be written.
-/

namespace KeyInjection

/-! ## Ignored bits -/

/-- The bytes with only the bits that the masks have, one mask for each byte from the front; where
there are no bytes for a mask, zeros. -/
def Bytes.masked : Bytes → Bytes → Bytes
  | [], b => b
  | _ :: masks, [] => 0 :: masked masks []
  | mask :: masks, x :: b => (x &&& mask) :: masked masks b

namespace Bytes

theorem masked_append {masks front : Bytes} (hlength : masks.length = front.length)
    (masks' b : Bytes) :
    masked (masks ++ masks') (front ++ b) = masked masks front ++ masked masks' b := by
  induction masks generalizing front with
  | nil =>
    obtain rfl : front = [] := List.length_eq_zero_iff.1 hlength.symm
    rfl
  | cons mask masks ih =>
    cases front with
    | nil => cases hlength
    | cons x front =>
      rw [List.cons_append, List.cons_append, masked, ih (Nat.succ.inj hlength)]
      rfl

/-- Of bytes with all their bits nothing is lost. -/
theorem masked_ones (b : Bytes) : masked (List.replicate b.length 0xff) b = b := by
  induction b with
  | nil => rfl
  | cons x b ih =>
    have hx : x &&& 0xff = x := UInt8.and_neg_one
    rw [List.length_cons, List.replicate_succ, masked, ih, hx]

/-- Of ignored bytes nothing is left, however many of them there are. -/
theorem masked_zeros {b : Bytes} {count : Nat} (hlength : b.length ≤ count) :
    masked (List.replicate count 0) b = List.replicate count 0 := by
  induction count generalizing b with
  | zero => exact List.length_eq_zero_iff.1 (Nat.le_zero.1 hlength)
  | succ count ih =>
    cases b with
    | nil => rw [List.replicate_succ, masked, ih (Nat.zero_le _)]
    | cons x b =>
      rw [List.replicate_succ, masked, ih (Nat.le_of_succ_le_succ hlength), UInt8.and_zero]

end Bytes

theorem DisplayFlags.byte_ofByte (b : UInt8) : (ofByte b).byte = b &&& 3 := by
  have hall : ∀ n : Fin 256, (ofByte (UInt8.ofNat n)).byte = UInt8.ofNat n &&& 3 := by
    decide +kernel
  simpa using hall ⟨b.toNat, b.toNat_lt⟩

theorem SecureState.byte_ofByte (b : UInt8) : (ofByte b).byte = b &&& 7 := by
  have hall : ∀ n : Fin 256, (ofByte (UInt8.ofNat n)).byte = UInt8.ofNat n &&& 7 := by
    decide +kernel
  simpa using hall ⟨b.toNat, b.toNat_lt⟩

namespace Message

/-- The bits of the front of an encoded form that carry something. -/
def Kind.masks : Kind → Bytes
  | .request .display => [0xff, 0x03, 0xff, 0x00]
  | .request .fileSelect => [0xff, 0xff, 0x00, 0x00]
  | .request .fileWrite => [0xff, 0xff, 0xff, 0xff, 0xff, 0xff, 0x00, 0x00]
  | .reply .secureState => [0x07, 0x00, 0x00, 0x00]
  | .reply .imported => [0xff, 0xff, 0x00, 0x00]
  | _ => []

variable {m : Message} {b : Bytes}

/-- Whatever a message was spelled as, it is written as that spelling without the ignored bits. -/
theorem Spells.bytes_eq (hspells : Spells b m) (hlimits : m.WithinLimits) :
    m.bytes = .ok (Bytes.masked m.kind.masks b) := by
  have hones (b : Bytes) {count : Nat} (hcount : b.length = count) (masks b' : Bytes) :
      Bytes.masked (List.replicate count 0xff ++ masks) (b ++ b') = b ++ Bytes.masked masks b' := by
    subst hcount
    rw [Bytes.masked_append (List.length_replicate ..), Bytes.masked_ones]
  have hzeros (x y : UInt8) (rest : Bytes) :
      Bytes.masked [0, 0] ([x, y] ++ rest) = [0, 0] ++ rest := by simp [Bytes.masked]
  cases hspells with
  | secureInit | secureState | keyImport | fileRead | selected => rfl
  | @display line flags reserved text hlength =>
    have hpayload : bytes (.request (.display ⟨line, .ofByte flags, text⟩)) =
        .ok ([line, (DisplayFlags.ofByte flags).byte, UInt8.ofNat (textBytes text).length, 0] ++
          textBytes text) := if_neg (Nat.not_lt.2 hlimits)
    rw [hpayload, DisplayFlags.byte_ofByte]
    refine congrArg Except.ok ?_
    have hall (x : UInt8) : x &&& 0xff = x := UInt8.and_neg_one
    simp [kind, Request.instruction, Kind.masks, Bytes.masked, hall]
  | @fileSelect mode reserved reserved' name hlength =>
    have hname : ¬ ((textBytes name).length = 0 ∨ (textBytes name).length > 32) := by
      obtain ⟨hsome, hfits⟩ := hlimits
      dsimp only at hsome hfits
      omega
    have hpayload : bytes (.request (.fileSelect ⟨mode, name⟩)) =
        .ok ([mode.code, UInt8.ofNat (textBytes name).length, 0, 0] ++ textBytes name) :=
      if_neg hname
    rw [hpayload]
    refine congrArg Except.ok ?_
    have hmasked := hones [mode.code, UInt8.ofNat (textBytes name).length] rfl [0, 0]
      ([reserved, reserved'] ++ textBytes name)
    rw [hzeros] at hmasked
    exact hmasked.symm
  | fileWrite offset delayMs reserved reserved' data =>
    refine congrArg Except.ok ?_
    have hfront : (Bytes.ofWord32 offset ++ Bytes.ofWord16 delayMs).length = 6 := by simp
    have hmasked := hones _ hfront [0, 0] ([reserved, reserved'] ++ data)
    rw [hzeros, ← List.append_assoc, ← List.append_assoc] at hmasked
    exact hmasked.symm
  | @state flags reserved hreserved =>
    refine congrArg Except.ok ?_
    show [(SecureState.ofByte flags).byte, 0, 0, 0] =
      _ :: Bytes.masked (List.replicate 3 0) reserved
    rw [Bytes.masked_zeros hreserved, SecureState.byte_ofByte]
    rfl
  | @imported code reserved hreserved =>
    refine congrArg Except.ok ?_
    have hmasked := hones (Bytes.ofWord16 code) (Bytes.length_ofWord16 _) (List.replicate 2 0)
      reserved
    rw [Bytes.masked_zeros hreserved] at hmasked
    exact hmasked.symm

/-! ## What is accepted -/

namespace Kind

/-- How many bytes the fixed part has. -/
def leastLength : Kind → Nat
  | .request .display | .request .fileSelect | .reply .selected => 4
  | .request .fileRead => 12
  | .request .fileWrite => 8
  | .reply .secureState => 1
  | .reply .imported => 2
  | .request .secureInit | .request .secureState | .request .keyImport => 0

/-- How long a text the fixed part announces. -/
def textLength : Kind → Bytes → Nat
  | .request .display, _ :: _ :: length :: _ => length.toNat
  | .request .fileSelect, _ :: length :: _ => length.toNat
  | _, _ => 0

def textOf (k : Kind) (b : Bytes) : Bytes := (b.drop k.leastLength).take (k.textLength b)

def WrongMode (k : Kind) (b : Bytes) : Prop :=
  k = .request .fileSelect ∧ b.head? ≠ some 0 ∧ b.head? ≠ some 1

structure Accepts (k : Kind) (b : Bytes) : Prop where
  fixed : k.leastLength ≤ b.length
  mode : ¬ k.WrongMode b
  length : k.leastLength + k.textLength b ≤ b.length
  utf8 : ∃ text, k.textOf b = textBytes text

/-- Why the others are refused, the first fault counting. -/
inductive Refuses (k : Kind) (b : Bytes) : CodecError → Prop where
  | tooShort (hshort : b.length < k.leastLength) : Refuses k b .invalidLength
  | wrongMode (hfixed : k.leastLength ≤ b.length) (hmode : k.WrongMode b) :
      Refuses k b .invalidEncoding
  | cutText (hfixed : k.leastLength ≤ b.length) (hmode : ¬ k.WrongMode b)
      (hcut : b.length < k.leastLength + k.textLength b) : Refuses k b .invalidLength
  | notUtf8 (hfixed : k.leastLength ≤ b.length) (hmode : ¬ k.WrongMode b)
      (hlength : k.leastLength + k.textLength b ≤ b.length)
      (hutf8 : ¬ ∃ text, k.textOf b = textBytes text) : Refuses k b .invalidUtf8

variable {k : Kind}

theorem Accepts.not_refuses (haccepts : k.Accepts b) {e : CodecError} : ¬ k.Refuses b e := by
  intro hrefuses
  cases hrefuses with
  | tooShort hshort => exact absurd haccepts.fixed (Nat.not_le.2 hshort)
  | wrongMode _ hmode => exact haccepts.mode hmode
  | cutText _ _ hcut => exact absurd haccepts.length (Nat.not_le.2 hcut)
  | notUtf8 _ _ _ hutf8 => exact hutf8 haccepts.utf8

theorem Refuses.unique {e e' : CodecError} (hrefuses : k.Refuses b e) (hrefuses' : k.Refuses b e') :
    e = e' := by
  cases hrefuses with
  | tooShort hshort =>
    cases hrefuses' with
    | tooShort | cutText => rfl
    | wrongMode hfixed | notUtf8 hfixed => omega
  | wrongMode hfixed hmode =>
    cases hrefuses' with
    | tooShort => omega
    | wrongMode => rfl
    | cutText _ hmode' | notUtf8 _ hmode' => exact absurd hmode hmode'
  | cutText _ hmode hcut =>
    cases hrefuses' with
    | tooShort | cutText => rfl
    | wrongMode _ hmode' => exact absurd hmode' hmode
    | notUtf8 _ _ hlength => omega
  | notUtf8 hfixed hmode hlength =>
    cases hrefuses' with
    | tooShort | cutText => omega
    | wrongMode _ hmode' => exact absurd hmode' hmode
    | notUtf8 => rfl

end Kind

/-! ## Readers accept what is accepted -/

theorem Kind.not_wrongMode {k : Kind} (hselect : k ≠ .request .fileSelect) : ¬ k.WrongMode b :=
  fun hmode => hselect hmode.1

/-- A form without a text is read if the fixed part is there, and refused for nothing else. -/
theorem Kind.cases_of_fixed {α β : Type} {k : Kind} (hselect : k ≠ .request .fileSelect)
    (htext : k.textLength b = 0) (f : β → Message × Nat) (g : α → β) (v : α) :
    let read := Except.map f (Except.map g
      (if b.length < k.leastLength then .error CodecError.invalidLength else .ok v))
    (k.Accepts b ∧ ∃ m n, read = .ok (m, n)) ∨ ∃ e, k.Refuses b e ∧ read = .error e := by
  intro read
  by_cases hshort : b.length < k.leastLength
  · refine .inr ⟨_, .tooShort hshort, ?_⟩
    simp only [read, if_pos hshort]
    rfl
  · have hfixed := Nat.le_of_not_lt hshort
    refine .inl ⟨⟨hfixed, not_wrongMode hselect, by rwa [htext], "", by rw [textOf, htext]; rfl⟩,
      (f (g v)).1, (f (g v)).2, ?_⟩
    simp only [read, if_neg hshort]
    rfl

theorem Kind.refuses_of_leadingText {k : Kind} {rest : Bytes} {length : Nat} {e : CodecError}
    (hfixed : k.leastLength ≤ b.length) (hmode : ¬ k.WrongMode b)
    (hlength : k.textLength b = length) (hrest : b.drop k.leastLength = rest)
    (herror : Bytes.leadingText rest length = .error e) :
    k.Refuses b e := by
  have hcount : b.length = k.leastLength + rest.length := by
    rw [← hrest, List.length_drop]
    omega
  unfold Bytes.leadingText at herror
  split at herror
  case isTrue hcut =>
    cases herror
    exact .cutText hfixed hmode (by omega)
  case isFalse hfits =>
    split at herror
    case h_1 => cases herror
    case h_2 hutf8 =>
      cases herror
      refine .notUtf8 hfixed hmode (by omega) ?_
      rintro ⟨text, htext⟩
      rw [Kind.textOf, hrest, hlength] at htext
      exact absurd (Bytes.text?_eq_some_iff.2 htext) (by rw [hutf8]; nofun)

theorem Kind.accepts_of_leadingText {k : Kind} {rest : Bytes} {length : Nat} {text : String}
    (hfixed : k.leastLength ≤ b.length) (hmode : ¬ k.WrongMode b)
    (hlength : k.textLength b = length) (hrest : b.drop k.leastLength = rest)
    (hread : Bytes.leadingText rest length = .ok text) :
    k.Accepts b := by
  have hcount : b.length = k.leastLength + rest.length := by
    rw [← hrest, List.length_drop]
    omega
  obtain ⟨hfits, htext⟩ := Bytes.leadingText_eq_ok_iff.1 hread
  exact ⟨hfixed, hmode, by omega, text, by rw [Kind.textOf, hrest, hlength, htext]⟩

theorem Kind.wrongMode_cons_iff {mode : UInt8} {rest : Bytes} :
    WrongMode (.request .fileSelect) (mode :: rest) ↔ SelectMode.ofCode? mode = none := by
  have hcodes : (SelectMode.ofCode? mode = none) ↔ mode ≠ 0 ∧ mode ≠ 1 := by
    constructor
    · intro hnone
      constructor
      all_goals
        rintro rfl
        cases hnone
    · rintro ⟨hread, htruncate⟩
      unfold SelectMode.ofCode?
      split
      case h_1 => exact absurd rfl hread
      case h_2 => exact absurd rfl htruncate
      case h_3 => rfl
  rw [hcodes]
  simp [WrongMode]

/-- Every byte string is accepted and read, or refused for the fault that is reported. -/
theorem decode_cases (k : Kind) (b : Bytes) :
    (k.Accepts b ∧ ∃ m n, decode k b = .ok (m, n)) ∨
      ∃ e, k.Refuses b e ∧ decode k b = .error e := by
  rcases k with (_ | _ | _ | _ | _ | _ | _) | (_ | _ | _)
  case request.display =>
    rcases b with _ | ⟨line, _ | ⟨flags, _ | ⟨length, _ | ⟨reserved, rest⟩⟩⟩⟩
    case cons.cons.cons.cons =>
      have hfixed : 4 ≤ (line :: flags :: length :: reserved :: rest).length := by simp
      have hright := @Kind.not_wrongMode (line :: flags :: length :: reserved :: rest)
        (.request .display) (by decide)
      simp only [decode, Request.decode, DisplayRequest.decode]
      cases hread : Bytes.leadingText rest length.toNat with
      | error e => exact .inr ⟨e, Kind.refuses_of_leadingText hfixed hright rfl rfl hread, rfl⟩
      | ok text => exact .inl ⟨Kind.accepts_of_leadingText hfixed hright rfl rfl hread, _, _, rfl⟩
    all_goals exact .inr ⟨_, .tooShort (by simp [Kind.leastLength]), rfl⟩
  case request.fileSelect =>
    rcases b with _ | ⟨code, _ | ⟨length, _ | ⟨reserved, _ | ⟨reserved', rest⟩⟩⟩⟩
    case cons.cons.cons.cons =>
      have hfixed : 4 ≤ (code :: length :: reserved :: reserved' :: rest).length := by simp
      have hwrong := @Kind.wrongMode_cons_iff code (length :: reserved :: reserved' :: rest)
      simp only [decode, Request.decode, SelectRequest.decode]
      cases hcode : SelectMode.ofCode? code with
      | none => exact .inr ⟨_, .wrongMode hfixed (hwrong.2 hcode), rfl⟩
      | some mode =>
        have hright := mt hwrong.1 (by simp [hcode])
        dsimp only
        cases hread : Bytes.leadingText rest length.toNat with
        | error e => exact .inr ⟨e, Kind.refuses_of_leadingText hfixed hright rfl rfl hread, rfl⟩
        | ok name => exact .inl ⟨Kind.accepts_of_leadingText hfixed hright rfl rfl hread, _, _, rfl⟩
    all_goals exact .inr ⟨_, .tooShort (by simp [Kind.leastLength]), rfl⟩
  case request.fileRead => exact Kind.cases_of_fixed (k := .request .fileRead) (by decide) rfl _ _ _
  case request.fileWrite =>
    exact Kind.cases_of_fixed (k := .request .fileWrite) (by decide) rfl _ _ _
  case reply.selected => exact Kind.cases_of_fixed (k := .reply .selected) (by decide) rfl _ _ _
  case reply.imported => exact Kind.cases_of_fixed (k := .reply .imported) (by decide) rfl _ _ _
  case reply.secureState =>
    rcases b with _ | ⟨flags, rest⟩
    · exact .inr ⟨_, .tooShort Nat.one_pos, rfl⟩
    · have hfixed : 1 ≤ (flags :: rest).length := Nat.succ_le_succ (Nat.zero_le _)
      exact .inl ⟨⟨hfixed, Kind.not_wrongMode (by decide), hfixed, "", rfl⟩, _, _, rfl⟩
  -- What carries nothing is read from anything.
  all_goals
    have hnothing := Nat.zero_le b.length
    exact .inl ⟨⟨hnothing, Kind.not_wrongMode (by decide), hnothing, "", rfl⟩, _, _, rfl⟩

theorem exists_decode_iff {k : Kind} {b : Bytes} :
    (∃ m n, decode k b = .ok (m, n)) ↔ k.Accepts b := by
  rcases decode_cases k b with ⟨haccepts, hread⟩ | ⟨e, hrefuses, herror⟩
  · exact iff_of_true hread haccepts
  · refine iff_of_false ?_ fun haccepts => haccepts.not_refuses hrefuses
    rintro ⟨m, n, hread⟩
    rw [herror] at hread
    cases hread

theorem decode_eq_error_iff {k : Kind} {b : Bytes} {e : CodecError} :
    decode k b = .error e ↔ k.Refuses b e := by
  rcases decode_cases k b with ⟨haccepts, m, n, hread⟩ | ⟨e', hrefuses, herror⟩
  · refine iff_of_false ?_ haccepts.not_refuses
    rw [hread]
    nofun
  · rw [herror, Except.error.injEq]
    constructor
    · rintro rfl
      exact hrefuses
    · exact hrefuses.unique

/-! ## Reading and writing again -/

/-- A message outside the limits has a name that is empty or too long, or a text that is too
long. -/
theorem not_withinLimits_iff {m : Message} :
    ¬ m.WithinLimits ↔
      (∃ mode name, m = .request (.fileSelect ⟨mode, name⟩) ∧
        (name = "" ∨ 32 < (textBytes name).length)) ∨
      ∃ line flags text, m = .request (.display ⟨line, flags, text⟩) ∧
        64 < (textBytes text).length := by
  match m with
  | .request (.display ⟨line, flags, text⟩) => simp [WithinLimits]
  | .request (.fileSelect ⟨mode, name⟩) =>
    rw [withinLimits_fileSelect_iff, not_not]
    simp
  | .request .secureInit | .request .secureState | .request .keyImport | .request (.fileRead _)
  | .request (.fileWrite _) | .reply _ => simp [WithinLimits]

/-- Reading is exact: a byte string of each form is read if it has the fixed part, a known mode, and
the announced text in UTF-8, and otherwise the first of these faults is reported. What was read
depends on the bytes that were taken alone, and is written as these bytes without the ignored bits,
which are read as the same message again. The only messages that are read and cannot be written are
selections of an empty or too long name and prompts of a too long text. -/
theorem decoding_exact (k : Kind) (b : Bytes) :
    ((∃ m n, decode k b = .ok (m, n)) ↔ k.Accepts b) ∧
    (∀ e, decode k b = .error e ↔ k.Refuses b e) ∧
    ∀ m n, decode k b = .ok (m, n) →
      m.kind = k ∧ n ≤ b.length ∧ decode k (b.take n) = .ok (m, n) ∧
      (∀ rest, ∃ n', decode k (b.take n ++ rest) = .ok (m.extended rest, n')) ∧
      (m.WithinLimits →
        let written := Bytes.masked k.masks (b.take n)
        written.length = m.encodedLength ∧ decode k written = .ok (m, written.length) ∧
          ∀ buffer, m.encodedLength ≤ buffer.length →
            m.encodeInto buffer = .ok (written ++ buffer.drop written.length, written.length)) ∧
      ∀ buffer, m.encodedLength ≤ buffer.length →
        ((∃ e, m.encodeInto buffer = .error e) ↔
          (∃ mode name, m = .request (.fileSelect ⟨mode, name⟩) ∧
            (name = "" ∨ 32 < (textBytes name).length)) ∨
          ∃ line flags text, m = .request (.display ⟨line, flags, text⟩) ∧
            64 < (textBytes text).length) := by
  refine ⟨exists_decode_iff, fun e => decode_eq_error_iff, ?_⟩
  intro m n hread
  obtain ⟨rfl, hn, hspells⟩ := spells_of_decode hread
  have hfits : n ≤ b.length := hn ▸ Nat.min_le_left _ _
  refine ⟨rfl, hfits, ?_, fun rest => ⟨_, hspells.decode_append rest⟩, ?_, ?_⟩
  · rw [hspells.decode_eq, List.length_take_of_le hfits]
  · intro hlimits written
    have hbytes : m.bytes = .ok written := hspells.bytes_eq hlimits
    obtain ⟨hwritten, hlength⟩ := spells_of_bytes hbytes
    refine ⟨hlength, hwritten.decode_eq, fun buffer hroom => ?_⟩
    exact encodeInto_eq_ok_iff.2 ⟨written, hbytes, hlength ▸ hroom, rfl, rfl⟩
  · intro buffer hroom
    have hwritten : (∃ out n, m.encodeInto buffer = .ok (out, n)) ↔ m.WithinLimits :=
      exists_encodeInto_iff.trans (and_iff_left hroom)
    rw [← not_withinLimits_iff, ← hwritten]
    rcases m.encodeInto buffer with e | ⟨out, n'⟩ <;> simp

/-- A prompt with a reserved byte, with flags that have no name and with one byte behind it, and an
answer of which only the flags came. -/
theorem decoding_exact_ignored :
    let spelled : Bytes := [3, 0xfd, 2, 9, 0x68, 0x69, 0x55]
    let prompt : Message := .request (.display ⟨3, ⟨true, false⟩, "hi"⟩)
    let state : Message := .reply (.secureState ⟨true, false, false⟩)
    decode (.request .display) spelled = .ok (prompt, 6) ∧
      prompt.encodeInto (List.replicate 6 0xee) = .ok ([3, 1, 2, 0, 0x68, 0x69], 6) ∧
      decode (.reply .secureState) [0x09] = .ok (state, 1) ∧
      state.encodeInto (List.replicate 5 0xee) = .ok ([1, 0, 0, 0, 0xee], 4) ∧
      decode (.reply .secureState) [1, 0, 0, 0] = .ok (state, 4) := by
  intro spelled prompt state
  have hprompt : decode (.request .display) spelled = .ok (prompt, 6) :=
    (@Spells.display 3 0xfd 9 "hi" (by decide)).decode_append [0x55]
  have hstate : decode (.reply .secureState) [0x09] = .ok (state, 1) := by rfl
  obtain ⟨-, -, hread⟩ := decoding_exact (.request .display) spelled
  obtain ⟨-, -, -, -, hagain, -⟩ := hread _ _ hprompt
  obtain ⟨-, -, hread'⟩ := decoding_exact (.reply .secureState) [0x09]
  obtain ⟨-, -, -, -, hagain', -⟩ := hread' _ _ hstate
  obtain ⟨-, -, hwritten⟩ := hagain (by decide)
  obtain ⟨-, hback, hwritten'⟩ := hagain' trivial
  exact ⟨hprompt, hwritten (List.replicate 6 0xee) (by decide), hstate,
    hwritten' (List.replicate 5 0xee) (by decide), hback⟩

end Message

end KeyInjection
