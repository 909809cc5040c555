-- SUMMARY: Which texts are hexadecimal, what bytes they stand for, and why any other is refused.
import KeyInjection.Text.Hex

/-!
# Hexadecimal texts

A text of an even number of hexadecimal digits stands for a byte string of half as many bytes: the
one whose hexadecimal form is the text but for the case of the letters (`decode_eq_ok_iff`). Any
other text is refused for its length, or else for the first of its bytes that is no digit
(`refuses_of_decode`).
-/

namespace KeyInjection.Hex

/-- The text has an even number of characters, all of them hexadecimal digits. -/
def IsHex (text : String) : Prop :=
  (textBytes text).length % 2 = 0 ∧ ∀ b ∈ textBytes text, (value? b).isSome = true

instance (text : String) : Decidable (IsHex text) := inferInstanceAs (Decidable (_ ∧ _))

theorem length_joinPairs (digits : List Nat) :
    (joinPairs digits).length = digits.length / 2 := by
  fun_induction joinPairs digits with
  | case1 high low rest ih =>
    simp only [List.length_cons]
    omega
  | case2 digits hfew =>
    match digits with
    | [] => rfl
    | [_] => simp
    | high :: low :: rest => exact absurd rfl (hfew high low rest)

/-- Bytes can be read if they are digits and of an even number, and then in pairs. -/
theorem decodeBytes_eq_ok_iff {bytes data : Bytes} :
    decodeBytes bytes = .ok data ↔
      (bytes.length % 2 = 0 ∧ ∀ b ∈ bytes, (value? b).isSome = true) ∧
        joinPairs (bytes.filterMap value?) = data := by
  unfold decodeBytes
  by_cases hodd : bytes.length % 2 = 1
  · simp [hodd]
  have heven : bytes.length % 2 = 0 := by omega
  rw [if_neg hodd]
  cases hfind : bytes.findIdx? (fun b => (value? b).isNone) with
  | none =>
    have hdigits : ∀ b ∈ bytes, (value? b).isSome = true := by
      simpa [Option.isSome_iff_ne_none] using hfind
    exact ⟨fun hok => ⟨⟨heven, hdigits⟩, Except.ok.inj hok⟩, fun h => congrArg _ h.2⟩
  | some i =>
    obtain ⟨hi, hbad, -⟩ := List.findIdx?_eq_some_iff_getElem.1 hfind
    constructor
    · intro hok
      cases hok
    · rintro ⟨⟨-, hdigits⟩, -⟩
      have hgood := hdigits _ (List.getElem_mem hi)
      simp_all

theorem exists_decode {text : String} (htext : IsHex text) :
    ∃ b, decode text = .ok b ∧ b.length = (textBytes text).length / 2 := by
  refine ⟨_, decodeBytes_eq_ok_iff.2 ⟨htext, rfl⟩, ?_⟩
  rw [length_joinPairs, List.length_filterMap_eq_countP, List.countP_eq_length.2 htext.2]

theorem isHex_of_decode {text : String} {b : Bytes} (hok : decode text = .ok b) : IsHex text :=
  (decodeBytes_eq_ok_iff.1 hok).1

theorem length_of_decode {text : String} {b : Bytes} (hok : decode text = .ok b) :
    2 * b.length = (textBytes text).length := by
  have hhex := isHex_of_decode hok
  obtain ⟨b', hok', hlength⟩ := exists_decode hhex
  obtain rfl : b = b' := Except.ok.inj (hok.symm.trans hok')
  have heven := hhex.1
  omega

/-! ## Digits -/

/-- A byte that is a hexadecimal digit in ASCII, in either case. -/
def IsDigit (b : UInt8) : Prop := b ∈ textBytes "0123456789abcdefABCDEF"

instance (b : UInt8) : Decidable (IsDigit b) := inferInstanceAs (Decidable (_ ∈ _))

def lowerByte (b : UInt8) : UInt8 := if 65 ≤ b ∧ b ≤ 90 then b + 32 else b

def digitByte (n : Nat) : UInt8 := UInt8.ofNat (digit n).toNat

theorem isDigit_ofNat : ∀ n : Fin 256,
    IsDigit (UInt8.ofNat n) ↔ (value? (UInt8.ofNat n)).isSome = true := by
  decide +kernel

theorem value?_ofNat : ∀ n : Fin 256, ∀ v : Fin 16,
    value? (UInt8.ofNat n) = some v.val ↔ lowerByte (UInt8.ofNat n) = digitByte v := by
  decide +kernel

theorem value?_ofNat_lt : ∀ n : Fin 256, ∀ v ∈ value? (UInt8.ofNat n), v < 16 := by
  decide +kernel

theorem isDigit_iff (b : UInt8) : IsDigit b ↔ (value? b).isSome = true := by
  have hdigit := isDigit_ofNat ⟨b.toNat, b.toNat_lt⟩
  rwa [UInt8.ofNat_toNat] at hdigit

/-- What a digit has as its value is known from the digit but for its case. -/
theorem value?_eq_some_iff {b : UInt8} {v : Nat} (hv : v < 16) :
    value? b = some v ↔ lowerByte b = digitByte v := by
  have hvalue := value?_ofNat ⟨b.toNat, b.toNat_lt⟩ ⟨v, hv⟩
  rwa [UInt8.ofNat_toNat] at hvalue

theorem lt_of_value? {b : UInt8} {v : Nat} (hvalue : value? b = some v) : v < 16 := by
  have hlt := value?_ofNat_lt ⟨b.toNat, b.toNat_lt⟩ v
  rw [UInt8.ofNat_toNat] at hlt
  exact hlt hvalue

theorem isHex_iff (text : String) :
    IsHex text ↔ (textBytes text).length % 2 = 0 ∧ ∀ b ∈ textBytes text, IsDigit b := by
  simp only [IsHex, isDigit_iff]

/-! ## Lower-case texts -/

theorem textBytes_eq_flatMap (text : String) :
    textBytes text = text.toList.flatMap String.utf8EncodeChar := by
  have hbytes := String.toByteArray_ofList (l := text.toList)
  rw [String.ofList_toList] at hbytes
  rw [textBytes, hbytes, List.utf8Encode, List.data_toByteArray]

theorem textBytes_inj {text other : String} (h : textBytes text = textBytes other) :
    text = other := by
  have hread := congrArg Bytes.text? h
  rw [Bytes.text?_textBytes, Bytes.text?_textBytes] at hread
  exact Option.some.inj hread

theorem lowerByte_of_le {n : Nat} (hlow : 128 ≤ n) (hhigh : n < 256) :
    lowerByte (UInt8.ofNat n) = UInt8.ofNat n := by
  rw [lowerByte, if_neg]
  rintro ⟨-, hle⟩
  have hle : n % 256 ≤ 90 := by simpa [UInt8.le_iff_toNat_le] using hle
  omega

/-- The bytes of characters outside ASCII are not the bytes of any letter. -/
theorem map_lowerByte_utf8EncodeChar {c : Char} (hc : ¬ c.val.toNat ≤ 127) :
    (String.utf8EncodeChar c).map lowerByte = String.utf8EncodeChar c := by
  unfold String.utf8EncodeChar
  dsimp only
  rw [if_neg hc]
  have hlow (n : Nat) : lowerByte (UInt8.ofNat (n % 64 + 128)) = UInt8.ofNat (n % 64 + 128) :=
    lowerByte_of_le (by omega) (by omega)
  split
  · simp only [List.map_cons, List.map_nil, hlow]
    rw [lowerByte_of_le (by omega) (by omega)]
  · split
    · simp only [List.map_cons, List.map_nil, hlow]
      rw [lowerByte_of_le (by omega) (by omega)]
    · simp only [List.map_cons, List.map_nil, hlow]
      rw [lowerByte_of_le (by omega) (by omega)]

theorem utf8EncodeChar_toLower_ascii : ∀ n : Fin 128,
    String.utf8EncodeChar (Char.ofNat n).toLower =
      (String.utf8EncodeChar (Char.ofNat n)).map lowerByte := by
  decide +kernel

theorem utf8EncodeChar_toLower (c : Char) :
    String.utf8EncodeChar c.toLower = (String.utf8EncodeChar c).map lowerByte := by
  by_cases hc : c.toNat ≤ 127
  · have hascii := utf8EncodeChar_toLower_ascii ⟨c.toNat, by omega⟩
    rwa [Char.ofNat_toNat] at hascii
  have hsame : c.toLower = c := by
    refine dif_neg ?_
    rintro ⟨-, hle⟩
    have hle : c.toNat ≤ 90 := hle
    omega
  rw [hsame, map_lowerByte_utf8EncodeChar hc]

theorem textBytes_toLower (text : String) :
    textBytes text.toLower = (textBytes text).map lowerByte := by
  have hchars : text.toLower.toList = text.toList.map Char.toLower := String.toList_map
  rw [textBytes_eq_flatMap, textBytes_eq_flatMap, hchars, List.flatMap_map, List.map_flatMap]
  simp only [utf8EncodeChar_toLower]

/-! ## Reading and writing -/

theorem utf8EncodeChar_digit : ∀ n : Fin 16,
    String.utf8EncodeChar (digit n) = [digitByte n] := by
  decide +kernel

theorem textBytes_encode_cons (b : UInt8) (rest : Bytes) :
    textBytes (encode (b :: rest)) =
      digitByte (b.toNat / 16) :: digitByte (b.toNat % 16) :: textBytes (encode rest) := by
  have hb : b.toNat < 256 := b.toNat_lt
  have hhigh := utf8EncodeChar_digit ⟨b.toNat / 16, by omega⟩
  have hlow := utf8EncodeChar_digit ⟨b.toNat % 16, by omega⟩
  simp only [textBytes_eq_flatMap, encode, String.toList_ofList, encodeChars, List.flatMap_cons]
  rw [hhigh, hlow]
  rfl

/-- Two digits are read as one byte. -/
theorem decodeBytes_cons_cons {x y : UInt8} {rest data : Bytes} :
    decodeBytes (x :: y :: rest) = .ok data ↔
      ∃ high low data', value? x = some high ∧ value? y = some low ∧
        decodeBytes rest = .ok data' ∧ data = UInt8.ofNat (16 * high + low) :: data' := by
  rw [decodeBytes_eq_ok_iff]
  constructor
  · rintro ⟨⟨heven, hdigits⟩, rfl⟩
    obtain ⟨high, hhigh⟩ := Option.isSome_iff_exists.1 (hdigits x (by simp))
    obtain ⟨low, hlow⟩ := Option.isSome_iff_exists.1 (hdigits y (by simp))
    have hrest : rest.length % 2 = 0 ∧ ∀ b ∈ rest, (value? b).isSome = true := by
      refine ⟨?_, fun b hb => hdigits b (by simp [hb])⟩
      rw [List.length_cons, List.length_cons] at heven
      omega
    refine ⟨high, low, _, hhigh, hlow, decodeBytes_eq_ok_iff.2 ⟨hrest, rfl⟩, ?_⟩
    rw [List.filterMap_cons_some hhigh, List.filterMap_cons_some hlow, joinPairs]
  · rintro ⟨high, low, data', hhigh, hlow, hrest, rfl⟩
    obtain ⟨⟨heven, hdigits⟩, rfl⟩ := decodeBytes_eq_ok_iff.1 hrest
    refine ⟨⟨?_, ?_⟩, ?_⟩
    · rw [List.length_cons, List.length_cons]
      omega
    · simp only [List.forall_mem_cons, hhigh, hlow, Option.isSome_some, true_and]
      exact hdigits
    · rw [List.filterMap_cons_some hhigh, List.filterMap_cons_some hlow, joinPairs]

/-- What is read is written as what was read, with lower-case letters. -/
theorem textBytes_encode_of_decodeBytes : ∀ {bytes data : Bytes},
    decodeBytes bytes = .ok data → textBytes (encode data) = bytes.map lowerByte
  | [], data, hok => by
    cases hok
    rfl
  | [_], data, hok => by cases hok
  | x :: y :: rest, data, hok => by
    obtain ⟨high, low, data', hhigh, hlow, hrest, rfl⟩ := decodeBytes_cons_cons.1 hok
    have hhigh16 := lt_of_value? hhigh
    have hlow16 := lt_of_value? hlow
    have hbyte : (UInt8.ofNat (16 * high + low)).toNat = 16 * high + low := by
      rw [UInt8.toNat_ofNat']
      omega
    rw [textBytes_encode_cons, textBytes_encode_of_decodeBytes hrest, hbyte, List.map_cons,
      List.map_cons, (value?_eq_some_iff hhigh16).1 hhigh, (value?_eq_some_iff hlow16).1 hlow,
      show (16 * high + low) / 16 = high by omega, show (16 * high + low) % 16 = low by omega]

/-- What is written is read back, whatever the case of the letters. -/
theorem decodeBytes_of_textBytes_encode {data bytes : Bytes}
    (h : textBytes (encode data) = bytes.map lowerByte) : decodeBytes bytes = .ok data := by
  induction data generalizing bytes with
  | nil =>
    obtain rfl : bytes = [] := List.map_eq_nil_iff.1 h.symm
    rfl
  | cons b rest ih =>
    rw [textBytes_encode_cons] at h
    match bytes, h with
    | [_], h => simp at h
    | x :: y :: bytes, h =>
      have hb : b.toNat < 256 := b.toNat_lt
      obtain ⟨hhigh, hlow, hrest⟩ : digitByte (b.toNat / 16) = lowerByte x ∧
          digitByte (b.toNat % 16) = lowerByte y ∧
          textBytes (encode rest) = bytes.map lowerByte := by
        simpa using h
      refine decodeBytes_cons_cons.2 ⟨b.toNat / 16, b.toNat % 16, rest,
        (value?_eq_some_iff (by omega)).2 hhigh.symm, (value?_eq_some_iff (by omega)).2 hlow.symm,
        ih hrest, ?_⟩
      rw [Nat.div_add_mod, UInt8.ofNat_toNat]

/-- A text stands for the byte string whose hexadecimal form it is but for the case of the
letters. -/
theorem decode_eq_ok_iff {text : String} {b : Bytes} :
    decode text = .ok b ↔ encode b = text.toLower := by
  constructor
  · intro hok
    apply textBytes_inj
    rw [textBytes_toLower]
    exact textBytes_encode_of_decodeBytes hok
  · intro h
    refine decodeBytes_of_textBytes_encode ?_
    rw [h, textBytes_toLower]

example : decode "00a1Ff" = .ok [0x00, 0xa1, 0xff] := by rfl

/-! ## Refusals -/

/-- Why a text is refused: for its length, or for the first of its bytes that is no digit. -/
inductive Refuses (text : String) : HexError → Prop where
  | oddLength (hodd : (textBytes text).length % 2 = 1) : Refuses text .oddLength
  | invalidCharacter {before after : Bytes} {b : UInt8} (heven : (textBytes text).length % 2 = 0)
      (hbytes : textBytes text = before ++ b :: after) (hbefore : ∀ x ∈ before, IsDigit x)
      (hb : ¬ IsDigit b) :
      Refuses text (.invalidCharacter (Char.ofNat b.toNat) before.length)

theorem refuses_of_decode {text : String} {cause : HexError} (herror : decode text = .error cause) :
    Refuses text cause := by
  unfold decode decodeBytes at herror
  split at herror
  case isTrue hodd =>
    cases herror
    exact .oddLength hodd
  case isFalse heven =>
    split at herror
    case h_2 => cases herror
    case h_1 i hfind =>
      obtain ⟨hi, hbad, hbefore⟩ := List.findIdx?_eq_some_iff_getElem.1 hfind
      have hsplit : textBytes text =
          (textBytes text).take i ++ (textBytes text)[i] :: (textBytes text).drop (i + 1) := by
        rw [← List.drop_eq_getElem_cons hi, List.take_append_drop]
      have hdigits : ∀ x ∈ (textBytes text).take i, IsDigit x := by
        intro x hx
        obtain ⟨j, hj, rfl⟩ := List.mem_take_iff_getElem.1 hx
        have hgood := hbefore j (by omega)
        rw [isDigit_iff, Option.isSome_iff_ne_none]
        simpa using hgood
      have hb : ¬ IsDigit (textBytes text)[i] := by
        rw [isDigit_iff]
        simpa using hbad
      have hrefuses := Refuses.invalidCharacter (by omega) hsplit hdigits hb
      rw [List.length_take_of_le (Nat.le_of_lt hi)] at hrefuses
      rw [List.getD_eq_getElem?_getD, List.getElem?_eq_getElem hi] at herror
      cases herror
      exact hrefuses

/-- The byte that is named may be one within a character. -/
example : decode "aé1" = .error (.invalidCharacter 'Ã' 1) := by rfl

theorem toNat_lt_of_decode {text : String} {c : Char} {position : Nat}
    (herror : decode text = .error (.invalidCharacter c position)) : c.toNat < 256 := by
  have hbytes : ∀ n : Fin 256, (Char.ofNat n).toNat < 256 := by decide +kernel
  cases refuses_of_decode herror with
  | @invalidCharacter _ _ b => exact hbytes ⟨b.toNat, b.toNat_lt⟩

end KeyInjection.Hex
