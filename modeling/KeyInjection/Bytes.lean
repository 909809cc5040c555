-- SUMMARY: Byte strings, little-endian numbers, and the UTF-8 bytes of a text.

/-!
# Bytes

Everything that crosses a channel is a byte string. This module holds the two ways the library
looks inside one: as a number written least significant byte first, and as the UTF-8 form of a text.

* `ofLittleEndian_littleEndian` and `littleEndian_ofLittleEndian` say that a number of `n` bytes
  and its written form determine each other;
* `text?_eq_some_iff` says that a text is read back from exactly the bytes it is written as.
-/

namespace KeyInjection

abbrev Bytes := List UInt8

/-- The bytes a text is sent as: its UTF-8 form. -/
def textBytes (text : String) : Bytes := text.toByteArray.data.toList

namespace Bytes

/-! ## Numbers -/

/-- The `width` low bytes of a number, least significant first. -/
def littleEndian : (width : Nat) → Nat → Bytes
  | 0, _ => []
  | width + 1, n => UInt8.ofNat n :: littleEndian width (n / 256)

/-- The number whose bytes, least significant first, are given. -/
def ofLittleEndian : Bytes → Nat
  | [] => 0
  | b :: rest => b.toNat + 256 * ofLittleEndian rest

@[simp] theorem length_littleEndian (width n : Nat) : (littleEndian width n).length = width := by
  induction width generalizing n with
  | zero => rfl
  | succ width ih => simp [littleEndian, ih]

theorem ofLittleEndian_littleEndian (width n : Nat) :
    ofLittleEndian (littleEndian width n) = n % Nat.pow 256 width := by
  induction width generalizing n with
  | zero => simp [littleEndian, ofLittleEndian, Nat.mod_one]
  | succ width ih =>
    simp only [littleEndian, ofLittleEndian, ih, UInt8.toNat_ofNat']
    have hpow : Nat.pow 256 (width + 1) = 256 * Nat.pow 256 width := Nat.mul_comm ..
    rw [hpow, Nat.mod_mul]

theorem littleEndian_ofLittleEndian (b : Bytes) :
    littleEndian b.length (ofLittleEndian b) = b := by
  induction b with
  | nil => rfl
  | cons x rest ih =>
    have hx : x.toNat < 256 := x.toNat_lt
    have hdiv : (x.toNat + 256 * ofLittleEndian rest) / 256 = ofLittleEndian rest := by omega
    have hbyte : UInt8.ofNat (x.toNat + 256 * ofLittleEndian rest) = x := by
      apply UInt8.toNat_inj.1
      rw [UInt8.toNat_ofNat']
      omega
    simp only [List.length_cons, littleEndian, ofLittleEndian, hdiv, ih, hbyte]

theorem ofLittleEndian_lt (b : Bytes) : ofLittleEndian b < Nat.pow 256 b.length := by
  induction b with
  | nil => simp [ofLittleEndian]
  | cons x rest ih =>
    have hx : x.toNat < 256 := x.toNat_lt
    have hpow : Nat.pow 256 (rest.length + 1) = Nat.pow 256 rest.length * 256 := rfl
    rw [ofLittleEndian, List.length_cons, hpow]
    omega

/-- The 16-bit word in the first two bytes. -/
def word16 (b : Bytes) : UInt16 := UInt16.ofNat (ofLittleEndian (b.take 2))

def word32 (b : Bytes) : UInt32 := UInt32.ofNat (ofLittleEndian (b.take 4))

def ofWord16 (w : UInt16) : Bytes := littleEndian 2 w.toNat

def ofWord32 (w : UInt32) : Bytes := littleEndian 4 w.toNat

@[simp] theorem length_ofWord16 (w : UInt16) : (ofWord16 w).length = 2 := length_littleEndian ..

@[simp] theorem length_ofWord32 (w : UInt32) : (ofWord32 w).length = 4 := length_littleEndian ..

theorem word16_ofWord16 (w : UInt16) (rest : Bytes) : word16 (ofWord16 w ++ rest) = w := by
  have hw : w.toNat < 65536 := w.toNat_lt
  apply UInt16.toNat_inj.1
  have hpow : Nat.pow 256 2 = 65536 := rfl
  rw [word16, List.take_left' (length_ofWord16 w), ofWord16, ofLittleEndian_littleEndian, hpow,
    UInt16.toNat_ofNat']
  omega

theorem word32_ofWord32 (w : UInt32) (rest : Bytes) : word32 (ofWord32 w ++ rest) = w := by
  have hw : w.toNat < 4294967296 := w.toNat_lt
  apply UInt32.toNat_inj.1
  have hpow : Nat.pow 256 4 = 4294967296 := rfl
  rw [word32, List.take_left' (length_ofWord32 w), ofWord32, ofLittleEndian_littleEndian, hpow,
    UInt32.toNat_ofNat']
  omega

/-! ## Texts -/

/-- The text whose UTF-8 form the bytes are, if they are one. -/
def text? (b : Bytes) : Option String := String.fromUTF8? b.toByteArray

theorem text?_eq_some_iff {b : Bytes} {text : String} :
    text? b = some text ↔ b = textBytes text := by
  have array_eq : b.toByteArray = text.toByteArray ↔ b = textBytes text := by
    rw [ByteArray.ext_iff, ← Array.toList_inj, List.data_toByteArray, List.toList_toArray,
      textBytes]
  rw [← array_eq, text?, String.fromUTF8?]
  split
  case isTrue valid => simp [← String.toByteArray_inj, String.fromUTF8]
  case isFalse invalid =>
    simp only [reduceCtorEq, false_iff]
    intro same
    exact invalid (same ▸ text.isValidUTF8)

@[simp] theorem text?_textBytes (text : String) : text? (textBytes text) = some text :=
  text?_eq_some_iff.2 rfl

end Bytes

end KeyInjection
