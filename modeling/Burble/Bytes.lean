import Mathlib.Data.Nat.ModEq
import Mathlib.Data.List.Basic

namespace Burble

/-- The low `width` bytes of a number, least significant first. -/
def littleEndian : Nat → Nat → List UInt8
  | 0, _ => []
  | width + 1, value => value.toUInt8 :: littleEndian width (value / 256)

def ofLittleEndian : List UInt8 → Nat
  | [] => 0
  | byte :: rest => byte.toNat + 256 * ofLittleEndian rest

def bigEndian (width value : Nat) : List UInt8 := (littleEndian width value).reverse

def ofBigEndian (bytes : List UInt8) : Nat := ofLittleEndian bytes.reverse

@[simp] theorem littleEndian_length (width value : Nat) : (littleEndian width value).length = width := by
  induction width generalizing value with
  | zero => rfl
  | succ width ih => rw [littleEndian, List.length_cons, ih]

@[simp] theorem bigEndian_length (width value : Nat) : (bigEndian width value).length = width := by
  rw [bigEndian, List.length_reverse, littleEndian_length]

theorem ofLittleEndian_lt (bytes : List UInt8) : ofLittleEndian bytes < 256 ^ bytes.length := by
  induction bytes with
  | nil => exact Nat.one_pos
  | cons byte rest ih =>
    have small : byte.toNat < 256 := byte.toNat_lt
    rw [ofLittleEndian, List.length_cons, pow_succ]
    omega

theorem ofLittleEndian_littleEndian (width value : Nat) :
    ofLittleEndian (littleEndian width value) = value % 256 ^ width := by
  induction width generalizing value with
  | zero => rw [littleEndian, ofLittleEndian, pow_zero, Nat.mod_one]
  | succ width ih =>
    have low : value.toUInt8.toNat = value % 256 := UInt8.toNat_ofNat
    rw [littleEndian, ofLittleEndian, ih, low, pow_succ, Nat.mul_comm (256 ^ width), Nat.mod_mul]

/-- A number that fits is read back from its bytes. -/
theorem ofLittleEndian_of_lt {width value : Nat} (fits : value < 256 ^ width) :
    ofLittleEndian (littleEndian width value) = value := by
  rw [ofLittleEndian_littleEndian, Nat.mod_eq_of_lt fits]

theorem ofBigEndian_of_lt {width value : Nat} (fits : value < 256 ^ width) :
    ofBigEndian (bigEndian width value) = value := by
  rw [ofBigEndian, bigEndian, List.reverse_reverse, ofLittleEndian_of_lt fits]

/-- Bytes are the bytes of the number they stand for. -/
theorem littleEndian_ofLittleEndian (bytes : List UInt8) :
    littleEndian bytes.length (ofLittleEndian bytes) = bytes := by
  induction bytes with
  | nil => rfl
  | cons byte rest ih =>
    have small : byte.toNat < 256 := byte.toNat_lt
    have low : (byte.toNat + 256 * ofLittleEndian rest).toUInt8 = byte := by
      apply UInt8.toNat_inj.mp
      rw [show (byte.toNat + 256 * ofLittleEndian rest).toUInt8.toNat =
        (byte.toNat + 256 * ofLittleEndian rest) % 256 from UInt8.toNat_ofNat]
      omega
    rw [ofLittleEndian, List.length_cons, littleEndian, low,
      show (byte.toNat + 256 * ofLittleEndian rest) / 256 = ofLittleEndian rest by omega, ih]

theorem take_littleEndian (width value : Nat) (rest : List UInt8) :
    (littleEndian width value ++ rest).take width = littleEndian width value :=
  List.take_left' (littleEndian_length width value)

theorem drop_littleEndian (width value : Nat) (rest : List UInt8) : (littleEndian width value ++ rest).drop width = rest :=
  List.drop_left' (littleEndian_length width value)

theorem littleEndian_take {width : Nat} {data : List UInt8} (enough : width ≤ data.length) :
    littleEndian width (ofLittleEndian (data.take width)) = data.take width := by
  have size : (data.take width).length = width := List.length_take_of_le enough
  have same := littleEndian_ofLittleEndian (data.take width)
  rwa [size] at same

theorem ofLittleEndian_take_lt (width : Nat) (data : List UInt8) : ofLittleEndian (data.take width) < 256 ^ width := by
  refine (ofLittleEndian_lt _).trans_le (Nat.pow_le_pow_right (by decide) ?_)
  rw [List.length_take]
  exact Nat.min_le_left _ _

theorem bigEndian_ofBigEndian {width : Nat} {bytes : List UInt8} (long : bytes.length = width) :
    bigEndian width (ofBigEndian bytes) = bytes := by
  rw [bigEndian, ofBigEndian, ← long, ← List.length_reverse, littleEndian_ofLittleEndian, List.reverse_reverse]

theorem ofBigEndian_lt {width : Nat} {bytes : List UInt8} (long : bytes.length = width) :
    ofBigEndian bytes < 256 ^ width := by
  rw [ofBigEndian, ← long, ← List.length_reverse]
  exact ofLittleEndian_lt _

/-- The UTF-8 bytes of a text. -/
def utf8 (text : String) : List UInt8 := text.toUTF8.data.toList

/-- The text with these UTF-8 bytes, if they are well formed. -/
def ofUtf8 (bytes : List UInt8) : Option String := String.fromUTF8? ⟨bytes.toArray⟩

theorem ofUtf8_eq_some {bytes : List UInt8} {text : String} : ofUtf8 bytes = some text ↔ utf8 text = bytes := by
  unfold ofUtf8 String.fromUTF8? utf8
  constructor
  · intro read
    split at read
    next => cases read; rfl
    next => cases read
  · rintro rfl
    have whole : (⟨text.toUTF8.data.toList.toArray⟩ : ByteArray) = text.toByteArray := by
      rw [Array.toArray_toList, String.toUTF8_eq_toByteArray]
    rw [whole, dif_pos text.isValidUTF8]
    rfl

theorem ofUtf8_utf8 (text : String) : ofUtf8 (utf8 text) = some text := ofUtf8_eq_some.mpr rfl

theorem utf8_injective : Function.Injective utf8 := by
  intro one other same
  have read := ofUtf8_utf8 other
  rw [← same, ofUtf8_utf8] at read
  exact Option.some.inj read

end Burble

namespace Burble

universe u v
variable {Value : Type u} {Byte : Type v}

/-- Reading that undoes a way of writing: what has been written is read off the front of the data,
nothing else is ever read, and there is one way to read. -/
structure Codec (written : Value → List Byte → Prop) (reads : List Byte → Value → List Byte → Prop) : Prop where
  complete : ∀ {value bytes}, written value bytes → ∀ rest, reads (bytes ++ rest) value rest
  sound : ∀ {data value rest}, reads data value rest → ∃ bytes, written value bytes ∧ data = bytes ++ rest
  unique : ∀ {data value rest other left}, reads data value rest → reads data other left → value = other ∧ rest = left

namespace Codec
variable {written : Value → List Byte → Prop} {reads : List Byte → Value → List Byte → Prop}

/-- Nothing is read from less than what has been written. -/
theorem whole (codec : Codec written reads) {value other : Value} {front back rest : List Byte}
    (wrote : written value (front ++ back)) (read : reads front other rest) : back = [] := by
  obtain ⟨bytes, same, rfl⟩ := codec.sound read
  have again := codec.complete same (rest ++ back)
  have first := codec.complete wrote []
  rw [List.append_nil, List.append_assoc] at first
  exact (List.append_eq_nil_iff.mp (codec.unique again first).2).2

end Codec
end Burble
