import Burble.Bytes
import Mathlib.Data.Nat.Bitwise

namespace Burble.Bridges.MumbleVarint

/-- No clause takes a value of more than 64 bits. -/
def encode (value : Nat) : Option (List UInt8) :=
  if value < 0x80 then some [value.toUInt8]
  else if value < 0x4000 then some [(value >>> 8 ||| 0x80).toUInt8, (value &&& 0xFF).toUInt8]
  else if value < 0x200000 then
    some [(value >>> 16 ||| 0xC0).toUInt8, (value >>> 8 &&& 0xFF).toUInt8, (value &&& 0xFF).toUInt8]
  else if value < 0x10000000 then
    some [(value >>> 24 ||| 0xE0).toUInt8, (value >>> 16 &&& 0xFF).toUInt8, (value >>> 8 &&& 0xFF).toUInt8,
      (value &&& 0xFF).toUInt8]
  else if value < 0x100000000 then some (0xF0 :: bigEndian 4 value)
  else if value ≤ 0xFFFFFFFFFFFFFFFF then some (0xF4 :: bigEndian 8 value)
  else none

/-- A clause of `decode`: the first byte begins with the bits of a tag, and the value is made of its
other bits and of the bytes that follow. -/
structure Clause where
  tag : Nat
  tagBits : Nat
  bytes : Nat
  short : tagBits ≤ 8
  small : tag < 2 ^ tagBits

/-- The clauses in their order: `0b110::3, high::5, low::16-big` is the third. -/
def clauses : List Clause :=
  [⟨0b0, 1, 0, by decide, by decide⟩, ⟨0b10, 2, 1, by decide, by decide⟩, ⟨0b110, 3, 2, by decide, by decide⟩,
    ⟨0b1110, 4, 3, by decide, by decide⟩, ⟨0xF0, 8, 4, by decide, by decide⟩, ⟨0xF4, 8, 8, by decide, by decide⟩]

def Clause.read (clause : Clause) : List UInt8 → Option (Nat × List UInt8)
  | [] => none
  | first :: data =>
    if first.toNat >>> (8 - clause.tagBits) = clause.tag ∧ clause.bytes ≤ data.length then
      let high := first.toNat % 2 ^ (8 - clause.tagBits)
      let low := ofBigEndian (data.take clause.bytes)
      some (high <<< (8 * clause.bytes) ||| low, data.drop clause.bytes)
    else none

def decode (data : List UInt8) : Option (Nat × List UInt8) := clauses.findSome? fun clause => clause.read data

end Burble.Bridges.MumbleVarint

namespace Burble.Bridges.MumbleVarint
variable {clause : Clause} {value : Nat}

theorem byte_toNat (number : Nat) : number.toUInt8.toNat = number % 256 := UInt8.toNat_ofNat

theorem and_toUInt8 (number : Nat) : (number &&& 0xFF).toUInt8 = number.toUInt8 := by
  apply UInt8.toNat_inj.mp
  rw [byte_toNat, byte_toNat, Nat.and_two_pow_sub_one_eq_mod number 8, Nat.mod_mod]

namespace Clause

/-- The byte begins with the bits of the tag. -/
def Leads (clause : Clause) (first : UInt8) : Prop := first.toNat >>> (8 - clause.tagBits) = clause.tag

theorem read_of_not_leads {first : UInt8} {data : List UInt8} (other : ¬ clause.Leads first) :
    clause.read (first :: data) = none :=
  if_neg fun both => other both.1

/-- The tag of the first clause does not begin that of the other. -/
def Apart (clause other : Clause) : Prop :=
  clause.tagBits ≤ other.tagBits ∧ other.tag >>> (other.tagBits - clause.tagBits) ≠ clause.tag

instance (clause other : Clause) : Decidable (clause.Apart other) := inferInstanceAs (Decidable (_ ∧ _))

theorem Apart.not_leads {other : Clause} {first : UInt8} (apart : clause.Apart other) (leads : other.Leads first) :
    ¬ clause.Leads first := by
  intro both
  have shorter := apart.1
  have short := other.short
  have later : 8 - clause.tagBits = (8 - other.tagBits) + (other.tagBits - clause.tagBits) := by omega
  unfold Leads at leads both
  rw [later, Nat.shiftRight_add, leads] at both
  exact apart.2 both

/-- The bits that a clause has for a value. -/
def Fits (clause : Clause) (value : Nat) : Prop := value < 2 ^ (8 - clause.tagBits) * 256 ^ clause.bytes

instance (clause : Clause) (value : Nat) : Decidable (clause.Fits value) := inferInstanceAs (Decidable (_ < _))

/-- A value as a clause takes it apart. -/
def first (clause : Clause) (value : Nat) : UInt8 :=
  (value >>> (8 * clause.bytes) ||| clause.tag <<< (8 - clause.tagBits)).toUInt8

def laid (clause : Clause) (value : Nat) : List UInt8 := clause.first value :: bigEndian clause.bytes value

theorem Fits.high (fits : clause.Fits value) : value / 256 ^ clause.bytes < 2 ^ (8 - clause.tagBits) :=
  Nat.div_lt_of_lt_mul (by rwa [Nat.mul_comm])

theorem Fits.first_toNat (fits : clause.Fits value) :
    (clause.first value).toNat = 2 ^ (8 - clause.tagBits) * clause.tag + value / 256 ^ clause.bytes := by
  have high := fits.high
  have byte : 2 ^ (8 - clause.tagBits) * clause.tag + value / 256 ^ clause.bytes < 256 :=
    calc 2 ^ (8 - clause.tagBits) * clause.tag + value / 256 ^ clause.bytes < 2 ^ (8 - clause.tagBits) * (clause.tag + 1) := by
          rw [Nat.mul_succ]
          omega
      _ ≤ 2 ^ (8 - clause.tagBits) * 2 ^ clause.tagBits := Nat.mul_le_mul_left _ clause.small
      _ = 2 ^ 8 := by rw [← pow_add, Nat.sub_add_cancel clause.short]
  rw [first, byte_toNat, Nat.shiftRight_eq_div_pow, Nat.pow_mul, Nat.or_comm, ← Nat.shiftLeft_add_eq_or_of_lt high,
    Nat.shiftLeft_eq, Nat.mul_comm clause.tag]
  exact Nat.mod_eq_of_lt byte

theorem Fits.leads (fits : clause.Fits value) : clause.Leads (clause.first value) := by
  rw [Leads, fits.first_toNat, Nat.shiftRight_eq_div_pow, Nat.mul_add_div (Nat.two_pow_pos _), Nat.div_eq_of_lt fits.high,
    Nat.add_zero]

/-- A clause reads the values that are laid out for it. -/
theorem Fits.read_laid (fits : clause.Fits value) (rest : List UInt8) :
    clause.read (clause.laid value ++ rest) = some (value, rest) := by
  have low : ofBigEndian (bigEndian clause.bytes value) = value % 256 ^ clause.bytes := by
    rw [ofBigEndian, bigEndian, List.reverse_reverse, ofLittleEndian_littleEndian]
  have small : value % 256 ^ clause.bytes < 2 ^ (8 * clause.bytes) := by
    rw [Nat.pow_mul]
    exact Nat.mod_lt _ (Nat.pow_pos (by decide))
  have enough : clause.bytes ≤ (bigEndian clause.bytes value ++ rest).length := by
    rw [List.length_append, bigEndian_length]
    exact Nat.le_add_right _ _
  rw [laid, List.cons_append, read, if_pos ⟨fits.leads, enough⟩]
  dsimp only
  rw [List.take_left' (bigEndian_length _ _), List.drop_left' (bigEndian_length _ _), fits.first_toNat, Nat.mul_add_mod,
    Nat.mod_eq_of_lt fits.high, low, ← Nat.shiftLeft_add_eq_or_of_lt small, Nat.shiftLeft_eq, Nat.pow_mul,
    show (2 ^ 8 : Nat) = 256 from rfl, Nat.div_add_mod']

end Clause

theorem clauses_apart : clauses.Pairwise Clause.Apart := by decide

/-- What is laid out for one of the clauses is read by it, as no earlier one has a tag that fits. -/
theorem decode_laid (known : clause ∈ clauses) (fits : clause.Fits value) (rest : List UInt8) :
    decode (clause.laid value ++ rest) = some (value, rest) := by
  obtain ⟨before, after, split⟩ := List.append_of_mem known
  refine List.findSome?_eq_some_iff.mpr ⟨before, clause, after, split, fits.read_laid rest, fun earlier member => ?_⟩
  have apart : earlier.Apart clause := by
    have pairwise := clauses_apart
    rw [split, List.pairwise_append] at pairwise
    exact pairwise.2.2 earlier member clause List.mem_cons_self
  exact Clause.read_of_not_leads (apart.not_leads fits.leads)

/-- Every encoding is laid out for one of the clauses. -/
theorem encode_laid (fits : value < 2 ^ 64) :
    ∃ clause ∈ clauses, clause.Fits value ∧ encode value = some (clause.laid value) := by
  have middle : (value >>> 8 &&& 0xFF).toUInt8 = (value / 256).toUInt8 := by
    rw [and_toUInt8, Nat.shiftRight_eq_div_pow]
  have upper : (value >>> 16 &&& 0xFF).toUInt8 = (value / 256 / 256).toUInt8 := by
    rw [and_toUInt8, Nat.shiftRight_eq_div_pow, Nat.div_div_eq_div_mul]
  have none (bytes : Nat) (below : value < 2 ^ (8 * bytes)) (tag : Nat) : (value >>> (8 * bytes) ||| tag).toUInt8 = tag.toUInt8 := by
    rw [Nat.shiftRight_eq_div_pow, Nat.div_eq_of_lt below, Nat.zero_or]
  unfold encode
  split_ifs with one two three four five six
  · refine ⟨_, .head _, one, ?_⟩
    rw [Clause.laid, Clause.first]
    exact congrArg (fun byte : UInt8 => some [byte]) (congrArg Nat.toUInt8 (Nat.or_zero value).symm)
  · refine ⟨_, .tail _ (.head _), two, ?_⟩
    rw [and_toUInt8]
    rfl
  · refine ⟨_, .tail _ (.tail _ (.head _)), three, ?_⟩
    rw [middle, and_toUInt8]
    rfl
  · refine ⟨_, .tail _ (.tail _ (.tail _ (.head _))), four, ?_⟩
    rw [middle, upper, and_toUInt8]
    rfl
  · refine ⟨_, .tail _ (.tail _ (.tail _ (.tail _ (.head _)))), five, ?_⟩
    rw [Clause.laid, Clause.first]
    dsimp only
    rw [none 4 five]
    rfl
  · have below : value < 2 ^ (8 * 8) := fits
    refine ⟨_, .tail _ (.tail _ (.tail _ (.tail _ (.tail _ (.head _))))), below, ?_⟩
    rw [Clause.laid, Clause.first]
    dsimp only
    rw [none 8 below]
    rfl
  · exact absurd fits (by omega)

theorem lt_of_encode {bytes : List UInt8} (encoded : encode value = some bytes) : value < 2 ^ 64 := by
  by_contra large
  have long : 2 ^ 64 ≤ value := Nat.not_lt.mp large
  rw [encode, if_neg (by omega), if_neg (by omega), if_neg (by omega), if_neg (by omega), if_neg (by omega),
    if_neg (by omega)] at encoded
  cases encoded

theorem decode_encode {bytes : List UInt8} (encoded : encode value = some bytes) (rest : List UInt8) :
    decode (bytes ++ rest) = some (value, rest) := by
  obtain ⟨clause, known, fits, laid⟩ := encode_laid (lt_of_encode encoded)
  cases encoded.symm.trans laid
  exact decode_laid known fits rest

/-- A value of 64 bits is read back whatever follows it, and its encoding begins that of no other. -/
theorem mumble_varint_round_trips (value : Nat) (fits : value < 2 ^ 64) :
    ∃ bytes, encode value = some bytes ∧ (∀ rest, decode (bytes ++ rest) = some (value, rest)) ∧
      ∀ other longer, encode other = some longer → bytes <+: longer → bytes = longer := by
  obtain ⟨clause, known, inside, laid⟩ := encode_laid fits
  refine ⟨_, laid, decode_laid known inside, fun other longer encoded begins => ?_⟩
  obtain ⟨rest, rfl⟩ := begins
  have whole := decode_encode encoded []
  rw [List.append_nil, decode_laid known inside rest, Option.some.injEq, Prod.mk.injEq] at whole
  rw [whole.2, List.append_nil]

theorem mumble_varint_round_trips_boundary : 0x4000 < 2 ^ 64 ∧ ∃ bytes, encode 0x4000 = some bytes ∧
    (∀ rest, decode (bytes ++ rest) = some (0x4000, rest)) ∧
      ∀ other longer, encode other = some longer → bytes <+: longer → bytes = longer :=
  ⟨by decide, mumble_varint_round_trips 0x4000 (by decide)⟩

end Burble.Bridges.MumbleVarint
