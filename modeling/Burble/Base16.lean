import Mathlib.Data.List.GetD

namespace Burble.Base16

def alphabet : List Char := "0123456789abcdef".toList

def digit (value : Nat) : Char := alphabet.getD value '0'

def digitValue (char : Char) : Option Nat :=
  if char ∈ alphabet then some (alphabet.idxOf char) else none

def digits (bytes : List UInt8) : List Char :=
  bytes.flatMap fun byte => [digit (byte.toNat / 16), digit (byte.toNat % 16)]

/-- `Base.encode16(bytes, case: :lower)`. -/
def encode16 (bytes : List UInt8) : String := String.ofList (digits bytes)

def ofDigits : List Char → Option (List UInt8)
  | [] => some []
  | high :: low :: rest => do
    let high ← digitValue high
    let low ← digitValue low
    let rest ← ofDigits rest
    some ((high * 16 + low).toUInt8 :: rest)
  | [_] => none

/-- `Base.decode16!(text, case: :lower)`, or nothing where it raises. -/
def decode16 (text : String) : Option (List UInt8) := ofDigits text.toList

theorem digitValue_digit {value : Nat} (small : value < 16) : digitValue (digit value) = some value := by
  have all : ∀ value : Fin 16, digitValue (digit value) = some value.val := by decide
  exact all ⟨value, small⟩

theorem ofDigits_digits (bytes : List UInt8) : ofDigits (digits bytes) = some bytes := by
  induction bytes with
  | nil => rfl
  | cons byte rest ih =>
    have small : byte.toNat < 256 := byte.toNat_lt
    have whole : (byte.toNat / 16 * 16 + byte.toNat % 16).toUInt8 = byte := by
      rw [Nat.div_add_mod', Nat.toUInt8, UInt8.ofNat_toNat]
    show ofDigits (digit (byte.toNat / 16) :: digit (byte.toNat % 16) :: digits rest) = _
    simp only [ofDigits, digitValue_digit (show byte.toNat / 16 < 16 by omega),
      digitValue_digit (Nat.mod_lt byte.toNat (by omega)), ih, whole, Option.bind_eq_bind, Option.bind_some]

theorem decode16_encode16 (bytes : List UInt8) : decode16 (encode16 bytes) = some bytes := by
  rw [decode16, encode16, String.toList_ofList, ofDigits_digits]

theorem encode16_injective : Function.Injective encode16 := by
  intro one other same
  have read := decode16_encode16 other
  rw [← same, decode16_encode16] at read
  exact Option.some.inj read

/-- No encoded text holds a character outside the alphabet. -/
theorem encode16_free {char : Char} (outside : char ∉ alphabet) (bytes : List UInt8) :
    char ∉ (encode16 bytes).toList := by
  have among (value : Nat) : digit value ∈ alphabet := by
    unfold digit
    by_cases inside : value < alphabet.length
    · rw [List.getD_eq_getElem _ _ inside]
      exact List.getElem_mem inside
    · rw [List.getD_eq_default _ _ (Nat.not_lt.mp inside)]
      decide
  intro member
  rw [encode16, String.toList_ofList] at member
  obtain ⟨byte, _, found⟩ := List.mem_flatMap.mp member
  simp only [List.mem_cons, List.not_mem_nil, or_false] at found
  rcases found with rfl | rfl
  · exact outside (among _)
  · exact outside (among _)

end Burble.Base16
