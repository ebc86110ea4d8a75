import Mathlib.Data.List.GetD
import Mathlib.Data.List.Nodup
import Burble.TextOrder

namespace Burble.Base64

/-- The URL-safe alphabet, in the order of the values it stands for. -/
def alphabet : List Char := "ABCDEFGHIJKLMNOPQRSTUVWXYZabcdefghijklmnopqrstuvwxyz0123456789-_".toList

def letter (sextet : Nat) : Char := alphabet.getD sextet 'A'

/-- Three bytes at a time as four letters, without padding. -/
def letters : List UInt8 → List Char
  | first :: second :: third :: rest =>
    letter (first.toNat / 4) :: letter (first.toNat % 4 * 16 + second.toNat / 16) ::
      letter (second.toNat % 16 * 4 + third.toNat / 64) :: letter (third.toNat % 64) :: letters rest
  | [first, second] =>
    [letter (first.toNat / 4), letter (first.toNat % 4 * 16 + second.toNat / 16), letter (second.toNat % 16 * 4)]
  | [first] => [letter (first.toNat / 4), letter (first.toNat % 4 * 16)]
  | [] => []

/-- `Base.url_encode64(bytes, padding: false)`. -/
def urlEncode64 (bytes : List UInt8) : String := String.ofList (letters bytes)

example : urlEncode64 [77, 97, 110, 251] = "TWFu-w" := by decide

theorem letter_mem (sextet : Nat) : letter sextet ∈ alphabet := by
  unfold letter
  by_cases inside : sextet < alphabet.length
  · rw [List.getD_eq_getElem _ _ inside]
    exact List.getElem_mem inside
  · rw [List.getD_eq_default _ _ (Nat.not_lt.mp inside)]
    decide

theorem letters_mem {bytes : List UInt8} {char : Char} (member : char ∈ letters bytes) : char ∈ alphabet := by
  induction bytes using letters.induct with
  | case1 first second third rest ih =>
    simp only [letters, List.mem_cons] at member
    rcases member with rfl | rfl | rfl | rfl | later
    · exact letter_mem _
    · exact letter_mem _
    · exact letter_mem _
    · exact letter_mem _
    · exact ih later
  | case2 first second =>
    simp only [letters, List.mem_cons, List.not_mem_nil, or_false] at member
    rcases member with rfl | rfl | rfl <;> exact letter_mem _
  | case3 first =>
    simp only [letters, List.mem_cons, List.not_mem_nil, or_false] at member
    rcases member with rfl | rfl <;> exact letter_mem _
  | case4 => simp [letters] at member

/-- No encoded text holds a character outside the alphabet. -/
theorem urlEncode64_free {char : Char} (outside : char ∉ alphabet) (bytes : List UInt8) :
    char ∉ (urlEncode64 bytes).toList := by
  intro member
  rw [urlEncode64, String.toList_ofList] at member
  exact outside (letters_mem member)

/-! The usual alphabet, with padding. -/

def standard (char : Char) : Char := if char = '-' then '+' else if char = '_' then '/' else char

/-- `Base.encode64(bytes)`. -/
def encode64 (bytes : List UInt8) : String :=
  String.ofList ((letters bytes).map standard ++ List.replicate ((3 - bytes.length % 3) % 3) '=')

example : encode64 [77, 97, 110, 251] = "TWFu+w==" := by decide

theorem standard_inj {char other : Char} (member : char ∈ alphabet) (member' : other ∈ alphabet)
    (same : standard char = standard other) : char = other := by
  have plus : '+' ∉ alphabet := by decide +kernel
  have slash : '/' ∉ alphabet := by decide +kernel
  have apart : '+' ≠ '/' := by decide
  unfold standard at same
  split at same
  next isDash =>
    split at same
    next isDash' => exact isDash.trans isDash'.symm
    next =>
      split at same
      · exact absurd same apart
      · exact absurd (same ▸ member') plus
  next =>
    split at same
    next isLow =>
      split at same
      · exact absurd same.symm apart
      · split at same
        next isLow' => exact isLow.trans isLow'.symm
        next => exact absurd (same ▸ member') slash
    next =>
      split at same
      · exact absurd (same ▸ member) plus
      · split at same
        · exact absurd (same ▸ member) slash
        · exact same

theorem letter_inj {sextet other : Nat} (small : sextet < 64) (small' : other < 64) (same : letter sextet = letter other) :
    sextet = other := by
  have distinct : alphabet.Nodup := by decide +kernel
  have long : alphabet.length = 64 := by decide +kernel
  rw [letter, letter, List.getD_eq_getElem _ _ (long ▸ small), List.getD_eq_getElem _ _ (long ▸ small')] at same
  exact (List.Nodup.getElem_inj_iff distinct).mp same

theorem byte_eq {byte other : UInt8} (same : byte.toNat = other.toNat) : byte = other := UInt8.toNat_inj.mp same

/-- Different bytes have different letters. -/
theorem letters_injective : Function.Injective letters := by
  have small (byte : UInt8) : byte.toNat < 256 := byte.toNat_lt
  intro bytes
  induction bytes using letters.induct with
  | case1 first second third rest ih =>
    rintro (_ | ⟨one, _ | ⟨two, _ | ⟨three, others⟩⟩⟩) same
    all_goals simp only [letters, List.cons.injEq, reduceCtorEq, and_false] at same
    obtain ⟨high, middle, low, last, later⟩ := same
    have lt := small first; have lt' := small second; have lt'' := small third
    have lu := small one; have lu' := small two; have lu'' := small three
    have a := letter_inj (by omega) (by omega) high
    have b := letter_inj (by omega) (by omega) middle
    have c := letter_inj (by omega) (by omega) low
    have d := letter_inj (by omega) (by omega) last
    rw [byte_eq (by omega : first.toNat = one.toNat), byte_eq (by omega : second.toNat = two.toNat),
      byte_eq (by omega : third.toNat = three.toNat), ih later]
  | case2 first second =>
    rintro (_ | ⟨one, _ | ⟨two, _ | ⟨three, others⟩⟩⟩) same
    all_goals simp only [letters, List.cons.injEq, reduceCtorEq, and_false, and_true] at same
    obtain ⟨high, middle, low⟩ := same
    have lt := small first; have lt' := small second
    have lu := small one; have lu' := small two
    have a := letter_inj (by omega) (by omega) high
    have b := letter_inj (by omega) (by omega) middle
    have c := letter_inj (by omega) (by omega) low
    rw [byte_eq (by omega : first.toNat = one.toNat), byte_eq (by omega : second.toNat = two.toNat)]
  | case3 first =>
    rintro (_ | ⟨one, _ | ⟨two, _ | ⟨three, others⟩⟩⟩) same
    all_goals simp only [letters, List.cons.injEq, reduceCtorEq, and_false, and_true] at same
    obtain ⟨high, middle⟩ := same
    have lt := small first
    have lu := small one
    have a := letter_inj (by omega) (by omega) high
    have b := letter_inj (by omega) (by omega) middle
    rw [byte_eq (by omega : first.toNat = one.toNat)]
  | case4 =>
    rintro (_ | ⟨one, _ | ⟨two, _ | ⟨three, others⟩⟩⟩) same
    · rfl
    all_goals simp only [letters, reduceCtorEq] at same

theorem map_standard_inj {chars others : List Char} (each : ∀ char ∈ chars, char ∈ alphabet)
    (each' : ∀ char ∈ others, char ∈ alphabet) (same : chars.map standard = others.map standard) : chars = others := by
  induction chars generalizing others with
  | nil => exact (List.map_eq_nil_iff.mp same.symm).symm
  | cons char rest ih =>
    cases others with
    | nil => cases same
    | cons other later =>
      obtain ⟨heads, tails⟩ := List.cons.inj same
      rw [standard_inj (each char List.mem_cons_self) (each' other List.mem_cons_self) heads,
        ih (fun char member => each char (List.mem_cons_of_mem _ member))
          (fun char member => each' char (List.mem_cons_of_mem _ member)) tails]

/-- Bytes of one length have different texts. -/
theorem encode64_inj {bytes other : List UInt8} (long : bytes.length = other.length) (same : encode64 bytes = encode64 other) :
    bytes = other := by
  have texts := congrArg String.toList same
  rw [encode64, encode64, String.toList_ofList, String.toList_ofList, long] at texts
  exact letters_injective
    (map_standard_inj (fun _ => letters_mem) (fun _ => letters_mem) (List.append_cancel_right texts))

/-- No text holds a character that is in neither the alphabet nor the padding. -/
theorem encode64_free {char : Char} (outside : char ∉ '=' :: alphabet.map standard) (bytes : List UInt8) :
    char ∉ (encode64 bytes).toList := by
  rw [encode64, String.toList_ofList, List.mem_append]
  rintro (letter | padding)
  · obtain ⟨found, member, rfl⟩ := List.mem_map.mp letter
    exact outside (List.mem_cons_of_mem _ (List.mem_map_of_mem (letters_mem member)))
  · exact outside (List.eq_of_mem_replicate padding ▸ List.mem_cons_self)

end Burble.Base64

namespace Burble.Base64

/-- What a byte of a text stands for, if it is a letter of the usual alphabet. -/
def sextet (byte : UInt8) : Option Nat :=
  if 65 ≤ byte ∧ byte ≤ 90 then some (byte.toNat - 65)
  else if 97 ≤ byte ∧ byte ≤ 122 then some (byte.toNat - 71)
  else if 48 ≤ byte ∧ byte ≤ 57 then some (byte.toNat + 4)
  else if byte = 43 then some 62
  else if byte = 47 then some 63
  else none

/-- `Base.decode64(text)`: groups of four letters, of which the last one may be padded. -/
def decode64 : List UInt8 → Option (List UInt8)
  | [] => some []
  | first :: second :: third :: fourth :: rest =>
    if rest = [] ∧ fourth = 61 then
      if third = 61 then do
        let one ← sextet first
        let two ← sextet second
        return [(one * 4 + two / 16).toUInt8]
      else do
        let one ← sextet first
        let two ← sextet second
        let three ← sextet third
        return [(one * 4 + two / 16).toUInt8, (two % 16 * 16 + three / 4).toUInt8]
    else do
      let one ← sextet first
      let two ← sextet second
      let three ← sextet third
      let four ← sextet fourth
      let later ← decode64 rest
      return (one * 4 + two / 16).toUInt8 :: (two % 16 * 16 + three / 4).toUInt8 :: (three % 4 * 64 + four).toUInt8 :: later
  | _ => none

example : decode64 (utf8 "TWFu+w==") = some [77, 97, 110, 251] := by decide

def letterByte (number : Nat) : UInt8 := (standard (letter number)).toNat.toUInt8

theorem utf8EncodeChar_letter : ∀ number < 64, String.utf8EncodeChar (standard (letter number)) = [letterByte number] := by
  decide +kernel

theorem sextet_letterByte : ∀ number < 64, sextet (letterByte number) = some number := by decide +kernel

theorem letterByte_ne : ∀ number < 64, letterByte number ≠ 61 := by decide +kernel

theorem utf8EncodeChar_pad (count : Nat) : (List.replicate count '=').flatMap String.utf8EncodeChar = List.replicate count 61 := by
  induction count with
  | zero => rfl
  | succ count ih =>
    rw [List.replicate_succ, List.flatMap_cons, ih, show String.utf8EncodeChar '=' = [61] by decide]
    rfl

theorem byte_of_toNat {byte : UInt8} {number : Nat} (same : number = byte.toNat) : number.toUInt8 = byte := by
  rw [same]
  exact UInt8.ofNat_toNat

theorem decode64_letters (bytes : List UInt8) :
    decode64 ((letters bytes).flatMap (fun char => String.utf8EncodeChar (standard char)) ++
      List.replicate ((3 - bytes.length % 3) % 3) 61) = some bytes := by
  have small (byte : UInt8) : byte.toNat < 256 := byte.toNat_lt
  induction bytes using letters.induct with
  | case1 first second third rest ih =>
    have lt := small first; have lt' := small second; have lt'' := small third
    have high : first.toNat / 4 < 64 := by omega
    have middle : first.toNat % 4 * 16 + second.toNat / 16 < 64 := by omega
    have low : second.toNat % 16 * 4 + third.toNat / 64 < 64 := by omega
    have last : third.toNat % 64 < 64 := by omega
    have length : (first :: second :: third :: rest).length % 3 = rest.length % 3 := by
      simp only [List.length_cons]
      omega
    simp only [letters, List.flatMap_cons, utf8EncodeChar_letter _ high, utf8EncodeChar_letter _ middle,
      utf8EncodeChar_letter _ low, utf8EncodeChar_letter _ last, List.cons_append, List.nil_append, length]
    rw [decode64, if_neg fun padded => letterByte_ne _ last padded.2, sextet_letterByte _ high, sextet_letterByte _ middle,
      sextet_letterByte _ low, sextet_letterByte _ last, ih]
    simp only [Option.bind_eq_bind, Option.bind_some, pure]
    rw [byte_of_toNat (by omega : _ = first.toNat), byte_of_toNat (by omega : _ = second.toNat),
      byte_of_toNat (by omega : _ = third.toNat)]
  | case2 first second =>
    have lt := small first; have lt' := small second
    have high : first.toNat / 4 < 64 := by omega
    have middle : first.toNat % 4 * 16 + second.toNat / 16 < 64 := by omega
    have low : second.toNat % 16 * 4 < 64 := by omega
    simp only [letters, List.flatMap_cons, List.flatMap_nil, utf8EncodeChar_letter _ high, utf8EncodeChar_letter _ middle,
      utf8EncodeChar_letter _ low, List.cons_append, List.nil_append]
    rw [show List.replicate ((3 - [first, second].length % 3) % 3) (61 : UInt8) = [61] from rfl, decode64, if_pos ⟨rfl, rfl⟩,
      if_neg (letterByte_ne _ low), sextet_letterByte _ high, sextet_letterByte _ middle, sextet_letterByte _ low]
    simp only [Option.bind_eq_bind, Option.bind_some, pure]
    rw [byte_of_toNat (by omega : _ = first.toNat), byte_of_toNat (by omega : _ = second.toNat)]
  | case3 first =>
    have lt := small first
    have high : first.toNat / 4 < 64 := by omega
    have middle : first.toNat % 4 * 16 < 64 := by omega
    simp only [letters, List.flatMap_cons, List.flatMap_nil, utf8EncodeChar_letter _ high, utf8EncodeChar_letter _ middle,
      List.cons_append, List.nil_append]
    rw [show List.replicate ((3 - [first].length % 3) % 3) (61 : UInt8) = [61, 61] from rfl, decode64, if_pos ⟨rfl, rfl⟩,
      if_pos rfl, sextet_letterByte _ high, sextet_letterByte _ middle]
    simp only [Option.bind_eq_bind, Option.bind_some, pure]
    rw [byte_of_toNat (by omega : _ = first.toNat)]
  | case4 => rfl

/-- What is encoded is decoded. -/
theorem decode64_encode64 (bytes : List UInt8) : decode64 (utf8 (encode64 bytes)) = some bytes := by
  rw [utf8_eq_flatMap, encode64, String.toList_ofList, List.flatMap_append, List.flatMap_map, utf8EncodeChar_pad]
  exact decode64_letters bytes

end Burble.Base64
