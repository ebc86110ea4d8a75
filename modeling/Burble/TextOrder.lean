import Mathlib.Data.List.Lex
import Mathlib.Data.Nat.Init
import Mathlib.Order.Basic
import Burble.Bytes

namespace Burble

/-- The UTF-16 code units of one character. -/
def utf16Units (c : Char) : List Nat :=
  if c.toNat < 0x10000 then [c.toNat]
  else [0xD800 + (c.toNat - 0x10000) / 0x400, 0xDC00 + (c.toNat - 0x10000) % 0x400]

/-- UTF-16 code units, the order in which JavaScript compares strings. -/
def utf16 (text : String) : List Nat := text.toList.flatMap utf16Units

/-- No character is a surrogate, so a code unit says how the sequence goes on. -/
theorem utf16Units_append_inj {c d : Char} {xs ys : List Nat}
    (same : utf16Units c ++ xs = utf16Units d ++ ys) : c = d ∧ xs = ys := by
  have small (c : Char) : c.toNat < 0xD800 ∨ 0xDFFF < c.toNat ∧ c.toNat < 0x110000 := c.valid
  have left := small c
  have right := small d
  unfold utf16Units at same
  split at same <;> split at same
  · obtain ⟨head, rest⟩ := List.cons.inj same
    exact ⟨Char.toNat_inj.mp head, rest⟩
  · obtain ⟨head, -⟩ := List.cons.inj same
    omega
  · obtain ⟨head, -⟩ := List.cons.inj same
    omega
  · obtain ⟨high, rest⟩ := List.cons.inj same
    obtain ⟨low, rest⟩ := List.cons.inj rest
    have point : c.toNat = d.toNat := by omega
    exact ⟨Char.toNat_inj.mp point, rest⟩

theorem utf16_injective : Function.Injective utf16 := by
  have chars : ∀ xs ys : List Char, xs.flatMap utf16Units = ys.flatMap utf16Units → xs = ys := by
    have nonempty (c : Char) (rest : List Nat) : utf16Units c ++ rest ≠ [] := by
      unfold utf16Units
      split <;> simp
    intro xs
    induction xs with
    | nil =>
      rintro (_ | ⟨y, ys⟩) same
      · rfl
      · exact absurd same.symm (nonempty y _)
    | cons x xs ih =>
      rintro (_ | ⟨y, ys⟩) same
      · exact absurd same (nonempty x _)
      · obtain ⟨rfl, rest⟩ := utf16Units_append_inj same
        rw [ih ys rest]
  intro one other same
  exact String.toList_inj.mp (chars _ _ same)

section Utf8
variable {front text : String} {rest : List UInt8}

theorem utf8_eq_flatMap (text : String) : utf8 text = text.toList.flatMap String.utf8EncodeChar := by
  rw [utf8, String.toUTF8_eq_toByteArray, ← String.utf8Encode_toList, List.utf8Encode]
  exact List.data_toByteArray ▸ rfl

theorem utf8_append (one other : String) : utf8 (one ++ other) = utf8 one ++ utf8 other := by
  rw [utf8_eq_flatMap, utf8_eq_flatMap, utf8_eq_flatMap, String.toList_append, List.flatMap_append]

/-- Bytes that begin with those of a text are the bytes of a text that begins with it. -/
theorem utf8_prefix (begins : utf8 text = utf8 front ++ rest) : ∃ back : String, text = front ++ back ∧ utf8 back = rest := by
  have whole : front.toList.utf8Encode ++ rest.toByteArray = text.toList.utf8Encode := by
    rw [utf8_eq_flatMap, utf8_eq_flatMap] at begins
    rw [List.utf8Encode, List.utf8Encode, begins, List.toByteArray_append]
  obtain ⟨back, joined⟩ := List.isPrefix_of_utf8Encode_append_eq_utf8Encode _ whole
  have same : text = front ++ String.ofList back := by
    rw [← String.toList_inj, String.toList_append, String.toList_ofList, joined]
  refine ⟨String.ofList back, same, ?_⟩
  rw [same, utf8_append] at begins
  exact List.append_cancel_left begins

end Utf8

/-! Texts are ordered by their characters, or by the codes of these. -/

/-- Two lists of characters differ first at two characters. -/
def DifferAt (c d : Char) (one other : List Char) : Prop :=
  c ≠ d ∧ ∃ front xs ys, one = front ++ c :: xs ∧ other = front ++ d :: ys

/-- The order that a code of characters gives to texts. -/
def codeLt (code : Char → List Nat) (one other : List Char) : Prop := one.flatMap code < other.flatMap code

/-- Codes of different characters are told apart whatever follows them. -/
structure Coded (code : Char → List Nat) (before : Char → Char → Prop) : Prop where
  filled : ∀ c, code c ≠ []
  apart : ∀ {c d : Char}, c ≠ d → ∀ xs ys, code c ++ xs < code d ++ ys ↔ before c d

section Codes
variable {code : Char → List Nat} {before : Char → Char → Prop} {one other : List Char} {c d : Char}

/-- Two lists of characters are equal, one begins with the other, or they differ at a place. -/
theorem differ_cases (one other : List Char) : one = other ∨ (∃ c xs, other = one ++ c :: xs) ∨
    (∃ c xs, one = other ++ c :: xs) ∨ ∃ c d, DifferAt c d one other := by
  induction one generalizing other with
  | nil =>
    cases other with
    | nil => exact .inl rfl
    | cons d ys => exact .inr (.inl ⟨d, ys, rfl⟩)
  | cons c xs ih =>
    cases other with
    | nil => exact .inr (.inr (.inl ⟨c, xs, rfl⟩))
    | cons d ys =>
      by_cases same : c = d
      · subst same
        rcases ih ys with rfl | ⟨e, zs, rfl⟩ | ⟨e, zs, rfl⟩ | ⟨e, f, apart, front, us, vs, rfl, rfl⟩
        · exact .inl rfl
        · exact .inr (.inl ⟨e, zs, rfl⟩)
        · exact .inr (.inr (.inl ⟨e, zs, rfl⟩))
        · exact .inr (.inr (.inr ⟨e, f, apart, c :: front, us, vs, rfl, rfl⟩))
      · exact .inr (.inr (.inr ⟨c, d, same, [], xs, ys, rfl, rfl⟩))

theorem DifferAt.symm {xs ys : List Char} (differ : DifferAt c d xs ys) : DifferAt d c ys xs :=
  let ⟨apart, front, back, back', first, second⟩ := differ
  ⟨apart.symm, front, back', back, second, first⟩

/-- Lists differ first at one place. -/
theorem DifferAt.unique {xs ys : List Char} {e f : Char} (differ : DifferAt c d xs ys) (differ' : DifferAt e f xs ys) :
    c = e ∧ d = f := by
  obtain ⟨apart, front, us, vs, rfl, rfl⟩ := differ
  obtain ⟨apart', front', us', vs', first, second⟩ := differ'
  induction front generalizing front' with
  | nil =>
    cases front' with
    | nil => exact ⟨(List.cons.inj first).1, (List.cons.inj second).1⟩
    | cons g rest => exact absurd ((List.cons.inj first).1.trans (List.cons.inj second).1.symm) apart
  | cons g rest ih =>
    cases front' with
    | nil => exact absurd ((List.cons.inj first).1.symm.trans (List.cons.inj second).1) apart'
    | cons h rest' => exact ih rest' (List.cons.inj first).2 (List.cons.inj second).2

theorem DifferAt.not_initial {xs rest : List Char} (differ : DifferAt c d xs (xs ++ rest)) : False := by
  obtain ⟨apart, front, us, vs, rfl, second⟩ := differ
  rw [List.append_assoc] at second
  exact apart (List.cons.inj (List.append_cancel_left second)).1

theorem append_lt_append_iff (front xs ys : List Nat) : front ++ xs < front ++ ys ↔ xs < ys := by
  induction front with
  | nil => rfl
  | cons unit rest ih => simpa only [List.cons_append, List.cons_lt_cons_iff, lt_irrefl, false_or, true_and] using ih

theorem Coded.lt_of_prefix (coded : Coded code before) (one : List Char) (c : Char) (xs : List Char) :
    codeLt code one (one ++ c :: xs) := by
  have shorter : one.flatMap code ++ [] < one.flatMap code ++ (code c ++ xs.flatMap code) := by
    rw [append_lt_append_iff]
    obtain ⟨unit, rest, units⟩ := List.exists_cons_of_ne_nil (coded.filled c)
    rw [units]
    exact List.nil_lt_cons _ _
  rw [List.append_nil] at shorter
  rwa [codeLt, List.flatMap_append, List.flatMap_cons]

theorem Coded.lt_of_differ (coded : Coded code before) (differ : DifferAt c d one other) : codeLt code one other ↔ before c d := by
  obtain ⟨apart, front, xs, ys, rfl, rfl⟩ := differ
  rw [codeLt, List.flatMap_append, List.flatMap_append, append_lt_append_iff, List.flatMap_cons, List.flatMap_cons]
  exact coded.apart apart _ _

end Codes

/-- The UTF-8 bytes of one character, as numbers. -/
def utf8Units (c : Char) : List Nat := (String.utf8EncodeChar c).map UInt8.toNat

/-- A character outside the basic plane comes before the last ones in it, by UTF-16 code units. -/
def Outranked (c d : Char) : Prop := 0x10000 ≤ c.toNat ∧ 0xE000 ≤ d.toNat ∧ d.toNat < 0x10000

theorem utf8Units_eq (c : Char) : utf8Units c =
    if c.toNat ≤ 0x7f then [c.toNat]
    else if c.toNat ≤ 0x7ff then [c.toNat / 64 + 0xc0, c.toNat % 64 + 0x80]
    else if c.toNat ≤ 0xffff then [c.toNat / 4096 + 0xe0, c.toNat / 64 % 64 + 0x80, c.toNat % 64 + 0x80]
    else [c.toNat / 262144 + 0xf0, c.toNat / 4096 % 64 + 0x80, c.toNat / 64 % 64 + 0x80, c.toNat % 64 + 0x80] := by
  have plane : c.toNat < 0xD800 ∨ 0xDFFF < c.toNat ∧ c.toNat < 0x110000 := c.valid
  have value : c.val.toNat = c.toNat := rfl
  have byte (n : Nat) : (UInt8.ofNat n).toNat = n % 256 := UInt8.toNat_ofNat
  unfold utf8Units String.utf8EncodeChar
  rw [value]
  by_cases one : c.toNat ≤ 0x7f
  · simp only [if_pos one, List.map_cons, List.map_nil, byte, List.cons.injEq, and_true]
    omega
  by_cases two : c.toNat ≤ 0x7ff
  · simp only [if_neg one, if_pos two, List.map_cons, List.map_nil, byte, List.cons.injEq, and_true]
    omega
  by_cases three : c.toNat ≤ 0xffff
  · simp only [if_neg one, if_neg two, if_pos three, List.map_cons, List.map_nil, byte, List.cons.injEq, and_true]
    omega
  · simp only [if_neg one, if_neg two, if_neg three, List.map_cons, List.map_nil, byte, List.cons.injEq, and_true]
    omega

theorem utf8Units_coded : Coded utf8Units fun c d => c.toNat < d.toNat where
  filled c := by
    rw [utf8Units_eq]
    split
    · exact List.cons_ne_nil _ _
    · split
      · exact List.cons_ne_nil _ _
      · split <;> exact List.cons_ne_nil _ _
  apart {c d} different xs ys := by
    have apart : c.toNat ≠ d.toNat := fun same => different (Char.toNat_inj.mp same)
    have plane (c : Char) : c.toNat < 0xD800 ∨ 0xDFFF < c.toNat ∧ c.toNat < 0x110000 := c.valid
    have left := plane c
    have right := plane d
    rw [utf8Units_eq, utf8Units_eq]
    split_ifs <;> simp only [List.cons_append, List.nil_append, List.cons_lt_cons_iff] <;> omega

theorem utf16Units_coded : Coded utf16Units fun c d => Outranked c d ∨ c.toNat < d.toNat ∧ ¬ Outranked d c where
  filled c := by
    unfold utf16Units
    split <;> exact List.cons_ne_nil _ _
  apart {c d} different xs ys := by
    have apart : c.toNat ≠ d.toNat := fun same => different (Char.toNat_inj.mp same)
    have plane (c : Char) : c.toNat < 0xD800 ∨ 0xDFFF < c.toNat ∧ c.toNat < 0x110000 := c.valid
    have left := plane c
    have right := plane d
    unfold utf16Units Outranked
    split <;> split <;> simp only [List.cons_append, List.nil_append, List.cons_lt_cons_iff] <;> omega

end Burble
