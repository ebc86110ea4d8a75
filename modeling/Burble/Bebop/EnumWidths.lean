import Mathlib.Logic.Relation
import Burble.Bebop.CodecsFaithful

namespace Burble.Bebop

/-- The bytes of the unsigned types that an enumeration can be declared with. -/
def unsignedWidth (baseType : String) : Option Nat :=
  if baseType = "byte" ∨ baseType = "uint8" then some 1
  else if baseType = "uint16" then some 2
  else if baseType = "uint32" then some 4
  else if baseType = "uint64" then some 8
  else none

/-- How wide a schema declares an enumeration to be. -/
def Ast.enumWidth (ast : Ast) (type : String) : Option Nat :=
  match (buildTypeMap ast).lookup type with
  | some (.enum _ baseType _) => unsignedWidth baseType
  | _ => none

/-- A type occurs in another one, as itself or in its fields. -/
def Ast.Within (ast : Ast) : String → String → Prop :=
  Relation.ReflTransGen fun outer inner =>
    ∃ fields, ast.shape outer = some (.record fields) ∧ ∃ field ∈ fields, field.1 = inner

/-- The enumerations in some fields are declared to be of one byte. -/
def Ast.ByteEnums (ast : Ast) (fields : List (String × String)) : Prop :=
  ∀ field ∈ fields, ∀ type, ast.Within field.1 type → ∀ variants, ast.shape type = some (.enum variants) →
    ast.enumWidth type = some 1

section Widths
variable {ast : Ast}

theorem unsignedWidth_pos {baseType : String} {width : Nat} (unsigned : unsignedWidth baseType = some width) :
    1 ≤ width := by
  rw [unsignedWidth] at unsigned
  split_ifs at unsigned
  all_goals
    cases unsigned
    decide

theorem enumWidth_pos {type : String} {width : Nat} (declared : ast.enumWidth type = some width) : 1 ≤ width := by
  rw [Ast.enumWidth] at declared
  split at declared
  · exact unsignedWidth_pos declared
  · cases declared

theorem within_primitive {outer inner : String} {primitive : Primitive}
    (shape : ast.shape outer = some (.primitive primitive)) (within : ast.Within outer inner) : inner = outer := by
  rcases Relation.ReflTransGen.cases_head within with same | ⟨next, ⟨fields, record, _⟩, _⟩
  · exact same.symm
  · rw [shape] at record
    cases record

theorem Parts.bytes {written other : String → Term → List UInt8 → Prop} {byte : String → Prop}
    {fields : List (String × String)} {values : List Term} {bytes : List UInt8} (parts : Parts written fields values bytes)
    (each : ∀ type value bytes, written type value bytes →
      ∃ less, other type value less ∧ less.length ≤ bytes.length ∧ (less.length = bytes.length → byte type)) :
    ∃ less, Parts other fields values less ∧ less.length ≤ bytes.length ∧
      (less.length = bytes.length → ∀ field ∈ fields, byte field.1) := by
  induction parts with
  | nil => exact ⟨[], .nil, le_rfl, fun _ field member => absurd member List.not_mem_nil⟩
  | cons wrote _ ih =>
    obtain ⟨first, wrote', fewer, full⟩ := each _ _ _ wrote
    obtain ⟨later, parts', fewer', full'⟩ := ih
    refine ⟨first ++ later, .cons wrote' parts', ?_, fun same => ?_⟩
    · rw [List.length_append, List.length_append]
      exact Nat.add_le_add fewer fewer'
    · rw [List.length_append, List.length_append] at same
      exact List.forall_mem_cons.mpr ⟨full (by omega), full' (by omega)⟩

/-- What is written for a term is shorter than declared, unless all its enumerations are of one byte. -/
theorem written_of_laid {depth : Nat} {type : String} {value : Term} {bytes : List UInt8}
    (laid : Laid ast ast.enumWidth depth type value bytes) :
    ∃ written, Written ast depth type value written ∧ written.length ≤ bytes.length ∧ (written.length = bytes.length →
      ∀ inner, ast.Within type inner → ∀ variants, ast.shape inner = some (.enum variants) →
        ast.enumWidth inner = some 1) := by
  induction depth generalizing type value bytes with
  | zero => exact laid.elim
  | succ depth ih =>
    simp only [Laid] at laid
    simp only [Written]
    cases shape : ast.shape type with
    | none => rw [shape] at laid; exact laid.elim
    | some found =>
      rw [shape] at laid
      cases found with
      | primitive primitive =>
        refine ⟨bytes, laid, le_rfl, fun _ inner within variants enum => ?_⟩
        rw [within_primitive shape within, shape] at enum
        cases enum
      | enum variants =>
        obtain ⟨wide, declared, variant, member, rfl, fits, rfl⟩ := laid
        refine ⟨_, ⟨variant, member, rfl, rfl⟩, ?_, fun same inner within others enum => ?_⟩
        · rw [littleEndian_length, littleEndian_length]
          exact enumWidth_pos declared
        · rw [littleEndian_length, littleEndian_length] at same
          rcases Relation.ReflTransGen.cases_head within with rfl | ⟨next, ⟨fields, record, _⟩, _⟩
          · rw [declared, same]
          · rw [shape] at record
            cases record
      | record fields =>
        obtain ⟨values, rfl, parts⟩ := laid
        obtain ⟨written, parts', fewer, full⟩ := parts.bytes fun _ _ _ => ih
        refine ⟨written, ⟨values, rfl, parts'⟩, fewer, fun same inner within variants enum => ?_⟩
        rcases Relation.ReflTransGen.cases_head within with rfl | ⟨next, ⟨fields', record, field, member, rfl⟩, deeper⟩
        · rw [shape] at enum
          cases enum
        · rw [shape] at record
          cases record
          exact full same field member inner deeper variants enum

theorem laid_byte {depth : Nat} {type : String} {value : Term} {bytes : List UInt8}
    (laid : Laid ast ast.enumWidth depth type value bytes)
    (byte : ∀ inner, ast.Within type inner → ∀ variants, ast.shape inner = some (.enum variants) →
      ast.enumWidth inner = some 1) :
    Laid ast (fun _ => some 1) depth type value bytes := by
  induction depth generalizing type value bytes with
  | zero => exact laid.elim
  | succ depth ih =>
    simp only [Laid] at laid ⊢
    cases shape : ast.shape type with
    | none => rw [shape] at laid; exact laid.elim
    | some found =>
      rw [shape] at laid
      cases found with
      | primitive primitive => exact laid
      | enum variants =>
        obtain ⟨wide, declared, rest⟩ := laid
        rw [byte type .refl variants shape] at declared
        exact ⟨wide, declared, rest⟩
      | record fields =>
        obtain ⟨values, rfl, parts⟩ := laid
        refine ⟨values, rfl, parts.imp fun field member => fun laid => ih laid fun inner within => ?_⟩
        exact byte inner (.head ⟨fields, shape, field, member, rfl⟩ within)

theorem written_of_byte {depth : Nat} {type : String} {value : Term} {bytes : List UInt8}
    (laid : Laid ast (fun _ => some 1) depth type value bytes) : Written ast depth type value bytes := by
  induction depth generalizing type value bytes with
  | zero => exact laid.elim
  | succ depth ih =>
    simp only [Laid] at laid
    simp only [Written]
    cases shape : ast.shape type with
    | none => rw [shape] at laid; exact laid.elim
    | some found =>
      rw [shape] at laid
      cases found with
      | primitive primitive => exact laid
      | enum variants =>
        obtain ⟨wide, one, variant, member, same, _, rfl⟩ := laid
        cases one
        exact ⟨variant, member, same, rfl⟩
      | record fields =>
        obtain ⟨values, same, parts⟩ := laid
        exact ⟨values, same, parts.imp fun _ _ => ih⟩

end Widths

section Main
variable {ast : Ast} {module : Module}

end Main

/-- An enumeration of a base type, and a record that has it in front of another field. -/
def ranked (baseType : String) : Ast :=
  [.enum "Rank" baseType [("low", 1), ("high", 200)], .struct "Post" [("Rank", "rank"), ("uint8", "room")]]

theorem ranked_record {record : String × List (String × String)} (declared : record ∈ (ranked "uint8").records) :
    record = ("Post", [("Rank", "rank"), ("uint8", "room")]) := List.mem_singleton.mp declared

theorem ranked_field {record : String × List (String × String)} (declared : record ∈ (ranked "uint8").records)
    {field : String × String} (member : field ∈ record.2) : field = ("Rank", "rank") ∨ field = ("uint8", "room") := by
  rw [ranked_record declared] at member
  simpa using member

theorem ranked_named : Named (ranked "uint8") where
  functions := by decide
  vars := by decide
  rests record declared index above below := by
    rw [ranked_record declared] at below ⊢
    have two : index ≤ 2 := below
    rcases (by omega : index = 1 ∨ index = 2) with rfl | rfl
    · decide
    · decide
  raws record declared field member variants shape := by
    rcases ranked_field declared member with rfl | rfl
    · rw [ranked_record declared]
      decide
    · cases shape
  enumAtoms := by decide
  enumValues := by decide
  unionAtoms := by decide
  unionTags := by decide
  fieldTypes record declared field member shape := by
    rcases ranked_field declared member with rfl | rfl
    · cases shape
    · cases shape
  variantTypes union declared := absurd declared List.not_mem_nil
  identifiers := by decide
  enumNames := by decide
  atoms := by decide

theorem ranked_fielded : Fielded (ranked "uint8") := ⟨by decide, by decide⟩

def highPost : Term := .map [("rank", .atom "high"), ("room", .integer 7)]

end Burble.Bebop
