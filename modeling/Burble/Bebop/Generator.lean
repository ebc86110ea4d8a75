import Mathlib.Data.List.Forall2
import Burble.FiniteMap
import Burble.Bebop.Elixir

namespace Burble.Bebop

/-- A declaration as the parser produces it. Fields are of a type and have a name. -/
inductive Node
  | enum (name baseType : String) (variants : List (String × Nat))
  | struct (name : String) (fields : List (String × String))
  | message (name : String) (fields : List (Nat × String × String))
  | union (name : String) (variants : List (Nat × String × String))
  deriving DecidableEq

def Node.name : Node → String
  | enum name _ _ | struct name _ | message name _ | union name _ => name

abbrev Ast := List Node

section Names

/-- Between two capitals of which the second one begins a word. -/
def splitRuns : List Char → List Char
  | one :: two :: three :: rest =>
    if one.isUpper && two.isUpper && three.isLower then one :: '_' :: splitRuns (two :: three :: rest)
    else one :: splitRuns (two :: three :: rest)
  | short => short

/-- Between a small letter or digit and a capital. -/
def splitWords : List Char → List Char
  | one :: two :: rest =>
    if (one.isLower || one.isDigit) && two.isUpper then one :: '_' :: splitWords (two :: rest)
    else one :: splitWords (two :: rest)
  | short => short

def snakeCase (name : String) : String := String.ofList ((splitWords (splitRuns name.toList)).map Char.toLower)

def encName (type : String) : String := "encode_" ++ snakeCase type

def decName (type : String) : String := "decode_" ++ snakeCase type

end Names

inductive Primitive
  | string
  | float32
  | uint8
  | uint16
  | uint32
  | bool
  deriving DecidableEq

def Primitive.ofName (type : String) : Option Primitive :=
  if type = "string" then some string
  else if type = "float32" then some float32
  else if type = "uint8" then some uint8
  else if type = "uint16" then some uint16
  else if type = "uint32" then some uint32
  else if type = "bool" then some bool
  else none

abbrev TypeMap := FiniteMap String Node

def buildTypeMap (ast : Ast) : TypeMap := ast.foldl (fun acc node => AList.insert node.name node acc) ∅

section Fields

def encodeFieldExpr (typeMap : TypeMap) (type var : String) : EncodeExpr :=
  match Primitive.ofName type with
  | some .string => .call "encode_string" var
  | some .float32 => .float var
  | some .uint8 => .uint 1 var
  | some .uint16 => .uint 2 var
  | some .uint32 => .uint 4 var
  | some .bool => .call "encode_bool" var
  | none =>
    match typeMap.lookup type with
    | some (.enum _ _ _) => .enum (snakeCase type) var
    | _ => .call (encName type) var

def decodeFieldExpr (typeMap : TypeMap) (type var restIn restOut : String) : List DecodeBinding :=
  match Primitive.ofName type with
  | some .string => [.take var restOut "decode_string" restIn]
  | some .float32 => [.take var restOut "decode_float32" restIn]
  | some .uint8 => [.take var restOut "decode_uint8" restIn]
  | some .uint16 => [.take var restOut "decode_uint16" restIn]
  | some .uint32 => [.take var restOut "decode_uint32" restIn]
  | some .bool => [.take var restOut "decode_bool" restIn]
  | none =>
    match typeMap.lookup type with
    | some (.enum _ _ _) =>
      [.take (var ++ "_raw") restOut "decode_uint8" restIn, .apply var (snakeCase type) (var ++ "_raw")]
    | _ => [.take var restOut (decName type) restIn]

/-- The name of what is left of the data after some fields. -/
def restName (index : Nat) : String := "rest" ++ toString index

def restVar (index : Nat) : String := if index = 0 then "data" else restName index

/-- The bindings of the fields from some index on. -/
def decodeBindings (typeMap : TypeMap) : Nat → List (String × String) → List DecodeBinding
  | _, [] => []
  | index, (type, name) :: rest =>
    decodeFieldExpr typeMap type (snakeCase name) (restVar index) (restName (index + 1)) ++
      decodeBindings typeMap (index + 1) rest

end Fields

/-- The two functions of a record: structs and messages differ by the order of their fields only. -/
def genRecordCodec (typeMap : TypeMap) (name : String) (fields : List (String × String)) : List Definition :=
  let vars := fields.map fun field => snakeCase field.2
  [⟨encName name, [.encodeFields vars (fields.map fun field => encodeFieldExpr typeMap field.1 (snakeCase field.2))]⟩,
    ⟨decName name, [.decodeFields (decodeBindings typeMap 0 fields) vars (restName fields.length)]⟩]

def genStructCodec (typeMap : TypeMap) (name : String) (fields : List (String × String)) : List Definition :=
  genRecordCodec typeMap name fields

def sortFields (fields : List (Nat × String × String)) : List (String × String) :=
  (fields.mergeSort fun one other => decide (one.1 ≤ other.1)).map Prod.snd

def genMessageCodec (typeMap : TypeMap) (name : String) (fields : List (Nat × String × String)) : List Definition :=
  genRecordCodec typeMap name (sortFields fields)

def genUnionCodec (name : String) (variants : List (Nat × String × String)) : List Definition :=
  [⟨"encode", (variants.map fun (tag, type, var) => .encodeVariant (snakeCase var) (encName type) tag) ++
      [.encodeUnknown name]⟩,
    ⟨"decode", (variants.map fun (tag, type, var) => .decodeVariant tag (decName type) (snakeCase var)) ++
      [.decodeUnknown name, .decodeEmpty]⟩]

def genEnum (name : String) (variants : List (String × Nat)) : Definition :=
  ⟨snakeCase name, (variants.map fun (variant, value) => .toInteger (snakeCase variant) value) ++
    (variants.map fun (variant, value) => .toAtom value (snakeCase variant)) ++ [.unknownValue name]⟩

def genPrimitives : List Definition :=
  [⟨"encode_string", [.encodeString]⟩, ⟨"decode_string", [.decodeString]⟩, ⟨"encode_bool", [.encodeBool]⟩,
    ⟨"decode_bool", [.decodeBool]⟩, ⟨"decode_uint8", [.decodeUint 1]⟩, ⟨"decode_uint16", [.decodeUint 2]⟩,
    ⟨"decode_uint32", [.decodeUint 4]⟩, ⟨"decode_float32", [.decodeFloat]⟩]

section Modules

def Ast.enums (ast : Ast) : List (String × List (String × Nat)) :=
  ast.filterMap fun
    | .enum name _ variants => some (name, variants)
    | _ => none

def Ast.structs (ast : Ast) : List (String × List (String × String)) :=
  ast.filterMap fun
    | .struct name fields => some (name, fields)
    | _ => none

def Ast.messages (ast : Ast) : List (String × List (Nat × String × String)) :=
  ast.filterMap fun
    | .message name fields => some (name, fields)
    | _ => none

def Ast.unions (ast : Ast) : List (String × List (Nat × String × String)) :=
  ast.filterMap fun
    | .union name variants => some (name, variants)
    | _ => none

/-- Nothing is generated where a union has no variant: there is no widest one for its table. -/
def generateModule (ast : Ast) : Option Module :=
  let typeMap := buildTypeMap ast
  if ast.unions.any fun union => union.2.isEmpty then none
  else some ((ast.enums.map fun (name, variants) => genEnum name variants) ++
    (ast.structs.flatMap fun (name, fields) => genStructCodec typeMap name fields) ++
    (ast.messages.flatMap fun (name, fields) => genMessageCodec typeMap name fields) ++
    (ast.unions.flatMap fun (name, variants) => genUnionCodec name variants) ++ genPrimitives)

end Modules

end Burble.Bebop

namespace Burble.Bebop

/-- What a type of a field is. -/
inductive Shape
  | primitive (primitive : Primitive)
  | enum (variants : List (String × Nat))
  | record (fields : List (String × String))

def Ast.shape (ast : Ast) (type : String) : Option Shape :=
  match Primitive.ofName type with
  | some primitive => some (.primitive primitive)
  | none =>
    match (buildTypeMap ast).lookup type with
    | some (.enum _ _ variants) => some (.enum variants)
    | some (.struct _ fields) => some (.record fields)
    | some (.message _ fields) => some (.record (sortFields fields))
    | _ => none

/-- Structs and messages, with the fields in the order in which they are encoded. -/
def Ast.records (ast : Ast) : List (String × List (String × String)) :=
  ast.structs ++ ast.messages.map fun message => (message.1, sortFields message.2)

def recordVars (fields : List (String × String)) : List String := fields.map fun field => snakeCase field.2

def recordTerm (fields : List (String × String)) (values : List Term) : Term := .map ((recordVars fields).zip values)

/-- A term is of a primitive type, with strings that fit. -/
def Primitive.Holds (fits : List UInt8 → Prop) : Primitive → Term → Prop
  | string, .binary bytes => fits bytes
  | float32, .float _ => True
  | uint8, .integer value => value < 256 ^ 1
  | uint16, .integer value => value < 256 ^ 2
  | uint32, .integer value => value < 256 ^ 4
  | bool, .atom name => name = "true" ∨ name = "false"
  | _, _ => False

def Primitive.bytes : Primitive → Term → List UInt8
  | string, .binary bytes => littleEndian 4 bytes.length ++ bytes
  | float32, .float single => littleEndian 4 single.bits
  | uint8, .integer value => littleEndian 1 value
  | uint16, .integer value => littleEndian 2 value
  | uint32, .integer value => littleEndian 4 value
  | bool, .atom name => [if name = "true" then 1 else 0]
  | _, _ => []

/-- Strings whose length fits into its prefix. -/
def Short (bytes : List UInt8) : Prop := bytes.length < 256 ^ 4

section Types
variable (ast : Ast)

/-- A term is of a type, with values nested up to some depth. -/
def HasType (fits : List UInt8 → Prop) : Nat → String → Term → Prop
  | 0, _, _ => False
  | depth + 1, type, value =>
    match ast.shape type with
    | some (.primitive primitive) => primitive.Holds fits value
    | some (.enum variants) => ∃ variant ∈ variants, value = .atom (snakeCase variant.1)
    | some (.record fields) => ∃ values, value = recordTerm fields values ∧
        List.Forall₂ (fun field part => HasType fits depth field.1 part) fields values
    | none => False

/-- The terms of a record with these fields. -/
def HasFields (fits : List UInt8 → Prop) (depth : Nat) (fields : List (String × String)) (value : Term) : Prop :=
  ∃ values, value = recordTerm fields values ∧
    List.Forall₂ (fun field part => HasType ast fits depth field.1 part) fields values

end Types

/-- The bytes of the fields of a record, one after another. -/
inductive Parts (written : String → Term → List UInt8 → Prop) : List (String × String) → List Term → List UInt8 → Prop
  | nil : Parts written [] [] []
  | cons {type name value bytes fields values later} : written type value bytes → Parts written fields values later →
      Parts written ((type, name) :: fields) (value :: values) (bytes ++ later)

section Bytes
variable (ast : Ast)

/-- The bytes of a term of a type. -/
def Written : Nat → String → Term → List UInt8 → Prop
  | 0, _, _, _ => False
  | depth + 1, type, value, bytes =>
    match ast.shape type with
    | some (.primitive primitive) => primitive.Holds Short value ∧ bytes = primitive.bytes value
    | some (.enum variants) => ∃ variant ∈ variants, value = .atom (snakeCase variant.1) ∧ bytes = littleEndian 1 variant.2
    | some (.record fields) => ∃ values, value = recordTerm fields values ∧ Parts (Written depth) fields values bytes
    | none => False

def WrittenFields (depth : Nat) (fields : List (String × String)) (value : Term) (bytes : List UInt8) : Prop :=
  ∃ values, value = recordTerm fields values ∧ Parts (Written ast depth) fields values bytes

theorem parts_of_types {typed : String → Term → Prop} {written : String → Term → List UInt8 → Prop}
    (each : ∀ {type value}, typed type value → ∃ bytes, written type value bytes) {fields : List (String × String)}
    {values : List Term} (types : List.Forall₂ (fun field value => typed field.1 value) fields values) :
    ∃ bytes, Parts written fields values bytes := by
  induction types with
  | nil => exact ⟨[], .nil⟩
  | @cons field value _ _ first _ ih =>
    obtain ⟨bytes, wrote⟩ := each first
    obtain ⟨later, parts⟩ := ih
    obtain ⟨type, name⟩ := field
    exact ⟨bytes ++ later, .cons wrote parts⟩

theorem types_of_parts {typed : String → Term → Prop} {written : String → Term → List UInt8 → Prop}
    (each : ∀ {type value bytes}, written type value bytes → typed type value) {fields : List (String × String)}
    {values : List Term} {bytes : List UInt8} (parts : Parts written fields values bytes) :
    List.Forall₂ (fun field value => typed field.1 value) fields values := by
  induction parts with
  | nil => exact .nil
  | cons first _ ih => exact .cons (each first) ih

theorem hasType_iff {depth : Nat} {type : String} {value : Term} :
    HasType ast Short depth type value ↔ ∃ bytes, Written ast depth type value bytes := by
  induction depth generalizing type value with
  | zero => exact ⟨False.elim, fun ⟨_, wrote⟩ => wrote⟩
  | succ depth ih =>
    rw [HasType]
    simp only [Written]
    cases ast.shape type with
    | none => exact ⟨False.elim, fun ⟨_, wrote⟩ => wrote⟩
    | some shape =>
      cases shape with
      | primitive primitive => exact ⟨fun holds => ⟨_, holds, rfl⟩, fun ⟨_, holds, _⟩ => holds⟩
      | enum variants =>
        exact ⟨fun ⟨variant, member, same⟩ => ⟨_, variant, member, same, rfl⟩,
          fun ⟨_, variant, member, same, _⟩ => ⟨variant, member, same⟩⟩
      | record fields =>
        constructor
        · rintro ⟨values, same, types⟩
          obtain ⟨bytes, parts⟩ := @parts_of_types (HasType ast Short depth) (Written ast depth) (fun typed => ih.mp typed) _ _ types
          exact ⟨bytes, values, same, parts⟩
        · rintro ⟨bytes, values, same, parts⟩
          exact ⟨values, same, types_of_parts (fun wrote => ih.mpr ⟨_, wrote⟩) parts⟩

theorem hasFields_iff {depth : Nat} {fields : List (String × String)} {value : Term} :
    HasFields ast Short depth fields value ↔ ∃ bytes, WrittenFields ast depth fields value bytes := by
  constructor
  · rintro ⟨values, same, types⟩
    obtain ⟨bytes, parts⟩ := @parts_of_types (HasType ast Short depth) (Written ast depth) (fun typed => (hasType_iff ast).mp typed) _ _ types
    exact ⟨bytes, values, same, parts⟩
  · rintro ⟨bytes, values, same, parts⟩
    exact ⟨values, same, types_of_parts (fun wrote => (hasType_iff ast).mpr ⟨_, wrote⟩) parts⟩

/-- The bytes of a term whose enumerations have widths of their own, with values that fit. -/
def Laid (width : String → Option Nat) : Nat → String → Term → List UInt8 → Prop
  | 0, _, _, _ => False
  | depth + 1, type, value, bytes =>
    match ast.shape type with
    | some (.primitive primitive) => primitive.Holds Short value ∧ bytes = primitive.bytes value
    | some (.enum variants) => ∃ wide, width type = some wide ∧ ∃ variant ∈ variants,
        value = .atom (snakeCase variant.1) ∧ variant.2 < 256 ^ wide ∧ bytes = littleEndian wide variant.2
    | some (.record fields) => ∃ values, value = recordTerm fields values ∧ Parts (Laid width depth) fields values bytes
    | none => False

def LaidFields (width : String → Option Nat) (depth : Nat) (fields : List (String × String)) (value : Term)
    (bytes : List UInt8) : Prop :=
  ∃ values, value = recordTerm fields values ∧ Parts (Laid ast width depth) fields values bytes

end Bytes

section Widths
variable {ast : Ast}

theorem Parts.imp {written other : String → Term → List UInt8 → Prop} {fields : List (String × String)}
    {values : List Term} {bytes : List UInt8}
    (each : ∀ field ∈ fields, ∀ {value bytes}, written field.1 value bytes → other field.1 value bytes)
    (parts : Parts written fields values bytes) : Parts other fields values bytes := by
  induction parts with
  | nil => exact .nil
  | cons wrote _ ih =>
    exact .cons (each _ List.mem_cons_self wrote) (ih fun field member => each field (List.mem_cons_of_mem _ member))

end Widths

end Burble.Bebop
