import Burble.Bebop.Generator

namespace Burble.Bebop

section Naming

/-- The functions of a module by their names, those of all unions once. -/
def Ast.functionNames (ast : Ast) : List String :=
  (ast.enums.map fun enum => snakeCase enum.1) ++
    (ast.records.flatMap fun record => [encName record.1, decName record.1]) ++
    genPrimitives.map Definition.name ++ ["encode", "decode"]

def Ast.unionAtoms (ast : Ast) : List String :=
  ast.unions.flatMap fun union => union.2.map fun variant => snakeCase variant.2.2

def reservedWords : List String :=
  ["after", "and", "catch", "do", "else", "end", "false", "fn", "in", "nil", "not", "or", "rescue", "true", "when"]

/-- Functions and macros of one argument that every module imports. -/
def kernelImports : List String :=
  ["abs", "alias", "binding", "bit_size", "byte_size", "ceil", "cond", "dbg", "def", "defexception", "defmacro",
    "defmacrop", "defoverridable", "defp", "defprotocol", "defstruct", "exit", "floor", "for", "get_in", "hd", "import",
    "inspect", "is_atom", "is_binary", "is_bitstring", "is_boolean", "is_exception", "is_float", "is_function",
    "is_integer", "is_list", "is_map", "is_nil", "is_non_struct_map", "is_number", "is_pid", "is_port", "is_reference",
    "is_struct", "is_tuple", "length", "map_size", "node", "pop_in", "quote", "raise", "receive", "require", "round",
    "spawn", "spawn_link", "spawn_monitor", "struct", "struct!", "throw", "tl", "to_charlist", "to_string", "trunc",
    "try", "tuple_size", "unquote", "unquote_splicing", "use", "with"]

/-- A name that stands for a variable or a function in the source text. -/
def isIdentifier (name : String) : Bool :=
  match name.toList with
  | [] => false
  | first :: rest =>
    (first.isLower || first = '_' && !rest.isEmpty) && rest.all (fun c => c.isLower || c.isDigit || c = '_') &&
      !reservedWords.contains name

def isFunctionName (name : String) : Bool := isIdentifier name && !kernelImports.contains name

/-- An atom is written with a colon, so that no word is reserved. -/
def isAtomName (name : String) : Bool :=
  match name.toList with
  | [] => false
  | first :: rest => (first.isLower || first = '_') && rest.all fun c => c.isLower || c.isDigit || c = '_'

/-- What a union may carry. -/
def Ast.carried (ast : Ast) (type : String) : Prop :=
  (∃ fields, ast.shape type = some (.record fields)) ∨ type = "string" ∨ type = "bool"

/-- The names of a schema make names that stand for one thing each, and that the language takes
as they are written. -/
structure Named (ast : Ast) : Prop where
  functions : ast.functionNames.Nodup
  vars : ∀ record ∈ ast.records, (recordVars record.2).Nodup
  rests : ∀ record ∈ ast.records, ∀ index, 0 < index → index ≤ record.2.length → restName index ∉ recordVars record.2
  raws : ∀ record ∈ ast.records, ∀ field ∈ record.2, ∀ variants, ast.shape field.1 = some (.enum variants) →
    snakeCase field.2 ++ "_raw" ∉ recordVars record.2
  enumAtoms : ∀ enum ∈ ast.enums, (enum.2.map fun variant => snakeCase variant.1).Nodup
  enumValues : ∀ enum ∈ ast.enums, (enum.2.map Prod.snd).Nodup
  unionAtoms : ast.unionAtoms.Nodup
  unionTags : ∀ union ∈ ast.unions, (union.2.map Prod.fst).Nodup
  fieldTypes : ∀ record ∈ ast.records, ∀ field ∈ record.2, ast.shape field.1 = none → encName field.1 ∉ ast.functionNames
  variantTypes : ∀ union ∈ ast.unions, ∀ variant ∈ union.2, ¬ ast.carried variant.2.1 →
    encName variant.2.1 ∉ ast.functionNames
  identifiers : ∀ record ∈ ast.records, ∀ var ∈ recordVars record.2, isIdentifier var = true
  enumNames : ∀ enum ∈ ast.enums, isFunctionName (snakeCase enum.1) = true
  atoms : ∀ atom ∈ ast.unionAtoms ++ ast.enums.flatMap fun enum => enum.2.map fun variant => snakeCase variant.1,
    isAtomName atom = true

end Naming

section Lookup
variable {ast : Ast} {module : Module}

/-- The functions of enumerations, records and primitives. -/
def Ast.plain (ast : Ast) : List Definition :=
  (ast.enums.map fun (name, variants) => genEnum name variants) ++
    (ast.records.flatMap fun (name, fields) => genRecordCodec (buildTypeMap ast) name fields) ++ genPrimitives

def Ast.unionDefinitions (ast : Ast) : List Definition :=
  ast.unions.flatMap fun (name, variants) => genUnionCodec name variants

theorem generateModule_perm (generated : generateModule ast = some module) :
    ∃ front, module = front ++ ast.unionDefinitions ++ genPrimitives ∧ ast.plain = front ++ genPrimitives := by
  rw [generateModule] at generated
  dsimp only at generated
  split at generated
  · cases generated
  · cases generated
    refine ⟨_, rfl, ?_⟩
    rw [Ast.plain, Ast.records, List.flatMap_append, List.flatMap_map, List.append_assoc, List.append_assoc,
      List.append_assoc, List.append_assoc]
    rfl

theorem mem_module (generated : generateModule ast = some module) {definition : Definition} :
    definition ∈ module ↔ definition ∈ ast.plain ∨ definition ∈ ast.unionDefinitions := by
  obtain ⟨front, rfl, plain⟩ := generateModule_perm generated
  rw [plain]
  simp only [List.mem_append]
  tauto

theorem plain_names (ast : Ast) : ast.functionNames = ast.plain.map Definition.name ++ ["encode", "decode"] := by
  have records : (ast.records.flatMap fun (name, fields) => genRecordCodec (buildTypeMap ast) name fields).map
      Definition.name = ast.records.flatMap fun record => [encName record.1, decName record.1] := by
    rw [List.map_flatMap]
    rfl
  rw [Ast.plain, List.map_append, List.map_append, records, List.map_map, Ast.functionNames]
  rfl

theorem union_name {definition : Definition} (member : definition ∈ ast.unionDefinitions) :
    definition.name = "encode" ∨ definition.name = "decode" := by
  obtain ⟨union, _, member⟩ := List.mem_flatMap.mp member
  rcases List.mem_cons.mp member with rfl | member
  · exact .inl rfl
  · rw [List.mem_singleton.mp member]
    exact .inr rfl

theorem filter_name {definitions : List Definition} (once : (definitions.map Definition.name).Nodup)
    {definition : Definition} (member : definition ∈ definitions) :
    definitions.filter (fun other => other.name = definition.name) = [definition] := by
  induction definitions with
  | nil => cases member
  | cons head rest ih =>
    obtain ⟨fresh, once⟩ := List.nodup_cons.mp once
    rcases List.mem_cons.mp member with rfl | later
    · rw [List.filter_cons_of_pos (by simp)]
      congr 1
      refine List.filter_eq_nil_iff.mpr fun other among same => fresh ?_
      exact List.mem_map.mpr ⟨other, among, of_decide_eq_true same⟩
    · rw [List.filter_cons_of_neg, ih once later]
      intro same
      exact fresh (List.mem_map.mpr ⟨definition, later, (of_decide_eq_true same).symm⟩)

variable (generated : generateModule ast = some module) (named : Named ast)
include generated named

/-- A function that is no union's has the clauses of its one definition. -/
theorem clauses_plain {definition : Definition} (member : definition ∈ ast.plain) :
    module.clauses definition.name = definition.bodies := by
  obtain ⟨front, rfl, plain⟩ := generateModule_perm generated
  have names := named.functions
  rw [plain_names] at names
  obtain ⟨once, _, apart⟩ := List.nodup_append.mp names
  have outside : ast.unionDefinitions.filter (fun other => other.name = definition.name) = [] := by
    refine List.filter_eq_nil_iff.mpr fun other among same => ?_
    have either : definition.name = "encode" ∨ definition.name = "decode" := of_decide_eq_true same ▸ union_name among
    exact apart _ (List.mem_map.mpr ⟨definition, member, rfl⟩) _ (by simpa using either) rfl
  have one := filter_name once member
  rw [plain, List.filter_append] at one
  rw [Module.clauses, List.filter_append, List.filter_append, outside, List.append_nil, one, List.flatMap_singleton]

/-- The two functions of unions have the clauses of all of them. -/
theorem clauses_union {fn : String} (union : fn = "encode" ∨ fn = "decode") :
    module.clauses fn = (ast.unionDefinitions.filter fun other => other.name = fn).flatMap Definition.bodies := by
  obtain ⟨front, rfl, plain⟩ := generateModule_perm generated
  have names := named.functions
  rw [plain_names] at names
  obtain ⟨_, _, apart⟩ := List.nodup_append.mp names
  have outside : ast.plain.filter (fun other => other.name = fn) = [] := by
    refine List.filter_eq_nil_iff.mpr fun other among same => ?_
    exact apart _ (List.mem_map.mpr ⟨other, among, of_decide_eq_true same⟩) _ (by simpa using union) rfl
  rw [plain, List.filter_append] at outside
  obtain ⟨first, last⟩ := List.append_eq_nil_iff.mp outside
  rw [Module.clauses, List.filter_append, List.filter_append, first, last, List.append_nil, List.nil_append]

end Lookup

end Burble.Bebop
