import Burble.Bebop.Reading

namespace Burble.Bebop

section Expressions
variable {ast : Ast}

def Primitive.expr (var : String) : Primitive → EncodeExpr
  | string => .call "encode_string" var
  | float32 => .float var
  | uint8 => .uint 1 var
  | uint16 => .uint 2 var
  | uint32 => .uint 4 var
  | bool => .call "encode_bool" var

theorem encodeFieldExpr_eq (type var : String) : encodeFieldExpr (buildTypeMap ast) type var =
    match ast.shape type with
    | some (.primitive primitive) => primitive.expr var
    | some (.enum _) => .enum (snakeCase type) var
    | _ => .call (encName type) var := by
  rw [encodeFieldExpr, Ast.shape]
  cases Primitive.ofName type with
  | some primitive => cases primitive <;> rfl
  | none =>
    cases (buildTypeMap ast).lookup type with
    | none => rfl
    | some node => cases node <;> rfl

end Expressions

section Patterns

theorem lookup_zip {vars : List String} {values : List Term} (once : vars.Nodup) (size : vars.length = values.length) :
    vars.map (fun var => (vars.zip values).lookup var) = values.map some := by
  induction vars generalizing values with
  | nil => rw [List.eq_nil_of_length_eq_zero size.symm]; rfl
  | cons var rest ih =>
    cases values with
    | nil => cases size
    | cons value values =>
      obtain ⟨fresh, once⟩ := List.nodup_cons.mp once
      rw [List.map_cons, List.zip_cons_cons, List.lookup_cons_self, List.map_cons, ← ih once (Nat.succ.inj size)]
      congr 1
      refine List.map_congr_left fun other member => ?_
      have different : (other == var) = false := beq_eq_false_iff_ne.mpr fun same => fresh (same ▸ member)
      rw [List.lookup_cons, different]

theorem mapM_lookup {vars : List String} {values : List Term} {entries : List (String × Term)}
    (found : vars.map (fun var => entries.lookup var) = values.map some) :
    vars.mapM (fun var => (entries.lookup var).map fun value => (var, value)) = some (vars.zip values) := by
  induction vars generalizing values with
  | nil => rfl
  | cons var rest ih =>
    cases values with
    | nil => cases found
    | cons value values =>
      obtain ⟨first, later⟩ := List.cons.inj found
      dsimp only at first
      rw [List.mapM_cons, first, ih later]
      rfl

theorem get_zip {vars : List String} {values : List Term} (once : vars.Nodup) (size : vars.length = values.length) :
    vars.map (Env.get (vars.zip values)) = values := by
  have found := congrArg (List.map fun value => Option.getD value (.atom "nil")) (lookup_zip once size)
  rw [List.map_map, List.map_map] at found
  exact found.trans (by simp [Function.comp_def])

end Patterns

theorem parts_length {written : String → Term → List UInt8 → Prop} {fields : List (String × String)} {values : List Term}
    {bytes : List UInt8} (parts : Parts written fields values bytes) : fields.length = values.length := by
  induction parts with
  | nil => rfl
  | cons _ _ ih => rw [List.length_cons, List.length_cons, ih]

theorem concat_parts {ast : Ast} {invoke : String → Term → Except Raised Term} {written : String → Term → List UInt8 → Prop}
    (each : ∀ {type value bytes var env}, written type value bytes → Env.get env var = value →
      (encodeFieldExpr (buildTypeMap ast) type var).run invoke env = .ok (.binary bytes))
    {fields : List (String × String)} {values : List Term} {bytes : List UInt8} {env : Env}
    (parts : Parts written fields values bytes) (bound : (recordVars fields).map env.get = values) :
    concat invoke env (fields.map fun field => encodeFieldExpr (buildTypeMap ast) field.1 (snakeCase field.2)) =
      .ok bytes := by
  induction parts with
  | nil => rfl
  | cons wrote _ ih =>
    obtain ⟨first, later⟩ := List.cons.inj bound
    rw [List.map_cons, concat]
    refine Fallible.bind_ok.mpr ⟨_, each wrote first, ?_⟩
    exact Fallible.bind_ok.mpr ⟨_, ih later, rfl⟩

section Writing
variable {ast : Ast} {module : Module} (generated : generateModule ast = some module) (named : Named ast)
include generated named

theorem clauses_encName {name : String} {fields : List (String × String)} (declared : (name, fields) ∈ ast.records) :
    module.clauses (encName name) = [.encodeFields (recordVars fields)
      (fields.map fun field => encodeFieldExpr (buildTypeMap ast) field.1 (snakeCase field.2))] := by
  refine @clauses_plain ast module generated named ⟨encName name, _⟩ ?_
  refine List.mem_append_left _ (List.mem_append_right _ (List.mem_flatMap.mpr ⟨_, declared, ?_⟩))
  exact List.mem_cons_self

theorem call_encode_string (fuel : Nat) (bytes : List UInt8) :
    call module (fuel + 1) "encode_string" (.binary bytes) = .ok (.binary (littleEndian 4 bytes.length ++ bytes)) := by
  rw [call, @clauses_plain ast module generated named ⟨"encode_string", [.encodeString]⟩ (List.mem_append_right _ (by decide))]
  rfl

theorem call_encode_bool (fuel : Nat) {name : String} (truth : name = "true" ∨ name = "false") :
    call module (fuel + 1) "encode_bool" (.atom name) = .ok (.binary [if name = "true" then 1 else 0]) := by
  rw [call, @clauses_plain ast module generated named ⟨"encode_bool", [.encodeBool]⟩ (List.mem_append_right _ (by decide))]
  rcases truth with rfl | rfl <;> rfl

/-- The encoder of a record writes its fields. -/
theorem call_encName_parts (fielded : Fielded ast) {written : String → Term → List UInt8 → Prop} {fuel : Nat}
    (each : ∀ {type value bytes var env}, written type value bytes → Env.get env var = value →
      (encodeFieldExpr (buildTypeMap ast) type var).run (call module fuel) env = .ok (.binary bytes))
    {name : String} {fields : List (String × String)} (declared : (name, fields) ∈ ast.records) {values : List Term}
    {bytes : List UInt8} (parts : Parts written fields values bytes) :
    call module (fuel + 1) (encName name) (recordTerm fields values) = .ok (.binary bytes) := by
  have once := named.vars _ declared
  have size : (recordVars fields).length = values.length := by rw [recordVars, List.length_map, parts_length parts]
  have some : fields.map (fun field => encodeFieldExpr (buildTypeMap ast) field.1 (snakeCase field.2)) ≠ [] :=
    fun none => fielded.nonempty _ declared (List.map_eq_nil_iff.mp none)
  rw [call, clauses_encName generated named declared, List.findSome?_cons, recordTerm, Body.run,
    mapM_lookup (lookup_zip once size), Option.map_some, Option.getD_some, if_neg some]
  exact Fallible.bind_ok.mpr ⟨bytes, concat_parts each parts (get_zip once size), rfl⟩

theorem primitive_run {primitive : Primitive} {fuel : Nat} {value : Term} {var : String} {env : Env}
    (holds : primitive.Holds Short value) (bound : env.get var = value) :
    (primitive.expr var).run (call module (fuel + 1)) env = .ok (.binary (primitive.bytes value)) := by
  cases primitive <;> cases value <;> try exact holds.elim
  all_goals rw [Primitive.expr, EncodeExpr.run, bound]
  case string.binary bytes => exact call_encode_string generated named fuel bytes
  case bool.atom name => exact call_encode_bool generated named fuel holds
  all_goals rfl

/-- What is written for a term is what encoding it returns, with fuel for its depth. -/
theorem encodeFieldExpr_run (fielded : Fielded ast) {depth fuel : Nat} {type var : String} {value : Term}
    {bytes : List UInt8} {env : Env} (wrote : Written ast depth type value bytes) (enough : depth ≤ fuel)
    (bound : env.get var = value) :
    (encodeFieldExpr (buildTypeMap ast) type var).run (call module fuel) env = .ok (.binary bytes) := by
  induction depth generalizing fuel type var value bytes env with
  | zero => exact wrote.elim
  | succ depth ih =>
    obtain ⟨fuel, rfl⟩ : ∃ less, fuel = less + 1 := ⟨fuel - 1, by omega⟩
    simp only [Written] at wrote
    rw [encodeFieldExpr_eq]
    cases shape : ast.shape type with
    | none => rw [shape] at wrote; exact wrote.elim
    | some found =>
      rw [shape] at wrote
      cases found with
      | primitive primitive =>
        obtain ⟨holds, rfl⟩ := wrote
        exact primitive_run generated named holds bound
      | enum variants =>
        obtain ⟨variant, member, rfl, rfl⟩ := wrote
        refine Fallible.bind_ok.mpr ⟨.integer variant.2, ?_, rfl⟩
        rw [bound]
        exact call_enum_atom generated named (mem_enums shape) fuel member
      | record fields =>
        obtain ⟨values, rfl, parts⟩ := wrote
        show call module (fuel + 1) (encName type) (env.get var) = _
        rw [bound]
        exact call_encName_parts generated named fielded
          (fun wrote bound => ih wrote (by omega) bound) (mem_records shape) parts

end Writing

end Burble.Bebop
