import Burble.Bebop.Generator

namespace Burble.Bebop

def Primitive.reader : Primitive → String
  | string => "decode_string"
  | float32 => "decode_float32"
  | uint8 => "decode_uint8"
  | uint16 => "decode_uint16"
  | uint32 => "decode_uint32"
  | bool => "decode_bool"

section Names

theorem restName_underscore (index : Nat) : '_' ∉ (restName index).toList := by
  intro member
  have text : (restName index).toList = "rest".toList ++ Nat.toDigits 10 index := by
    rw [restName, String.toList_append]
    exact congrArg _ Nat.toList_repr
  rw [text, List.mem_append] at member
  rcases member with early | late
  · exact absurd early (by decide)
  · exact Nat.underscore_not_in_toDigits late

theorem restName_ne_raw (index : Nat) (var : String) : restName index ≠ var ++ "_raw" := by
  intro same
  refine restName_underscore index ?_
  rw [same, String.toList_append]
  exact List.mem_append_right _ (by decide)

@[simp] theorem restVar_succ (index : Nat) : restVar (index + 1) = restName (index + 1) := if_neg (Nat.succ_ne_zero index)

end Names

section Environments

theorem Env.get_cons (env : Env) (var other : String) (value : Term) :
    Env.get ((var, value) :: env) other = if other = var then value else env.get other := by
  rw [Env.get, Env.get, List.lookup_cons]
  by_cases same : other = var
  · simp [same]
  · rw [if_neg same, beq_eq_false_iff_ne.mpr same]

end Environments

section Fields
variable (ast : Ast) (invoke : String → Term → Except Raised Term)

/-- What decoding one field comes to. -/
def FieldReads (type : String) (data value rest : Term) : Prop :=
  match ast.shape type with
  | some (.primitive primitive) => invoke primitive.reader data = .ok (.tuple [value, rest])
  | some (.enum _) => ∃ raw, invoke "decode_uint8" data = .ok (.tuple [raw, rest]) ∧
      invoke (snakeCase type) raw = .ok value
  | _ => invoke (decName type) data = .ok (.tuple [value, rest])

/-- The names that decoding one field binds besides that of what is left. -/
def fieldNames (field : String × String) : List String :=
  match ast.shape field.1 with
  | some (.enum _) => [snakeCase field.2, snakeCase field.2 ++ "_raw"]
  | _ => [snakeCase field.2]

/-- One field after another. -/
inductive FieldsRead : List (String × String) → Term → List Term → Term → Prop
  | nil {data} : FieldsRead [] data [] data
  | cons {type name data value next fields values rest} : FieldReads ast invoke type data value next →
      FieldsRead fields next values rest → FieldsRead ((type, name) :: fields) data (value :: values) rest

/-- An environment after the field of some name has been decoded. -/
structure Bound (field : String × String) (restOut : String) (value rest : Term) (env after : Env) : Prop where
  value : after.get (snakeCase field.2) = value
  rest : after.get restOut = rest
  others : ∀ other, other ∉ fieldNames ast field → other ≠ restOut → after.get other = env.get other

variable {ast invoke}

theorem decodeFieldExpr_eq (type var restIn restOut : String) :
    decodeFieldExpr (buildTypeMap ast) type var restIn restOut =
      match ast.shape type with
      | some (.primitive primitive) => [.take var restOut primitive.reader restIn]
      | some (.enum _) =>
        [.take (var ++ "_raw") restOut "decode_uint8" restIn, .apply var (snakeCase type) (var ++ "_raw")]
      | _ => [.take var restOut (decName type) restIn] := by
  rw [decodeFieldExpr, Ast.shape]
  cases Primitive.ofName type with
  | some primitive => cases primitive <;> rfl
  | none =>
    cases (buildTypeMap ast).lookup type with
    | none => rfl
    | some node => cases node <;> rfl

theorem take_run {env : Env} {var restOut fn restIn : String} (apart : var ≠ restOut) {after : Env} :
    (DecodeBinding.take var restOut fn restIn).run invoke env = .ok after ↔
      ∃ value rest, invoke fn (env.get restIn) = .ok (.tuple [value, rest]) ∧
        after = (var, value) :: (restOut, rest) :: env := by
  rw [DecodeBinding.run]
  constructor
  · intro done
    obtain ⟨found, called, done⟩ := Fallible.bind_ok.mp done
    split at done
    next value rest =>
      rw [if_neg fun both => apart both.1] at done
      exact ⟨value, rest, called, (Except.ok.inj done).symm⟩
    next => cases done
  · rintro ⟨value, rest, called, rfl⟩
    refine Fallible.bind_ok.mpr ⟨_, called, ?_⟩
    exact if_neg fun both => apart both.1

theorem bound_take {field : String × String} {restOut : String} {value rest : Term} {env : Env}
    (apart : snakeCase field.2 ≠ restOut) :
    Bound ast field restOut value rest env ((snakeCase field.2, value) :: (restOut, rest) :: env) where
  value := by rw [Env.get_cons, if_pos rfl]
  rest := by rw [Env.get_cons, if_neg apart.symm, Env.get_cons, if_pos rfl]
  others other outside different := by
    have fresh : other ≠ snakeCase field.2 := by
      rintro rfl
      refine outside ?_
      rw [fieldNames]
      split
      · exact List.mem_cons_self
      · exact List.mem_cons_self
    rw [Env.get_cons, if_neg fresh, Env.get_cons, if_neg different]

theorem bound_apply {field : String × String} {variants : List (String × Nat)} {restOut : String} {value rest : Term}
    {env : Env} (raw : Term) (shape : ast.shape field.1 = some (.enum variants)) (apart : snakeCase field.2 ≠ restOut)
    (rawApart : restOut ≠ snakeCase field.2 ++ "_raw") :
    Bound ast field restOut value rest env
      ((snakeCase field.2, value) :: (snakeCase field.2 ++ "_raw", raw) :: (restOut, rest) :: env) where
  value := by rw [Env.get_cons, if_pos rfl]
  rest := by rw [Env.get_cons, if_neg apart.symm, Env.get_cons, if_neg rawApart, Env.get_cons, if_pos rfl]
  others other outside different := by
    simp only [fieldNames, shape, List.mem_cons, List.not_mem_nil, or_false, not_or] at outside
    rw [Env.get_cons, if_neg outside.1, Env.get_cons, if_neg outside.2, Env.get_cons, if_neg different]

theorem runBindings_single {binding : DecodeBinding} {env after : Env} :
    runBindings invoke env [binding] = .ok after ↔ binding.run invoke env = .ok after := by
  rw [runBindings]
  constructor
  · intro done
    obtain ⟨next, ran, same⟩ := Fallible.bind_ok.mp done
    cases same
    exact ran
  · intro ran
    exact Fallible.bind_ok.mpr ⟨_, ran, rfl⟩

/-- The bindings of a field do what decoding it comes to. -/
theorem runBindings_field {env : Env} {field : String × String} {restIn : String} {index : Nat}
    (apart : snakeCase field.2 ≠ restName index) :
    (∀ after, runBindings invoke env
        (decodeFieldExpr (buildTypeMap ast) field.1 (snakeCase field.2) restIn (restName index)) = .ok after →
      ∃ value rest, FieldReads ast invoke field.1 (env.get restIn) value rest ∧
        Bound ast field (restName index) value rest env after) ∧
    ∀ value rest, FieldReads ast invoke field.1 (env.get restIn) value rest →
      ∃ after, runBindings invoke env
        (decodeFieldExpr (buildTypeMap ast) field.1 (snakeCase field.2) restIn (restName index)) = .ok after ∧
        Bound ast field (restName index) value rest env after := by
  have rawApart : snakeCase field.2 ++ "_raw" ≠ restName index := (restName_ne_raw index _).symm
  rw [decodeFieldExpr_eq]
  have single (fn : String) (reads : ∀ value rest, FieldReads ast invoke field.1 (env.get restIn) value rest ↔
      invoke fn (env.get restIn) = .ok (.tuple [value, rest])) :
      (∀ after, runBindings invoke env [.take (snakeCase field.2) (restName index) fn restIn] = .ok after →
        ∃ value rest, FieldReads ast invoke field.1 (env.get restIn) value rest ∧
          Bound ast field (restName index) value rest env after) ∧
      ∀ value rest, FieldReads ast invoke field.1 (env.get restIn) value rest →
        ∃ after, runBindings invoke env [.take (snakeCase field.2) (restName index) fn restIn] = .ok after ∧
          Bound ast field (restName index) value rest env after := by
    simp only [runBindings_single, take_run apart, reads]
    constructor
    · rintro _ ⟨value, rest, called, rfl⟩
      exact ⟨value, rest, called, bound_take apart⟩
    · intro value rest called
      exact ⟨_, ⟨value, rest, called, rfl⟩, bound_take apart⟩
  cases shape : ast.shape field.1 with
  | none => exact single (decName field.1) fun value rest => by rw [FieldReads, shape]
  | some found =>
    cases found with
    | primitive primitive => exact single primitive.reader fun value rest => by rw [FieldReads, shape]
    | record fields => exact single (decName field.1) fun value rest => by rw [FieldReads, shape]
    | enum variants =>
      simp only [FieldReads, shape]
      constructor
      · intro after done
        obtain ⟨middle, taken, done⟩ := Fallible.bind_ok.mp done
        obtain ⟨raw, rest, called, rfl⟩ := (take_run rawApart).mp taken
        obtain ⟨value, named, same⟩ := Fallible.bind_ok.mp (runBindings_single.mp done)
        cases same
        rw [Env.get_cons, if_pos rfl] at named
        exact ⟨value, rest, ⟨raw, called, named⟩, bound_apply raw shape apart rawApart.symm⟩
      · rintro value rest ⟨raw, called, named⟩
        refine ⟨_, Fallible.bind_ok.mpr ⟨_, (take_run rawApart).mpr ⟨raw, rest, called, rfl⟩, ?_⟩,
          bound_apply raw shape apart rawApart.symm⟩
        refine runBindings_single.mpr (Fallible.bind_ok.mpr ⟨value, ?_, rfl⟩)
        rw [Env.get_cons, if_pos rfl]
        exact named

end Fields

section Records
variable {ast : Ast} {invoke : String → Term → Except Raised Term}

/-- The names that are bound from some field on are different. -/
structure Apart (ast : Ast) (index : Nat) (fields : List (String × String)) : Prop where
  vars : (recordVars fields).Nodup
  rests : ∀ later, index < later → later ≤ index + fields.length → restName later ∉ recordVars fields
  raws : ∀ field ∈ fields, ∀ variants, ast.shape field.1 = some (.enum variants) →
    snakeCase field.2 ++ "_raw" ∉ recordVars fields

/-- An environment after the fields from some index on have been decoded. -/
structure Filled (ast : Ast) (fields : List (String × String)) (index : Nat) (values : List Term) (rest : Term)
    (env after : Env) : Prop where
  values : (recordVars fields).map after.get = values
  rest : after.get (restVar (index + fields.length)) = rest
  others : ∀ other, other ∉ fields.flatMap (fieldNames ast) →
    (∀ later, index < later → later ≤ index + fields.length → other ≠ restName later) → after.get other = env.get other

theorem Apart.tail {index : Nat} {field : String × String} {fields : List (String × String)}
    (apart : Apart ast index (field :: fields)) : Apart ast (index + 1) fields where
  vars := (List.nodup_cons.mp apart.vars).2
  rests later above below := by
    have outside := apart.rests later (by omega) (by rw [List.length_cons]; omega)
    exact fun member => outside (List.mem_cons_of_mem _ member)
  raws other member variants shape := by
    have outside := apart.raws other (List.mem_cons_of_mem _ member) variants shape
    exact fun among => outside (List.mem_cons_of_mem _ among)

/-- No name of a later field is that of the first one. -/
theorem Apart.head_fresh {index : Nat} {field : String × String} {fields : List (String × String)}
    (apart : Apart ast index (field :: fields)) : snakeCase field.2 ∉ fields.flatMap (fieldNames ast) := by
  intro member
  obtain ⟨other, among, named⟩ := List.mem_flatMap.mp member
  have different : snakeCase field.2 ≠ snakeCase other.2 := fun same =>
    (List.nodup_cons.mp apart.vars).1 (List.mem_map.mpr ⟨other, among, same.symm⟩)
  rw [fieldNames] at named
  split at named
  next variants shape =>
    have raw := apart.raws other (List.mem_cons_of_mem _ among) variants shape
    rcases List.mem_cons.mp named with same | later
    · exact different same
    · exact raw (List.mem_singleton.mp later ▸ List.mem_cons_self)
  next => exact different (List.mem_singleton.mp named)

theorem Filled.cons {index : Nat} {field : String × String} {fields : List (String × String)} {value next rest : Term}
    {values : List Term} {env middle after : Env} (apart : Apart ast index (field :: fields))
    (bound : Bound ast field (restName (index + 1)) value next env middle)
    (filled : Filled ast fields (index + 1) values rest middle after) :
    Filled ast (field :: fields) index (value :: values) rest env after where
  values := by
    have kept : after.get (snakeCase field.2) = middle.get (snakeCase field.2) := by
      refine filled.others _ apart.head_fresh fun later above below same => ?_
      exact apart.rests later (by omega) (by rw [List.length_cons]; omega) (same ▸ List.mem_cons_self)
    rw [recordVars, List.map_cons, List.map_cons, kept, bound.value]
    exact congrArg _ filled.values
  rest := by
    have same : index + (field :: fields).length = index + 1 + fields.length := by rw [List.length_cons]; omega
    rw [same]
    exact filled.rest
  others other outside different := by
    rw [List.flatMap_cons, List.mem_append, not_or] at outside
    rw [filled.others other outside.2 fun later above below => different later (by omega) (by rw [List.length_cons]; omega)]
    exact bound.others other outside.1 (different (index + 1) (by omega) (by rw [List.length_cons]; omega))

theorem runBindings_append {env after : Env} {bindings later : List DecodeBinding} :
    runBindings invoke env (bindings ++ later) = .ok after ↔
      ∃ middle, runBindings invoke env bindings = .ok middle ∧ runBindings invoke middle later = .ok after := by
  induction bindings generalizing env with
  | nil => exact ⟨fun done => ⟨env, rfl, done⟩, fun ⟨_, same, done⟩ => Except.ok.inj same ▸ done⟩
  | cons binding rest ih =>
    simp only [List.cons_append, runBindings]
    constructor
    · intro done
      obtain ⟨next, ran, done⟩ := Fallible.bind_ok.mp done
      obtain ⟨middle, first, last⟩ := ih.mp done
      exact ⟨middle, Fallible.bind_ok.mpr ⟨next, ran, first⟩, last⟩
    · rintro ⟨middle, first, last⟩
      obtain ⟨next, ran, first⟩ := Fallible.bind_ok.mp first
      exact Fallible.bind_ok.mpr ⟨next, ran, ih.mpr ⟨middle, first, last⟩⟩

theorem Apart.head {index : Nat} {field : String × String} {fields : List (String × String)}
    (apart : Apart ast index (field :: fields)) : snakeCase field.2 ≠ restName (index + 1) := fun same =>
  apart.rests (index + 1) (by omega) (by rw [List.length_cons]; omega) (same ▸ List.mem_cons_self)

theorem filled_nil (index : Nat) (env : Env) : Filled ast [] index [] (env.get (restVar index)) env env :=
  ⟨rfl, rfl, fun _ _ _ => rfl⟩

theorem runBindings_sound {index : Nat} {fields : List (String × String)} {env after : Env}
    (apart : Apart ast index fields)
    (done : runBindings invoke env (decodeBindings (buildTypeMap ast) index fields) = .ok after) :
    ∃ values rest, FieldsRead ast invoke fields (env.get (restVar index)) values rest ∧
      Filled ast fields index values rest env after := by
  induction fields generalizing index env with
  | nil =>
    cases done
    exact ⟨[], _, .nil, filled_nil index _⟩
  | cons field fields ih =>
    obtain ⟨middle, first, last⟩ := runBindings_append.mp done
    obtain ⟨value, next, reads, bound⟩ := (runBindings_field apart.head).1 middle first
    obtain ⟨values, rest, later, filled⟩ := ih apart.tail last
    rw [restVar_succ, bound.rest] at later
    exact ⟨value :: values, rest, .cons reads later, filled.cons apart bound⟩

theorem runBindings_complete {index : Nat} {fields : List (String × String)} {env : Env} {values : List Term} {rest : Term}
    (apart : Apart ast index fields) (reads : FieldsRead ast invoke fields (env.get (restVar index)) values rest) :
    ∃ after, runBindings invoke env (decodeBindings (buildTypeMap ast) index fields) = .ok after ∧
      Filled ast fields index values rest env after := by
  induction fields generalizing index env values with
  | nil =>
    cases reads
    exact ⟨env, rfl, filled_nil index env⟩
  | cons field fields ih =>
    cases reads with
    | @cons type name _ value next _ values _ first later =>
      obtain ⟨middle, ran, bound⟩ := (runBindings_field apart.head).2 value next first
      rw [← bound.rest, ← restVar_succ] at later
      obtain ⟨after, done, filled⟩ := ih apart.tail later
      exact ⟨after, runBindings_append.mpr ⟨middle, ran, done⟩, filled.cons apart bound⟩

end Records

section Maps

theorem foldl_putKey {entries : List (String × Term)} {before : List (String × Term)}
    (once : ((before ++ entries).map Prod.fst).Nodup) : entries.foldl putKey before = before ++ entries := by
  induction entries generalizing before with
  | nil => rw [List.foldl_nil, List.append_nil]
  | cons entry rest ih =>
    have fresh : before.lookup entry.1 = none := by
      rw [List.lookup_eq_none_iff]
      intro other member
      rw [List.map_append, List.map_cons] at once
      have apart := (List.nodup_append.mp once).2.2 _ (List.mem_map_of_mem member) entry.1 List.mem_cons_self
      exact bne_iff_ne.mpr apart.symm
    rw [List.append_cons] at once
    rw [List.foldl_cons, putKey, fresh, if_neg (by simp), ih once, List.append_assoc]
    rfl

theorem map_of_env {vars : List String} (once : vars.Nodup) (env : Env) :
    (vars.map fun var => (var, env.get var)).foldl putKey [] = vars.zip (vars.map env.get) := by
  rw [foldl_putKey, List.nil_append]
  · induction vars with
    | nil => rfl
    | cons var rest ih => rw [List.map_cons, List.map_cons, List.zip_cons_cons, ih (List.nodup_cons.mp once).2]
  · simpa [Function.comp_def] using once

end Maps

end Burble.Bebop
