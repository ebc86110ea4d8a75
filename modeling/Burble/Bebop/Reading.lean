import Burble.Bebop.Functions
import Burble.Bebop.Bindings

namespace Burble.Bebop

section Primitives

def Primitive.read : Primitive → List UInt8 → Except Raised Term
  | string => decodeString
  | float32 => decodeFloat
  | uint8 => decodeUint 1
  | uint16 => decodeUint 2
  | uint32 => decodeUint 4
  | bool => decodeBool

theorem decodeUint_bytes {width value : Nat} (fits : value < 256 ^ width) (rest : List UInt8) :
    decodeUint width (littleEndian width value ++ rest) = .ok (.tuple [.integer value, .binary rest]) := by
  have enough : ¬ (littleEndian width value ++ rest).length < width := by
    rw [List.length_append, littleEndian_length]
    omega
  rw [decodeUint, if_neg enough, take_littleEndian, drop_littleEndian, ofLittleEndian_of_lt fits]

theorem decodeUint_ok {width : Nat} {data : List UInt8} {value rest : Term}
    (done : decodeUint width data = .ok (.tuple [value, rest])) :
    ∃ number tail, value = .integer number ∧ rest = .binary tail ∧ number < 256 ^ width ∧
      data = littleEndian width number ++ tail := by
  rw [decodeUint] at done
  split at done
  · cases done
  next enough =>
    cases done
    refine ⟨_, _, rfl, rfl, ofLittleEndian_take_lt width data, ?_⟩
    rw [littleEndian_take (by omega), List.take_append_drop]

theorem decodeString_bytes {bytes : List UInt8} (short : Short bytes) (rest : List UInt8) :
    decodeString (littleEndian 4 bytes.length ++ bytes ++ rest) = .ok (.tuple [.binary bytes, .binary rest]) := by
  have size := littleEndian_length 4 bytes.length
  rw [List.append_assoc, decodeString]
  simp only [take_littleEndian, drop_littleEndian, ofLittleEndian_of_lt short, List.length_append, size]
  rw [if_neg (by omega), if_neg (by omega), List.take_left, List.drop_left]

theorem decodeString_ok {data : List UInt8} {value rest : Term} (done : decodeString data = .ok (.tuple [value, rest])) :
    ∃ bytes tail, value = .binary bytes ∧ rest = .binary tail ∧ Short bytes ∧
      data = littleEndian 4 bytes.length ++ bytes ++ tail := by
  rw [decodeString] at done
  split at done
  · cases done
  next enough =>
    split at done
    · cases done
    next whole =>
      cases done
      have size : ((data.drop 4).take (ofLittleEndian (data.take 4))).length = ofLittleEndian (data.take 4) := by
        rw [List.length_take, List.length_drop]
        omega
      refine ⟨_, _, rfl, rfl, ?_, ?_⟩
      · rw [Short, size]
        exact ofLittleEndian_take_lt 4 data
      · rw [size, littleEndian_take (by omega), List.append_assoc, List.take_append_drop, List.take_append_drop]

theorem single_of_bits (single : Single) : single? single.bits = some single := by
  rw [single?, dif_pos single.fits, dif_pos single.finite]

theorem single_bits {bits : Nat} {single : Single} (found : single? bits = some single) : single.bits = bits := by
  rw [single?] at found
  split_ifs at found
  cases found
  rfl

theorem decodeFloat_bytes (single : Single) (rest : List UInt8) :
    decodeFloat (littleEndian 4 single.bits ++ rest) = .ok (.tuple [.float single, .binary rest]) := by
  have enough : ¬ (littleEndian 4 single.bits ++ rest).length < 4 := by
    rw [List.length_append, littleEndian_length]
    omega
  rw [decodeFloat]
  simp only [if_neg enough, take_littleEndian, drop_littleEndian, ofLittleEndian_of_lt single.fits, single_of_bits]

theorem decodeFloat_ok {data : List UInt8} {value rest : Term} (done : decodeFloat data = .ok (.tuple [value, rest])) :
    ∃ single tail, value = .float single ∧ rest = .binary tail ∧ data = littleEndian 4 single.bits ++ tail := by
  rw [decodeFloat] at done
  split at done
  · cases done
  next enough =>
    split at done
    next single found =>
      cases done
      refine ⟨single, _, rfl, rfl, ?_⟩
      rw [single_bits found, littleEndian_take (by omega), List.take_append_drop]
    next => cases done

theorem decodeBool_ok {data : List UInt8} {value rest : Term} (done : decodeBool data = .ok (.tuple [value, rest])) :
    ∃ name tail, value = .atom name ∧ rest = .binary tail ∧ (name = "true" ∨ name = "false") ∧
      data = (if name = "true" then 1 else 0) :: tail := by
  cases data with
  | nil => cases done
  | cons byte tail =>
    rw [decodeBool] at done
    split at done
    next one =>
      cases done
      exact ⟨_, tail, rfl, rfl, .inl rfl, by rw [one]; rfl⟩
    next =>
      split at done
      next zero =>
        cases done
        exact ⟨_, tail, rfl, rfl, .inr rfl, by rw [zero]; rfl⟩
      next => cases done

theorem Primitive.read_bytes {primitive : Primitive} {value : Term} (holds : primitive.Holds Short value)
    (rest : List UInt8) : primitive.read (primitive.bytes value ++ rest) = .ok (.tuple [value, .binary rest]) := by
  cases primitive <;> cases value <;> try exact holds.elim
  case string.binary bytes => exact decodeString_bytes holds rest
  case float32.float single => exact decodeFloat_bytes single rest
  case uint8.integer value => exact decodeUint_bytes holds rest
  case uint16.integer value => exact decodeUint_bytes holds rest
  case uint32.integer value => exact decodeUint_bytes holds rest
  case bool.atom name => rcases holds with rfl | rfl <;> rfl

theorem Primitive.read_ok {primitive : Primitive} {data : List UInt8} {value rest : Term}
    (done : primitive.read data = .ok (.tuple [value, rest])) :
    ∃ tail, rest = .binary tail ∧ primitive.Holds Short value ∧ data = primitive.bytes value ++ tail := by
  have uint {width : Nat} (done : decodeUint width data = .ok (.tuple [value, rest])) :
      ∃ tail, rest = .binary tail ∧ ∃ number, value = .integer number ∧ number < 256 ^ width ∧
        data = littleEndian width number ++ tail := by
    obtain ⟨number, tail, same, left, fits, split⟩ := decodeUint_ok done
    exact ⟨tail, left, number, same, fits, split⟩
  cases primitive with
  | string =>
    obtain ⟨bytes, tail, rfl, left, short, split⟩ := decodeString_ok done
    exact ⟨tail, left, short, split⟩
  | float32 =>
    obtain ⟨single, tail, rfl, left, split⟩ := decodeFloat_ok done
    exact ⟨tail, left, trivial, split⟩
  | uint8 =>
    obtain ⟨tail, left, number, rfl, fits, split⟩ := uint done
    exact ⟨tail, left, fits, split⟩
  | uint16 =>
    obtain ⟨tail, left, number, rfl, fits, split⟩ := uint done
    exact ⟨tail, left, fits, split⟩
  | uint32 =>
    obtain ⟨tail, left, number, rfl, fits, split⟩ := uint done
    exact ⟨tail, left, fits, split⟩
  | bool =>
    obtain ⟨name, tail, rfl, left, either, split⟩ := decodeBool_ok done
    exact ⟨tail, left, either, split⟩

end Primitives

section Shapes
variable {ast : Ast} {type : String}

theorem mem_typeMap {node : Node} (found : (buildTypeMap ast).lookup type = some node) : node ∈ ast ∧ node.name = type := by
  have each (nodes : Ast) (acc : TypeMap) (found : (nodes.foldl (fun acc node => AList.insert node.name node acc) acc).lookup
      type = some node) : acc.lookup type = some node ∨ node ∈ nodes ∧ node.name = type := by
    induction nodes generalizing acc with
    | nil => exact .inl found
    | cons head rest ih =>
      rcases ih _ found with before | ⟨member, named⟩
      · rw [FiniteMap.lookup_insert_if] at before
        split at before
        next same =>
          cases before
          exact .inr ⟨List.mem_cons_self, same.symm⟩
        next => exact .inl before
      · exact .inr ⟨List.mem_cons_of_mem _ member, named⟩
  rcases each ast ∅ found with none | declared
  · cases none
  · exact declared

theorem mem_enums {variants : List (String × Nat)} (shape : ast.shape type = some (.enum variants)) :
    (type, variants) ∈ ast.enums := by
  rw [Ast.shape] at shape
  split at shape
  · cases shape
  · split at shape
    next name baseType found lookup =>
      cases shape
      obtain ⟨member, rfl⟩ := mem_typeMap lookup
      exact List.mem_filterMap.mpr ⟨_, member, rfl⟩
    all_goals cases shape

theorem mem_records {fields : List (String × String)} (shape : ast.shape type = some (.record fields)) :
    (type, fields) ∈ ast.records := by
  rw [Ast.shape] at shape
  split at shape
  · cases shape
  · split at shape
    next => cases shape
    next name found lookup =>
      cases shape
      obtain ⟨member, rfl⟩ := mem_typeMap lookup
      exact List.mem_append_left _ (List.mem_filterMap.mpr ⟨_, member, rfl⟩)
    next name found lookup =>
      cases shape
      obtain ⟨member, rfl⟩ := mem_typeMap lookup
      refine List.mem_append_right _ (List.mem_map.mpr ⟨(name, found), ?_, rfl⟩)
      exact List.mem_filterMap.mpr ⟨_, member, rfl⟩
    next => cases shape

end Shapes

/-- Enumeration values and tags are of one byte. -/
structure Small (ast : Ast) : Prop where
  values : ∀ enum ∈ ast.enums, ∀ variant ∈ enum.2, variant.2 < 256
  tags : ∀ union ∈ ast.unions, ∀ variant ∈ union.2, variant.1 < 256

/-- Records have fields, and fields are of types that there are. -/
structure Fielded (ast : Ast) : Prop where
  nonempty : ∀ record ∈ ast.records, record.2 ≠ []
  known : ∀ record ∈ ast.records, ∀ field ∈ record.2, (ast.shape field.1).isSome = true

theorem laid_of_written {ast : Ast} (small : Small ast) {depth : Nat} {type : String} {value : Term} {bytes : List UInt8}
    (wrote : Written ast depth type value bytes) : Laid ast (fun _ => some 1) depth type value bytes := by
  induction depth generalizing type value bytes with
  | zero => exact wrote.elim
  | succ depth ih =>
    simp only [Written] at wrote
    simp only [Laid]
    cases shape : ast.shape type with
    | none => rw [shape] at wrote; exact wrote.elim
    | some found =>
      rw [shape] at wrote
      cases found with
      | primitive primitive => exact wrote
      | enum variants =>
        obtain ⟨variant, member, rfl, rfl⟩ := wrote
        exact ⟨1, rfl, variant, member, rfl, small.values _ (mem_enums shape) variant member, rfl⟩
      | record fields =>
        obtain ⟨values, rfl, parts⟩ := wrote
        exact ⟨values, rfl, parts.imp fun _ _ => ih⟩

section Enumerations
variable {invoke : String → Term → Except Raised Term}

theorem toAtom_run (variants : List (String × Nat)) (value : Nat) :
    (variants.map fun variant => Body.toAtom variant.2 (snakeCase variant.1)).findSome?
        (fun body => body.run invoke (.integer value)) =
      (variants.find? fun variant => decide (value = variant.2)).map fun variant => .ok (.atom (snakeCase variant.1)) := by
  induction variants with
  | nil => rfl
  | cons variant rest ih =>
    rw [List.map_cons, List.findSome?_cons, List.find?_cons, Body.run]
    by_cases same : value = variant.2
    · rw [if_pos same, decide_eq_true same]
      rfl
    · rw [if_neg same, decide_eq_false same]
      exact ih

theorem toInteger_run (variants : List (String × Nat)) (atom : String) :
    (variants.map fun variant => Body.toInteger (snakeCase variant.1) variant.2).findSome?
        (fun body => body.run invoke (.atom atom)) =
      (variants.find? fun variant => decide (atom = snakeCase variant.1)).map fun variant => .ok (.integer variant.2) := by
  induction variants with
  | nil => rfl
  | cons variant rest ih =>
    rw [List.map_cons, List.findSome?_cons, List.find?_cons, Body.run]
    by_cases same : atom = snakeCase variant.1
    · rw [if_pos same, decide_eq_true same]
      rfl
    · rw [if_neg same, decide_eq_false same]
      exact ih

theorem find_key {Item Key : Type} [DecidableEq Key] (key : Item → Key) {items : List Item} (once : (items.map key).Nodup)
    {item : Item} (member : item ∈ items) : items.find? (fun other => decide (key item = key other)) = some item := by
  cases search : items.find? fun other => decide (key item = key other) with
  | none => exact absurd (decide_eq_true rfl) (List.find?_eq_none.mp search item member)
  | some other =>
    have same : key item = key other := by simpa using List.find?_some search
    rw [List.inj_on_of_nodup_map once member (List.mem_of_find?_eq_some search) same]

theorem findSome_none {bodies : List Body} {arg : Term} (other : ∀ body ∈ bodies, body.run invoke arg = none) :
    bodies.findSome? (fun body => body.run invoke arg) = none := List.findSome?_eq_none_iff.mpr other

end Enumerations

theorem apart_of_named {ast : Ast} (named : Named ast) {name : String} {fields : List (String × String)}
    (declared : (name, fields) ∈ ast.records) : Apart ast 0 fields where
  vars := named.vars _ declared
  rests later above below := named.rests _ declared later above (by rwa [Nat.zero_add] at below)
  raws field member variants shape := named.raws _ declared field member variants shape

section Calls
variable {ast : Ast} {module : Module} (generated : generateModule ast = some module) (named : Named ast)
include generated named

theorem call_reader (primitive : Primitive) (fuel : Nat) (data : List UInt8) :
    call module (fuel + 1) primitive.reader (.binary data) = primitive.read data := by
  have found {definition : Definition} (member : definition ∈ genPrimitives) :
      module.clauses definition.name = definition.bodies :=
    clauses_plain generated named (List.mem_append_right _ member)
  rw [call]
  cases primitive with
  | string => rw [Primitive.reader, @found ⟨"decode_string", [.decodeString]⟩ (by decide)]; rfl
  | float32 => rw [Primitive.reader, @found ⟨"decode_float32", [.decodeFloat]⟩ (by decide)]; rfl
  | uint8 => rw [Primitive.reader, @found ⟨"decode_uint8", [.decodeUint 1]⟩ (by decide)]; rfl
  | uint16 => rw [Primitive.reader, @found ⟨"decode_uint16", [.decodeUint 2]⟩ (by decide)]; rfl
  | uint32 => rw [Primitive.reader, @found ⟨"decode_uint32", [.decodeUint 4]⟩ (by decide)]; rfl
  | bool => rw [Primitive.reader, @found ⟨"decode_bool", [.decodeBool]⟩ (by decide)]; rfl

theorem clauses_enum {name : String} {variants : List (String × Nat)} (declared : (name, variants) ∈ ast.enums) :
    module.clauses (snakeCase name) =
      (variants.map fun variant => .toInteger (snakeCase variant.1) variant.2) ++
        (variants.map fun variant => .toAtom variant.2 (snakeCase variant.1)) ++ [.unknownValue name] := by
  refine @clauses_plain ast module generated named (genEnum name variants) ?_
  exact List.mem_append_left _ (List.mem_append_left _ (List.mem_map.mpr ⟨_, declared, rfl⟩))

theorem call_enum_integer {name : String} {variants : List (String × Nat)} (declared : (name, variants) ∈ ast.enums)
    (fuel value : Nat) : call module (fuel + 1) (snakeCase name) (.integer value) =
      match variants.find? fun variant => decide (value = variant.2) with
      | some variant => .ok (.atom (snakeCase variant.1))
      | none => .error (.decodeError s!"unknown {name} value {value}") := by
  have other : (variants.map fun variant => Body.toInteger (snakeCase variant.1) variant.2).findSome?
      (fun body => body.run (call module fuel) (.integer value)) = none :=
    findSome_none fun body member => by
      obtain ⟨variant, _, rfl⟩ := List.mem_map.mp member
      rfl
  rw [call, clauses_enum generated named declared, List.findSome?_append, List.findSome?_append, other, toAtom_run]
  cases variants.find? fun variant => decide (value = variant.2) with
  | some variant => rfl
  | none => rfl

theorem call_enum_atom {name : String} {variants : List (String × Nat)} (declared : (name, variants) ∈ ast.enums)
    (fuel : Nat) {variant : String × Nat} (member : variant ∈ variants) :
    call module (fuel + 1) (snakeCase name) (.atom (snakeCase variant.1)) = .ok (.integer variant.2) := by
  have once := named.enumAtoms _ declared
  have found := find_key (fun variant : String × Nat => snakeCase variant.1) once member
  rw [call, clauses_enum generated named declared, List.findSome?_append, List.findSome?_append, toInteger_run, found]
  rfl

theorem call_enum_value {name : String} {variants : List (String × Nat)} (declared : (name, variants) ∈ ast.enums)
    (fuel : Nat) {variant : String × Nat} (member : variant ∈ variants) :
    call module (fuel + 1) (snakeCase name) (.integer variant.2) = .ok (.atom (snakeCase variant.1)) := by
  have once := named.enumValues _ declared
  have found := find_key (Prod.snd : String × Nat → Nat) once member
  rw [call_enum_integer generated named declared, found]

theorem call_enum_ok {name : String} {variants : List (String × Nat)} (declared : (name, variants) ∈ ast.enums)
    {fuel value : Nat} {result : Term} (done : call module (fuel + 1) (snakeCase name) (.integer value) = .ok result) :
    ∃ variant ∈ variants, value = variant.2 ∧ result = .atom (snakeCase variant.1) := by
  rw [call_enum_integer generated named declared] at done
  split at done
  next variant search =>
    cases done
    exact ⟨variant, List.mem_of_find?_eq_some search, by simpa using List.find?_some search, rfl⟩
  next => cases done

theorem clauses_decName {name : String} {fields : List (String × String)} (declared : (name, fields) ∈ ast.records) :
    module.clauses (decName name) = [.decodeFields (decodeBindings (buildTypeMap ast) 0 fields) (recordVars fields)
      (restName fields.length)] := by
  refine @clauses_plain ast module generated named ⟨decName name, _⟩ ?_
  refine List.mem_append_left _ (List.mem_append_right _ (List.mem_flatMap.mpr ⟨_, declared, ?_⟩))
  exact List.mem_cons_of_mem _ List.mem_cons_self

/-- The decoder of a record reads its fields. -/
theorem call_decName_iff (fielded : Fielded ast) {name : String} {fields : List (String × String)}
    (declared : (name, fields) ∈ ast.records) {fuel : Nat} {data value rest : Term} :
    call module (fuel + 1) (decName name) data = .ok (.tuple [value, rest]) ↔
      ∃ values, FieldsRead ast (call module fuel) fields data values rest ∧ value = recordTerm fields values := by
  have apart := apart_of_named named declared
  have size : 0 < fields.length := List.length_pos_iff.mpr (fielded.nonempty _ declared)
  have last : restVar (0 + fields.length) = restName fields.length := by
    rw [Nat.zero_add, restVar, if_neg (by omega)]
  have start : Env.get [("data", data)] (restVar 0) = data := rfl
  have built {after : Env} {values : List Term} {left : Term}
      (filled : Filled ast fields 0 values left [("data", data)] after) :
      Term.tuple [.map (((recordVars fields).map fun var => (var, after.get var)).foldl putKey []),
        after.get (restName fields.length)] = .tuple [recordTerm fields values, left] := by
    have left := filled.rest
    rw [last] at left
    rw [map_of_env apart.vars, filled.values, left, recordTerm]
  rw [call, clauses_decName generated named declared, List.findSome?_cons, Body.run]
  simp only [Option.getD_some]
  constructor
  · intro done
    obtain ⟨after, ran, done⟩ := Fallible.bind_ok.mp done
    obtain ⟨values, left, reads, filled⟩ := runBindings_sound apart ran
    rw [built filled] at done
    cases done
    exact ⟨values, reads, rfl⟩
  · rintro ⟨values, reads, rfl⟩
    obtain ⟨after, ran, filled⟩ := runBindings_complete apart (start ▸ reads)
    refine Fallible.bind_ok.mpr ⟨after, ran, ?_⟩
    rw [built filled]

end Calls

section Parts
variable {ast : Ast} {invoke : String → Term → Except Raised Term} {written : String → Term → List UInt8 → Prop}
  {fields : List (String × String)} {values : List Term}

theorem parts_of_fieldsRead {data : List UInt8} {rest : Term}
    (each : ∀ {type data value rest}, (ast.shape type).isSome = true → FieldReads ast invoke type (.binary data) value rest →
      ∃ bytes tail, written type value bytes ∧ rest = .binary tail ∧ data = bytes ++ tail)
    (known : ∀ field ∈ fields, (ast.shape field.1).isSome = true)
    (reads : FieldsRead ast invoke fields (.binary data) values rest) :
    ∃ bytes tail, Parts written fields values bytes ∧ rest = .binary tail ∧ data = bytes ++ tail := by
  induction fields generalizing data values with
  | nil =>
    cases reads
    exact ⟨[], data, .nil, rfl, rfl⟩
  | cons field fields ih =>
    cases reads with
    | cons first later =>
      obtain ⟨bytes, next, wrote, rfl, rfl⟩ := each (known _ List.mem_cons_self) first
      obtain ⟨more, tail, parts, left, rfl⟩ := ih (fun field member => known field (List.mem_cons_of_mem _ member)) later
      exact ⟨bytes ++ more, tail, .cons wrote parts, left, (List.append_assoc _ _ _).symm⟩

theorem fieldsRead_of_parts {bytes : List UInt8}
    (each : ∀ {type value bytes}, written type value bytes → ∀ tail,
      FieldReads ast invoke type (.binary (bytes ++ tail)) value (.binary tail))
    (parts : Parts written fields values bytes) (tail : List UInt8) :
    FieldsRead ast invoke fields (.binary (bytes ++ tail)) values (.binary tail) := by
  induction parts with
  | nil => exact .nil
  | cons wrote _ ih =>
    rw [List.append_assoc]
    exact .cons (each wrote _) ih

end Parts

section Reading
variable {ast : Ast} {module : Module} (generated : generateModule ast = some module) (named : Named ast)
  (fielded : Fielded ast)
include generated named fielded

/-- Whatever has been read had been written so, in any number of steps. -/
theorem fieldReads_sound {fuel : Nat} {type : String} {data : List UInt8} {value rest : Term}
    (known : (ast.shape type).isSome = true) (reads : FieldReads ast (call module fuel) type (.binary data) value rest) :
    ∃ bytes tail, Written ast fuel type value bytes ∧ rest = .binary tail ∧ data = bytes ++ tail := by
  induction fuel generalizing type data value rest with
  | zero =>
    rw [FieldReads] at reads
    split at reads
    · cases reads
    · obtain ⟨_, called, _⟩ := reads
      cases called
    · cases reads
  | succ fuel ih =>
    rw [FieldReads] at reads
    simp only [Written]
    cases shape : ast.shape type with
    | none => rw [shape] at known; cases known
    | some found =>
      rw [shape] at reads
      cases found with
      | primitive primitive =>
        dsimp only at reads
        rw [call_reader generated named] at reads
        obtain ⟨tail, rfl, holds, split⟩ := Primitive.read_ok reads
        exact ⟨_, tail, ⟨holds, rfl⟩, rfl, split⟩
      | enum variants =>
        obtain ⟨raw, called, translated⟩ := reads
        rw [show "decode_uint8" = Primitive.reader .uint8 from rfl, call_reader generated named] at called
        obtain ⟨number, tail, rfl, rfl, _, split⟩ := decodeUint_ok called
        obtain ⟨variant, member, rfl, rfl⟩ := call_enum_ok generated named (mem_enums shape) translated
        exact ⟨_, tail, ⟨variant, member, rfl, rfl⟩, rfl, split⟩
      | record fields =>
        have declared := mem_records shape
        obtain ⟨values, inner, rfl⟩ := (call_decName_iff generated named fielded declared).mp reads
        obtain ⟨bytes, tail, parts, left, split⟩ := parts_of_fieldsRead ih (fielded.known _ declared) inner
        exact ⟨bytes, tail, ⟨values, rfl, parts⟩, left, split⟩

/-- What is laid out with enumerations of one byte is read, with fuel for its depth. -/
theorem fieldReads_laid {depth fuel : Nat} {type : String} {value : Term} {bytes : List UInt8}
    (laid : Laid ast (fun _ => some 1) depth type value bytes) (enough : depth ≤ fuel) (tail : List UInt8) :
    FieldReads ast (call module fuel) type (.binary (bytes ++ tail)) value (.binary tail) := by
  induction depth generalizing fuel type value bytes tail with
  | zero => exact laid.elim
  | succ depth ih =>
    obtain ⟨fuel, rfl⟩ : ∃ less, fuel = less + 1 := ⟨fuel - 1, by omega⟩
    simp only [Laid] at laid
    rw [FieldReads]
    cases shape : ast.shape type with
    | none => rw [shape] at laid; exact laid.elim
    | some found =>
      rw [shape] at laid
      cases found with
      | primitive primitive =>
        obtain ⟨holds, rfl⟩ := laid
        dsimp only
        rw [call_reader generated named]
        exact Primitive.read_bytes holds tail
      | enum variants =>
        obtain ⟨wide, one, variant, member, rfl, fits, rfl⟩ := laid
        cases one
        refine ⟨.integer variant.2, ?_, call_enum_value generated named (mem_enums shape) fuel member⟩
        rw [show "decode_uint8" = Primitive.reader .uint8 from rfl, call_reader generated named]
        exact decodeUint_bytes fits tail
      | record fields =>
        obtain ⟨values, rfl, parts⟩ := laid
        refine (call_decName_iff generated named fielded (mem_records shape)).mpr ⟨values, ?_, rfl⟩
        exact fieldsRead_of_parts (fun laid => ih laid (by omega)) parts tail

/-- Whatever has been written is read, with fuel for its depth. -/
theorem fieldReads_complete (small : Small ast) {depth fuel : Nat} {type : String} {value : Term} {bytes : List UInt8}
    (wrote : Written ast depth type value bytes) (enough : depth ≤ fuel) (tail : List UInt8) :
    FieldReads ast (call module fuel) type (.binary (bytes ++ tail)) value (.binary tail) :=
  fieldReads_laid generated named fielded (laid_of_written small wrote) enough tail

end Reading

end Burble.Bebop
