import Burble.Bytes
import Burble.Bebop.Writing

namespace Burble.Bebop

/-- The functions by which terms are encoded and decoded, what decoding a term in front of more
data returns, and what it returns to say that it has failed. -/
structure CodecFunctions where
  enc : String
  dec : String
  result : Term → List UInt8 → Term
  failed : Term → Prop

def recordCodec (name : String) : CodecFunctions where
  enc := encName name
  dec := decName name
  result value rest := .tuple [value, .binary rest]
  failed _ := False

/-- The rest is the last one of three items, and an error is returned and not raised. -/
def unionCodec : CodecFunctions where
  enc := "encode"
  dec := "decode"
  result value rest :=
    match value with
    | .tuple items => .tuple (items ++ [.binary rest])
    | other => .tuple [other, .binary rest]
  failed found := ∃ reason, found = .tuple [.atom "error", reason]

/-- A term is encoded, and decoded in front of any data and from no proper part of its bytes. -/
def RoundTrips (module : Module) (codec : CodecFunctions) (value : Term) : Prop :=
  ∃ bytes, Returns module codec.enc value (.binary bytes) ∧
    (∀ rest, Returns module codec.dec (.binary (bytes ++ rest)) (codec.result value rest)) ∧
    ∀ front back, bytes = front ++ back → back ≠ [] →
      ∀ fuel found, call module fuel codec.dec (.binary front) = .ok found → codec.failed found

/-- What is decoded is encoded again to the bytes that it has been decoded from. -/
def Canonical (module : Module) (codec : CodecFunctions) : Prop :=
  ∀ fuel data found, call module fuel codec.dec (.binary data) = .ok found → codec.failed found ∨
    ∃ value bytes rest, found = codec.result value rest ∧ Returns module codec.enc value (.binary bytes) ∧
      data = bytes ++ rest

/-- The terms of a union: the atom of a variant with a term of its type. -/
def IsVariant (ast : Ast) (fits : List UInt8 → Prop) (variants : List (Nat × String × String)) (value : Term) : Prop :=
  ∃ variant ∈ variants, ∃ depth msg, value = .tuple [.atom (snakeCase variant.2.2), msg] ∧
    HasType ast fits depth variant.2.1 msg

/-- The generated module compiles, and its codecs round trip. -/
structure Faithful (ast : Ast) (module : Module) : Prop where
  compiles : module.compiles = true
  records : ∀ record ∈ ast.records, ∀ depth value, HasFields ast Short depth record.2 value →
    RoundTrips module (recordCodec record.1) value
  recordsCanonical : ∀ record ∈ ast.records, Canonical module (recordCodec record.1)
  unions : ∀ union ∈ ast.unions, ∀ value, IsVariant ast Short union.2 value → RoundTrips module unionCodec value
  unionsCanonical : ast.unions ≠ [] → Canonical module unionCodec

/-- Records have fields, the types of fields are primitives, enumerations and records, and there
is one union with values, which comes first and carries records, strings and truth values. -/
structure Supported (ast : Ast) : Prop extends Fielded ast where
  carried : ∀ union ∈ ast.unions, ∀ variant ∈ union.2, ast.carried variant.2.1
  first : ∀ union ∈ ast.unions.tail, ∀ value, ¬ IsVariant ast Short union.2 value

section Returning
variable {module : Module} {fn : String} {arg result other : Term}

theorem Returns.unique (returns : Returns module fn arg result) (again : Returns module fn arg other) : result = other := by
  obtain ⟨enough, done⟩ := returns
  obtain ⟨more, agree⟩ := again
  have one := done (max enough more) (le_max_left _ _)
  rw [agree (max enough more) (le_max_right _ _)] at one
  exact (Except.ok.inj one).symm

theorem Returns.call (returns : Returns module fn arg result) : ∃ fuel, call module fuel fn arg = .ok result := by
  obtain ⟨enough, done⟩ := returns
  exact ⟨enough, done enough le_rfl⟩

/-- Codecs that are exact round trip. -/
theorem roundTrips_of_codec (codec : CodecFunctions) {written : Term → List UInt8 → Prop}
    (exact : Codec written fun data value rest => Returns module codec.dec (.binary data) (codec.result value rest))
    (encodes : ∀ {value bytes}, written value bytes → Returns module codec.enc value (.binary bytes))
    (sound : ∀ {fuel data found}, call module fuel codec.dec (.binary data) = .ok found → codec.failed found ∨
      ∃ value bytes rest, found = codec.result value rest ∧ written value bytes ∧ data = bytes ++ rest)
    {value : Term} {bytes : List UInt8} (wrote : written value bytes) : RoundTrips module codec value := by
  refine ⟨bytes, encodes wrote, fun rest => exact.complete wrote rest, ?_⟩
  rintro front back rfl some fuel found done
  rcases sound done with failed | ⟨other, again, rest, rfl, same, rfl⟩
  · exact failed
  · exact absurd (exact.whole wrote (exact.complete same rest)) some

theorem canonical_of_sound (codec : CodecFunctions) {written : Term → List UInt8 → Prop}
    (encodes : ∀ {value bytes}, written value bytes → Returns module codec.enc value (.binary bytes))
    (sound : ∀ {fuel data found}, call module fuel codec.dec (.binary data) = .ok found → codec.failed found ∨
      ∃ value bytes rest, found = codec.result value rest ∧ written value bytes ∧ data = bytes ++ rest) :
    Canonical module codec := by
  intro fuel data found done
  rcases sound done with failed | ⟨value, bytes, rest, same, wrote, split⟩
  · exact .inl failed
  · exact .inr ⟨value, bytes, rest, same, encodes wrote, split⟩

end Returning

section Records
variable {ast : Ast} {module : Module} (generated : generateModule ast = some module) (named : Named ast)
  (fielded : Fielded ast)
include generated named fielded

theorem record_sound {name : String} {fields : List (String × String)} (declared : (name, fields) ∈ ast.records)
    {fuel : Nat} {data : List UInt8} {found : Term} (done : call module fuel (decName name) (.binary data) = .ok found) :
    ∃ value bytes rest, found = .tuple [value, .binary rest] ∧ (∃ depth, WrittenFields ast depth fields value bytes) ∧
      data = bytes ++ rest := by
  cases fuel with
  | zero => cases done
  | succ fuel =>
    have whole := done
    rw [call, clauses_decName generated named declared, List.findSome?_cons, Body.run] at done
    simp only [Option.getD_some] at done
    obtain ⟨after, _, same⟩ := Fallible.bind_ok.mp done
    cases same
    obtain ⟨values, reads, same⟩ := (call_decName_iff generated named fielded declared).mp whole
    obtain ⟨bytes, tail, parts, left, split⟩ := parts_of_fieldsRead
      (fun known reads => fieldReads_sound generated named fielded known reads) (fielded.known _ declared) reads
    exact ⟨_, bytes, tail, by rw [left], ⟨fuel, values, same, parts⟩, split⟩

theorem record_laid {name : String} {fields : List (String × String)} (declared : (name, fields) ∈ ast.records) {depth : Nat}
    {value : Term} {bytes : List UInt8} (laid : LaidFields ast (fun _ => some 1) depth fields value bytes)
    (rest : List UInt8) : Returns module (decName name) (.binary (bytes ++ rest)) (.tuple [value, .binary rest]) := by
  obtain ⟨values, rfl, parts⟩ := laid
  refine ⟨depth + 1, fun fuel enough => ?_⟩
  obtain ⟨fuel, rfl⟩ : ∃ less, fuel = less + 1 := ⟨fuel - 1, by omega⟩
  refine (call_decName_iff generated named fielded declared).mpr ⟨values, ?_, rfl⟩
  exact fieldsRead_of_parts (fun laid => fieldReads_laid generated named fielded laid (by omega)) parts rest

theorem record_complete (small : Small ast) {name : String} {fields : List (String × String)}
    (declared : (name, fields) ∈ ast.records) {depth : Nat} {value : Term} {bytes : List UInt8}
    (wrote : WrittenFields ast depth fields value bytes) (rest : List UInt8) :
    Returns module (decName name) (.binary (bytes ++ rest)) (.tuple [value, .binary rest]) := by
  obtain ⟨values, same, parts⟩ := wrote
  exact record_laid generated named fielded declared ⟨values, same, parts.imp fun _ _ => laid_of_written small⟩ rest

theorem record_encodes {name : String} {fields : List (String × String)} (declared : (name, fields) ∈ ast.records)
    {depth : Nat} {value : Term} {bytes : List UInt8} (wrote : WrittenFields ast depth fields value bytes) :
    Returns module (encName name) value (.binary bytes) := by
  obtain ⟨values, rfl, parts⟩ := wrote
  refine ⟨depth + 1, fun fuel enough => ?_⟩
  obtain ⟨fuel, rfl⟩ : ∃ less, fuel = less + 1 := ⟨fuel - 1, by omega⟩
  exact call_encName_parts generated named fielded
    (fun wrote bound => encodeFieldExpr_run generated named fielded wrote (by omega) bound) declared parts

theorem record_codec (small : Small ast) {name : String} {fields : List (String × String)}
    (declared : (name, fields) ∈ ast.records) :
    Codec (fun value bytes => ∃ depth, WrittenFields ast depth fields value bytes)
      fun data value rest => Returns module (decName name) (.binary data) (.tuple [value, .binary rest]) where
  complete := fun ⟨_, wrote⟩ rest => record_complete generated named fielded small declared wrote rest
  sound returns := by
    obtain ⟨fuel, done⟩ := returns.call
    obtain ⟨value, bytes, rest, same, wrote, split⟩ := record_sound generated named fielded declared done
    cases same
    exact ⟨bytes, wrote, split⟩
  unique one two := by
    have same := one.unique two
    cases same
    exact ⟨rfl, rfl⟩

theorem record_roundTrips (small : Small ast) {name : String} {fields : List (String × String)}
    (declared : (name, fields) ∈ ast.records) {depth : Nat} {value : Term} (typed : HasFields ast Short depth fields value) :
    RoundTrips module (recordCodec name) value := by
  obtain ⟨bytes, wrote⟩ := (hasFields_iff ast).mp typed
  exact roundTrips_of_codec (recordCodec name) (record_codec generated named fielded small declared)
    (fun ⟨_, wrote⟩ => record_encodes generated named fielded declared wrote)
    (fun done => .inr (record_sound generated named fielded declared done)) ⟨depth, wrote⟩

theorem record_canonical {name : String} {fields : List (String × String)} (declared : (name, fields) ∈ ast.records) :
    Canonical module (recordCodec name) :=
  canonical_of_sound (recordCodec name) (fun ⟨_, wrote⟩ => record_encodes generated named fielded declared wrote)
    (fun done => .inr (record_sound generated named fielded declared done))

end Records

section Carried
variable {ast : Ast} {invoke : String → Term → Except Raised Term} {type : String}

theorem carried_reads (carried : ast.carried type) (data value rest : Term) :
    FieldReads ast invoke type data value rest ↔ invoke (decName type) data = .ok (.tuple [value, rest]) := by
  rcases carried with ⟨fields, shape⟩ | rfl | rfl
  · rw [FieldReads, shape]
  · rw [show decName "string" = Primitive.reader .string by decide]
    exact Iff.rfl
  · rw [show decName "bool" = Primitive.reader .bool by decide]
    exact Iff.rfl

theorem carried_known (carried : ast.carried type) : (ast.shape type).isSome = true := by
  rcases carried with ⟨fields, shape⟩ | rfl | rfl
  · rw [shape]; rfl
  · rfl
  · rfl

theorem carried_expr (carried : ast.carried type) (var : String) :
    encodeFieldExpr (buildTypeMap ast) type var = .call (encName type) var := by
  rcases carried with ⟨fields, shape⟩ | rfl | rfl
  · rw [encodeFieldExpr_eq, shape]
  · rw [show encName "string" = "encode_string" by decide]; rfl
  · rw [show encName "bool" = "encode_bool" by decide]; rfl

/-- The bytes of a variant: its tag and the bytes of its term. -/
def VariantWritten (ast : Ast) (variants : List (Nat × String × String)) (value : Term) (bytes : List UInt8) : Prop :=
  ∃ variant ∈ variants, ∃ depth msg payload, value = .tuple [.atom (snakeCase variant.2.2), msg] ∧
    Written ast depth variant.2.1 msg payload ∧ bytes = variant.1.toUInt8 :: payload

theorem isVariant_iff {variants : List (Nat × String × String)} {value : Term} :
    IsVariant ast Short variants value ↔ ∃ bytes, VariantWritten ast variants value bytes := by
  constructor
  · rintro ⟨variant, member, depth, msg, same, typed⟩
    obtain ⟨payload, wrote⟩ := (hasType_iff ast).mp typed
    exact ⟨_, variant, member, depth, msg, payload, same, wrote, rfl⟩
  · rintro ⟨_, variant, member, depth, msg, payload, same, wrote, _⟩
    exact ⟨variant, member, depth, msg, same, (hasType_iff ast).mpr ⟨payload, wrote⟩⟩

end Carried

section Clauses
variable {invoke : String → Term → Except Raised Term}

def decodeMsg (invoke : String → Term → Except Raised Term) (payload : List UInt8) (variant : Nat × String × String) :
    Except Raised Term := do
  match ← invoke (decName variant.2.1) (.binary payload) with
  | .tuple [msg, rest] => .ok (.tuple [.atom (snakeCase variant.2.2), msg, rest])
  | _ => .error .matchError

def encodeMsg (invoke : String → Term → Except Raised Term) (msg : Term) (variant : Nat × String × String) :
    Except Raised Term := do
  match ← invoke (encName variant.2.1) msg with
  | .binary payload => .ok (.binary (variant.1.toUInt8 :: payload))
  | _ => .error .badArgument

theorem decodeVariant_run (variants : List (Nat × String × String)) (byte : UInt8) (payload : List UInt8) :
    (variants.map fun variant => Body.decodeVariant variant.1 (decName variant.2.1) (snakeCase variant.2.2)).findSome?
        (fun body => body.run invoke (.binary (byte :: payload))) =
      (variants.find? fun variant => decide (byte.toNat = variant.1)).map (decodeMsg invoke payload) := by
  induction variants with
  | nil => rfl
  | cons variant rest ih =>
    rw [List.map_cons, List.findSome?_cons, List.find?_cons, Body.run]
    by_cases same : byte.toNat = variant.1
    · rw [if_pos same, decide_eq_true same]
      rfl
    · rw [if_neg same, decide_eq_false same]
      exact ih

theorem encodeVariant_run (variants : List (Nat × String × String)) (atom : String) (msg : Term) :
    (variants.map fun variant => Body.encodeVariant (snakeCase variant.2.2) (encName variant.2.1) variant.1).findSome?
        (fun body => body.run invoke (.tuple [.atom atom, msg])) =
      (variants.find? fun variant => decide (atom = snakeCase variant.2.2)).map (encodeMsg invoke msg) := by
  induction variants with
  | nil => rfl
  | cons variant rest ih =>
    rw [List.map_cons, List.findSome?_cons, List.find?_cons, Body.run]
    by_cases same : atom = snakeCase variant.2.2
    · rw [if_pos same, decide_eq_true same]
      rfl
    · rw [if_neg same, decide_eq_false same]
      exact ih

theorem decodeMsg_ok {payload : List UInt8} {variant : Nat × String × String} {found : Term} :
    decodeMsg invoke payload variant = .ok found ↔ ∃ msg rest,
      invoke (decName variant.2.1) (.binary payload) = .ok (.tuple [msg, rest]) ∧
        found = .tuple [.atom (snakeCase variant.2.2), msg, rest] := by
  constructor
  · intro done
    obtain ⟨result, called, done⟩ := Fallible.bind_ok.mp done
    split at done
    next msg rest =>
      cases done
      exact ⟨msg, rest, called, rfl⟩
    next => cases done
  · rintro ⟨msg, rest, called, rfl⟩
    exact Fallible.bind_ok.mpr ⟨_, called, rfl⟩

end Clauses

section Unions
variable {ast : Ast} {module : Module} (generated : generateModule ast = some module) (named : Named ast)
include generated named

theorem clauses_decode : module.clauses "decode" = ast.unions.flatMap fun union =>
    (union.2.map fun variant => .decodeVariant variant.1 (decName variant.2.1) (snakeCase variant.2.2)) ++
      [.decodeUnknown union.1, .decodeEmpty] := by
  rw [clauses_union generated named (.inr rfl), Ast.unionDefinitions, List.filter_flatMap, List.flatMap_assoc]
  refine List.flatMap_congr fun (name, variants) _ => ?_
  show (List.filter _ (genUnionCodec name variants)).flatMap Definition.bodies = _
  rw [genUnionCodec, List.filter_cons_of_neg (by simp), List.filter_cons_of_pos (by simp), List.filter_nil,
    List.flatMap_singleton]

theorem clauses_encode : module.clauses "encode" = ast.unions.flatMap fun union =>
    (union.2.map fun variant => .encodeVariant (snakeCase variant.2.2) (encName variant.2.1) variant.1) ++
      [.encodeUnknown union.1] := by
  rw [clauses_union generated named (.inl rfl), Ast.unionDefinitions, List.filter_flatMap, List.flatMap_assoc]
  refine List.flatMap_congr fun (name, variants) _ => ?_
  show (List.filter _ (genUnionCodec name variants)).flatMap Definition.bodies = _
  rw [genUnionCodec, List.filter_cons_of_pos (by simp), List.filter_cons_of_neg (by simp), List.filter_nil,
    List.flatMap_singleton]

/-- Decoding goes by the variants of the first union. -/
theorem call_decode {union : String × List (Nat × String × String)} {later : List (String × List (Nat × String × String))}
    (unions : ast.unions = union :: later) (fuel : Nat) (byte : UInt8) (payload : List UInt8) :
    call module (fuel + 1) "decode" (.binary (byte :: payload)) =
      match union.2.find? fun variant => decide (byte.toNat = variant.1) with
      | some variant => decodeMsg (call module fuel) payload variant
      | none => .ok (.tuple [.atom "error", .binary (utf8 s!"Unknown {union.1} discriminator tag: {byte}")]) := by
  rw [call, clauses_decode generated named, unions, List.flatMap_cons, List.findSome?_append, List.findSome?_append,
    decodeVariant_run]
  cases union.2.find? fun variant => decide (byte.toNat = variant.1) with
  | some variant => rfl
  | none => rfl

theorem call_decode_nil {union : String × List (Nat × String × String)}
    {later : List (String × List (Nat × String × String))} (unions : ast.unions = union :: later) (fuel : Nat) :
    call module (fuel + 1) "decode" (.binary []) =
      .ok (.tuple [.atom "error", .binary (utf8 "Empty input — no discriminator tag")]) := by
  have variants : (union.2.map fun variant => Body.decodeVariant variant.1 (decName variant.2.1)
      (snakeCase variant.2.2)).findSome? (fun body => body.run (call module fuel) (.binary [])) = none :=
    findSome_none fun body member => by
      obtain ⟨variant, _, rfl⟩ := List.mem_map.mp member
      rfl
  rw [call, clauses_decode generated named, unions, List.flatMap_cons, List.findSome?_append, List.findSome?_append,
    variants]
  rfl

/-- Encoding goes by the variants of the first union. -/
theorem call_encode {union : String × List (Nat × String × String)} {later : List (String × List (Nat × String × String))}
    (unions : ast.unions = union :: later) (fuel : Nat) (atom : String) (msg : Term) :
    call module (fuel + 1) "encode" (.tuple [.atom atom, msg]) =
      match union.2.find? fun variant => decide (atom = snakeCase variant.2.2) with
      | some variant => encodeMsg (call module fuel) msg variant
      | none => .error (.unknownVariant union.1 (.atom atom)) := by
  rw [call, clauses_encode generated named, unions, List.flatMap_cons, List.findSome?_append, List.findSome?_append,
    encodeVariant_run]
  cases union.2.find? fun variant => decide (atom = snakeCase variant.2.2) with
  | some variant => rfl
  | none => rfl

variable (supported : Supported ast) {union : String × List (Nat × String × String)}
  {later : List (String × List (Nat × String × String))} (unions : ast.unions = union :: later)
include supported unions

theorem union_sound {fuel : Nat} {data : List UInt8} {found : Term}
    (done : call module fuel "decode" (.binary data) = .ok found) : unionCodec.failed found ∨
      ∃ value bytes rest, found = unionCodec.result value rest ∧ VariantWritten ast union.2 value bytes ∧
        data = bytes ++ rest := by
  have among : union ∈ ast.unions := unions ▸ List.mem_cons_self
  cases fuel with
  | zero => cases done
  | succ fuel =>
    cases data with
    | nil =>
      rw [call_decode_nil generated named unions] at done
      cases done
      exact .inl ⟨_, rfl⟩
    | cons byte payload =>
      rw [call_decode generated named unions] at done
      split at done
      next variant search =>
        have member := List.mem_of_find?_eq_some search
        have tag : byte.toNat = variant.1 := by simpa using List.find?_some search
        have carried := supported.carried union among variant member
        obtain ⟨msg, rest, called, rfl⟩ := decodeMsg_ok.mp done
        obtain ⟨bytes, tail, wrote, rfl, rfl⟩ := fieldReads_sound generated named supported.toFielded
          (carried_known carried) ((carried_reads carried _ _ _).mpr called)
        refine .inr ⟨_, _, tail, rfl, ⟨variant, member, fuel, msg, bytes, rfl, wrote, rfl⟩, ?_⟩
        rw [← tag, List.cons_append, Nat.toUInt8_eq, UInt8.ofNat_toNat]
      next =>
        cases done
        exact .inl ⟨_, rfl⟩

theorem union_encodes {value : Term} {bytes : List UInt8} (wrote : VariantWritten ast union.2 value bytes) :
    Returns module "encode" value (.binary bytes) := by
  have among : union ∈ ast.unions := unions ▸ List.mem_cons_self
  obtain ⟨variant, member, depth, msg, payload, rfl, wrote, rfl⟩ := wrote
  have carried := supported.carried union among variant member
  have atoms : (union.2.map fun variant => snakeCase variant.2.2).Nodup := by
    have all := named.unionAtoms
    rw [Ast.unionAtoms, unions, List.flatMap_cons] at all
    exact (List.nodup_append.mp all).1
  refine ⟨depth + 1, fun fuel enough => ?_⟩
  obtain ⟨fuel, rfl⟩ : ∃ less, fuel = less + 1 := ⟨fuel - 1, by omega⟩
  have found := find_key (fun variant : Nat × String × String => snakeCase variant.2.2) atoms member
  rw [call_encode generated named unions, found]
  have encoded := encodeFieldExpr_run generated named supported.toFielded wrote (by omega : depth ≤ fuel)
    (show Env.get [("msg", msg)] "msg" = msg from rfl)
  rw [carried_expr carried] at encoded
  exact Fallible.bind_ok.mpr ⟨.binary payload, encoded, rfl⟩

variable (small : Small ast)
include small

theorem union_complete {value : Term} {bytes : List UInt8} (wrote : VariantWritten ast union.2 value bytes)
    (rest : List UInt8) : Returns module "decode" (.binary (bytes ++ rest)) (unionCodec.result value rest) := by
  have among : union ∈ ast.unions := unions ▸ List.mem_cons_self
  obtain ⟨variant, member, depth, msg, payload, rfl, wrote, rfl⟩ := wrote
  have carried := supported.carried union among variant member
  have tag : (variant.1.toUInt8).toNat = variant.1 := UInt8.toNat_ofNat_of_lt (small.tags union among variant member)
  refine ⟨depth + 1, fun fuel enough => ?_⟩
  obtain ⟨fuel, rfl⟩ : ∃ less, fuel = less + 1 := ⟨fuel - 1, by omega⟩
  have found := find_key (Prod.fst : Nat × String × String → Nat) (named.unionTags union among) member
  rw [List.cons_append, call_decode generated named unions, tag, found]
  refine decodeMsg_ok.mpr ⟨msg, .binary rest, ?_, rfl⟩
  exact (carried_reads carried _ _ _).mp
    (fieldReads_complete generated named supported.toFielded small wrote (by omega) rest)

omit generated named supported unions small in
theorem result_inj {tag msg other inner : Term} {rest left : List UInt8}
    (same : unionCodec.result (.tuple [tag, msg]) rest = unionCodec.result (.tuple [other, inner]) left) :
    Term.tuple [tag, msg] = .tuple [other, inner] ∧ rest = left := by
  cases same
  exact ⟨rfl, rfl⟩

theorem union_codec : Codec (VariantWritten ast union.2)
    fun data value rest => (∃ bytes, VariantWritten ast union.2 value bytes) ∧
      Returns module "decode" (.binary data) (unionCodec.result value rest) where
  complete wrote rest := ⟨⟨_, wrote⟩, union_complete generated named supported unions small wrote rest⟩
  sound := by
    rintro data value rest ⟨⟨_, typed⟩, returns⟩
    obtain ⟨_, _, _, msg, _, rfl, _, _⟩ := typed
    obtain ⟨fuel, done⟩ := returns.call
    rcases union_sound generated named supported unions done with ⟨_, failed⟩ | ⟨other, bytes, tail, same, wrote, split⟩
    · exact absurd (congrArg List.length (Term.tuple.inj failed)) (by simp)
    · obtain ⟨_, _, _, inner, _, rfl, _, _⟩ := id wrote
      obtain ⟨equal, rfl⟩ := result_inj same
      exact ⟨bytes, equal ▸ wrote, split⟩
  unique := by
    rintro data value rest other left ⟨⟨_, one⟩, returns⟩ ⟨⟨_, two⟩, again⟩
    obtain ⟨_, _, _, _, _, rfl, _, _⟩ := one
    obtain ⟨_, _, _, _, _, rfl, _, _⟩ := two
    exact result_inj (returns.unique again)

end Unions

section Compiling
variable {ast : Ast} {module : Module}

theorem compiles_iff : module.compiles = true ↔ ∀ definition ∈ module, ∀ body ∈ definition.bodies,
    body.scoped = true ∧ ∀ fn ∈ body.callees, fn ∈ module.map Definition.name := by
  simp only [Module.compiles, List.all_eq_true, Bool.and_eq_true, decide_eq_true_eq]

/-- The variables of the bindings of a record are bound where they are read. -/
theorem inScope_decodeBindings {index : Nat} {fields : List (String × String)} {reads bound : List String}
    (input : restVar index ∈ bound) (enough : ∀ var ∈ reads, var ∈ bound ∨ var ∈ recordVars fields ∨
      fields ≠ [] ∧ var = restName (index + fields.length)) :
    inScope reads bound (decodeBindings (buildTypeMap ast) index fields) = true := by
  induction fields generalizing index bound with
  | nil =>
    rw [decodeBindings, inScope, List.all_eq_true]
    intro var member
    rcases enough var member with before | absent | ⟨absent, _⟩
    · exact decide_eq_true before
    · cases absent
    · exact absurd rfl absent
  | cons field rest ih =>
    obtain ⟨type, name⟩ := field
    have last : index + ((type, name) :: rest).length = index + 1 + rest.length := by rw [List.length_cons]; omega
    have next (more : List String) (within : ∀ var ∈ snakeCase name :: restName (index + 1) :: bound, var ∈ more) :
        inScope reads more (decodeBindings (buildTypeMap ast) (index + 1) rest) = true := by
      refine ih (within _ (by simp)) fun var member => ?_
      rcases enough var member with before | inside | ⟨_, same⟩
      · exact .inl (within _ (List.mem_cons_of_mem _ (List.mem_cons_of_mem _ before)))
      · rcases List.mem_cons.mp inside with rfl | later
        · exact .inl (within _ List.mem_cons_self)
        · exact .inr (.inl later)
      · rw [last] at same
        by_cases empty : rest = []
        · subst empty
          exact .inl (within _ (by simp [same]))
        · exact .inr (.inr ⟨empty, same⟩)
    rw [decodeBindings, decodeFieldExpr_eq]
    split
    · simp only [List.singleton_append, inScope, Bool.and_eq_true, decide_eq_true_eq]
      exact ⟨input, next _ fun var member => member⟩
    · simp only [List.cons_append, List.nil_append, inScope, Bool.and_eq_true, decide_eq_true_eq]
      refine ⟨input, List.mem_cons_self, next _ fun var member => ?_⟩
      rcases List.mem_cons.mp member with rfl | later
      · exact List.mem_cons_self
      · exact List.mem_cons_of_mem _ (List.mem_cons_of_mem _ later)
    · simp only [List.singleton_append, inScope, Bool.and_eq_true, decide_eq_true_eq]
      exact ⟨input, next _ fun var member => member⟩

section Callees
variable (generated : generateModule ast = some module)
include generated

theorem defined_of_plain {definition : Definition} (member : definition ∈ ast.plain) :
    definition.name ∈ module.map Definition.name :=
  List.mem_map.mpr ⟨definition, (mem_module generated).mpr (.inl member), rfl⟩

theorem defined_primitive {fn : String} (member : fn ∈ genPrimitives.map Definition.name) :
    fn ∈ module.map Definition.name := by
  obtain ⟨definition, among, rfl⟩ := List.mem_map.mp member
  exact defined_of_plain generated (List.mem_append_right _ among)

theorem defined_enum {name : String} {variants : List (String × Nat)} (declared : (name, variants) ∈ ast.enums) :
    snakeCase name ∈ module.map Definition.name := by
  refine @defined_of_plain ast module generated (genEnum name variants) ?_
  exact List.mem_append_left _ (List.mem_append_left _ (List.mem_map.mpr ⟨_, declared, rfl⟩))

theorem defined_record {name : String} {fields : List (String × String)} (declared : (name, fields) ∈ ast.records)
    {definition : Definition} (member : definition ∈ genRecordCodec (buildTypeMap ast) name fields) :
    definition.name ∈ module.map Definition.name :=
  defined_of_plain generated
    (List.mem_append_left _ (List.mem_append_right _ (List.mem_flatMap.mpr ⟨_, declared, member⟩)))

/-- The functions by which a field of a known type is encoded and decoded. -/
theorem defined_field {type var restIn restOut : String} (known : (ast.shape type).isSome = true) :
    (∀ fn ∈ (encodeFieldExpr (buildTypeMap ast) type var).callees, fn ∈ module.map Definition.name) ∧
    ∀ fn ∈ (decodeFieldExpr (buildTypeMap ast) type var restIn restOut).map DecodeBinding.callee,
      fn ∈ module.map Definition.name := by
  rw [encodeFieldExpr_eq, decodeFieldExpr_eq]
  cases shape : ast.shape type with
  | none => rw [shape] at known; cases known
  | some found =>
    cases found with
    | primitive primitive =>
      constructor
      · intro fn member
        cases primitive <;> simp only [Primitive.expr, EncodeExpr.callees, List.mem_singleton, List.not_mem_nil] at member
        all_goals exact member ▸ defined_primitive generated (by decide)
      · intro fn member
        rw [List.map_singleton, List.mem_singleton] at member
        subst member
        show primitive.reader ∈ module.map Definition.name
        exact defined_primitive generated (by cases primitive <;> decide)
    | enum variants =>
      have declared := defined_enum generated (mem_enums shape)
      constructor
      · intro fn member
        exact List.mem_singleton.mp member ▸ declared
      · intro fn member
        rcases List.mem_cons.mp member with rfl | later
        · show "decode_uint8" ∈ module.map Definition.name
          exact defined_primitive generated (by decide)
        · exact List.mem_singleton.mp later ▸ declared
    | record fields =>
      have declared := mem_records shape
      constructor
      · intro fn member
        rw [List.mem_singleton.mp member]
        exact @defined_record ast module generated _ _ declared ⟨encName type, _⟩ List.mem_cons_self
      · intro fn member
        rw [List.mem_singleton.mp member]
        exact @defined_record ast module generated _ _ declared ⟨decName type, _⟩ (List.mem_cons_of_mem _ List.mem_cons_self)

theorem defined_carried {type : String} (carried : ast.carried type) :
    encName type ∈ module.map Definition.name ∧ decName type ∈ module.map Definition.name := by
  rcases carried with ⟨fields, shape⟩ | rfl | rfl
  · have declared := mem_records shape
    exact ⟨@defined_record ast module generated _ _ declared ⟨encName type, _⟩ List.mem_cons_self,
      @defined_record ast module generated _ _ declared ⟨decName type, _⟩ (List.mem_cons_of_mem _ List.mem_cons_self)⟩
  · exact ⟨defined_primitive generated (by decide), defined_primitive generated (by decide)⟩
  · exact ⟨defined_primitive generated (by decide), defined_primitive generated (by decide)⟩

theorem mem_functionNames {fn : String} (member : fn ∈ module.map Definition.name) : fn ∈ ast.functionNames := by
  obtain ⟨definition, among, rfl⟩ := List.mem_map.mp member
  rw [plain_names]
  rcases (mem_module generated).mp among with plain | union
  · exact List.mem_append_left _ (List.mem_map.mpr ⟨definition, plain, rfl⟩)
  · refine List.mem_append_right _ ?_
    rcases union_name union with same | same
    · rw [same]; decide
    · rw [same]; decide

theorem decodeBindings_callees {index : Nat} {fields : List (String × String)}
    (known : ∀ field ∈ fields, (ast.shape field.1).isSome = true) :
    ∀ fn ∈ (decodeBindings (buildTypeMap ast) index fields).map DecodeBinding.callee, fn ∈ module.map Definition.name := by
  induction fields generalizing index with
  | nil => exact fun fn member => absurd member List.not_mem_nil
  | cons field rest ih =>
    obtain ⟨type, name⟩ := field
    intro fn member
    rw [decodeBindings, List.map_append, List.mem_append] at member
    rcases member with here | later
    · exact (@defined_field ast module generated type (snakeCase name) _ _ (known _ List.mem_cons_self)).2 fn here
    · exact ih (fun field among => known field (List.mem_cons_of_mem _ among)) fn later

theorem compiles_of_supported (fielded : Fielded ast)
    (carried : ∀ union ∈ ast.unions, ∀ variant ∈ union.2, ast.carried variant.2.1) : module.compiles = true := by
  refine compiles_iff.mpr fun definition member body among => ?_
  rcases (mem_module generated).mp member with plain | union
  · rcases List.mem_append.mp plain with front | primitive
    · rcases List.mem_append.mp front with enum | record
      · obtain ⟨⟨name, variants⟩, _, rfl⟩ := List.mem_map.mp enum
        simp only [genEnum, List.mem_append, List.mem_map, List.mem_singleton] at among
        rcases among with (⟨_, _, rfl⟩ | ⟨_, _, rfl⟩) | rfl
        all_goals exact ⟨rfl, fun fn absent => absurd absent List.not_mem_nil⟩
      · obtain ⟨⟨name, fields⟩, declared, inside⟩ := List.mem_flatMap.mp record
        have known := fielded.known _ declared
        rcases List.mem_cons.mp inside with rfl | second
        · rw [List.mem_singleton.mp among]
          constructor
          · refine List.all_eq_true.mpr fun expr found => ?_
            obtain ⟨field, has, rfl⟩ := List.mem_map.mp found
            have var : (encodeFieldExpr (buildTypeMap ast) field.1 (snakeCase field.2)).var = snakeCase field.2 := by
              rw [encodeFieldExpr_eq]
              split
              next primitive _ => cases primitive <;> rfl
              · rfl
              · rfl
            rw [var]
            exact decide_eq_true (List.mem_map.mpr ⟨field, has, rfl⟩)
          · intro fn found
            obtain ⟨expr, listed, calls⟩ := List.mem_flatMap.mp found
            obtain ⟨field, has, rfl⟩ := List.mem_map.mp listed
            exact (@defined_field ast module generated field.1 (snakeCase field.2) "" "" (known field has)).1 fn calls
        · rw [List.mem_singleton.mp second] at among
          rw [List.mem_singleton.mp among]
          refine ⟨?_, decodeBindings_callees generated known⟩
          refine inScope_decodeBindings (List.mem_singleton.mpr rfl) fun var found => ?_
          rcases List.mem_append.mp found with inside | last
          · exact .inr (.inl inside)
          · refine .inr (.inr ⟨fielded.nonempty _ declared, ?_⟩)
            rw [Nat.zero_add]
            exact List.mem_singleton.mp last
    · simp only [genPrimitives, List.mem_cons, List.not_mem_nil, or_false] at primitive
      rcases primitive with rfl | rfl | rfl | rfl | rfl | rfl | rfl | rfl
      all_goals
        rw [List.mem_singleton.mp among]
        exact ⟨rfl, fun fn absent => absurd absent List.not_mem_nil⟩
  · obtain ⟨⟨name, variants⟩, declared, inside⟩ := List.mem_flatMap.mp union
    rcases List.mem_cons.mp inside with rfl | second
    · rcases List.mem_append.mp among with listed | last
      · obtain ⟨variant, has, rfl⟩ := List.mem_map.mp listed
        refine ⟨rfl, fun fn found => ?_⟩
        rw [List.mem_singleton.mp found]
        exact (defined_carried generated (carried _ declared variant has)).1
      · rw [List.mem_singleton.mp last]
        exact ⟨rfl, fun fn absent => absurd absent List.not_mem_nil⟩
    · rw [List.mem_singleton.mp second] at among
      rcases List.mem_append.mp among with listed | last
      · obtain ⟨variant, has, rfl⟩ := List.mem_map.mp listed
        refine ⟨rfl, fun fn found => ?_⟩
        rw [List.mem_singleton.mp found]
        exact (defined_carried generated (carried _ declared variant has)).2
      · simp only [List.mem_cons, List.not_mem_nil, or_false] at last
        rcases last with rfl | rfl
        all_goals exact ⟨rfl, fun fn absent => absurd absent List.not_mem_nil⟩

variable (named : Named ast) (compiles : module.compiles = true)
include named compiles

theorem fielded_of_compiles : Fielded ast := by
  have whole := compiles_iff.mp compiles
  have inside {name : String} {fields : List (String × String)} (declared : (name, fields) ∈ ast.records)
      {definition : Definition} (member : definition ∈ genRecordCodec (buildTypeMap ast) name fields) :
      definition ∈ module :=
    (mem_module generated).mpr (.inl
      (List.mem_append_left _ (List.mem_append_right _ (List.mem_flatMap.mpr ⟨_, declared, member⟩))))
  constructor
  · rintro ⟨name, fields⟩ declared empty
    have body := (whole _ (inside declared (List.mem_cons_of_mem _ List.mem_cons_self)) _ List.mem_cons_self).1
    dsimp only at empty
    subst empty
    have bound : restName 0 = "data" := by simpa [Body.scoped, recordVars, decodeBindings, inScope] using body
    exact absurd bound (by decide)
  · rintro ⟨name, fields⟩ declared field member
    by_contra absent
    have shape : ast.shape field.1 = none := by simpa using absent
    have callee : encName field.1 ∈ (Body.encodeFields (recordVars fields)
        (fields.map fun field => encodeFieldExpr (buildTypeMap ast) field.1 (snakeCase field.2))).callees := by
      refine List.mem_flatMap.mpr ⟨_, List.mem_map.mpr ⟨field, member, rfl⟩, ?_⟩
      rw [encodeFieldExpr_eq, shape]
      exact List.mem_singleton.mpr rfl
    have defined := (whole _ (inside declared List.mem_cons_self) _ List.mem_cons_self).2 _ callee
    exact named.fieldTypes _ declared field member shape (mem_functionNames generated defined)

theorem carried_of_compiles : ∀ union ∈ ast.unions, ∀ variant ∈ union.2, ast.carried variant.2.1 := by
  rintro ⟨name, variants⟩ declared variant member
  by_contra refused
  have inside : (⟨"encode", (variants.map fun entry => .encodeVariant (snakeCase entry.2.2) (encName entry.2.1) entry.1) ++
      [.encodeUnknown name]⟩ : Definition) ∈ module :=
    (mem_module generated).mpr (.inr (List.mem_flatMap.mpr ⟨_, declared, List.mem_cons_self⟩))
  have body := compiles_iff.mp compiles _ inside _
    (List.mem_append_left _ (List.mem_map.mpr ⟨variant, member, rfl⟩))
  have defined := body.2 (encName variant.2.1) (List.mem_singleton.mpr rfl)
  exact named.variantTypes _ declared variant member refused (mem_functionNames generated defined)

end Callees

end Compiling

section Main
variable {ast : Ast} {module : Module}

/-- The values of a later union are not encoded. -/
theorem first_of_roundTrips (generated : generateModule ast = some module) (named : Named ast)
    (unions : ∀ union ∈ ast.unions, ∀ value, IsVariant ast Short union.2 value → RoundTrips module unionCodec value) :
    ∀ union ∈ ast.unions.tail, ∀ value, ¬ IsVariant ast Short union.2 value := by
  intro union member value typed
  cases split : ast.unions with
  | nil =>
    rw [split] at member
    cases member
  | cons first later =>
    rw [split, List.tail_cons] at member
    obtain ⟨bytes, ⟨enough, encodes⟩, _⟩ := unions union (split ▸ List.mem_cons_of_mem _ member) value typed
    obtain ⟨variant, among, depth, msg, rfl, _⟩ := typed
    have atoms := named.unionAtoms
    rw [Ast.unionAtoms, split, List.flatMap_cons] at atoms
    have absent : first.2.find? (fun other => decide (snakeCase variant.2.2 = snakeCase other.2.2)) = none := by
      refine List.find?_eq_none.mpr fun other inside same => ?_
      refine (List.nodup_append.mp atoms).2.2 _ (List.mem_map.mpr ⟨other, inside, rfl⟩) (snakeCase variant.2.2) ?_
        (of_decide_eq_true same).symm
      exact List.mem_flatMap.mpr ⟨union, member, List.mem_map.mpr ⟨variant, among, rfl⟩⟩
    have failed := call_encode generated named split enough (snakeCase variant.2.2) msg
    rw [absent] at failed
    have done := encodes (enough + 1) (Nat.le_succ enough)
    rw [show unionCodec.enc = "encode" from rfl, failed] at done
    cases done

theorem faithful_of_supported (generated : generateModule ast = some module) (small : Small ast) (named : Named ast)
    (supported : Supported ast) : Faithful ast module where
  compiles := compiles_of_supported generated supported.toFielded supported.carried
  records := fun _ declared _ _ typed =>
    record_roundTrips generated named supported.toFielded small declared typed
  recordsCanonical := fun _ declared => record_canonical generated named supported.toFielded declared
  unions := by
    intro union member value typed
    cases split : ast.unions with
    | nil => rw [split] at member; cases member
    | cons first later =>
      rw [split] at member
      rcases List.mem_cons.mp member with rfl | among
      · obtain ⟨bytes, wrote⟩ := isVariant_iff.mp typed
        refine ⟨bytes, union_encodes generated named supported split wrote,
          fun rest => union_complete generated named supported split small wrote rest, ?_⟩
        rintro front back rfl some fuel found done
        rcases union_sound generated named supported split done with failed | ⟨other, again, rest, rfl, same, rfl⟩
        · exact failed
        · have codec := union_codec generated named supported split small
          have read := codec.complete same rest
          exact absurd (codec.whole wrote read) some
      · exact absurd typed (supported.first union (by rw [split]; exact among) value)
  unionsCanonical some := by
    obtain ⟨first, later, split⟩ := List.exists_cons_of_ne_nil some
    exact canonical_of_sound unionCodec (fun wrote => union_encodes generated named supported split wrote)
      (fun done => union_sound generated named supported split done)

theorem supported_of_faithful (generated : generateModule ast = some module) (named : Named ast)
    (faithful : Faithful ast module) : Supported ast where
  toFielded := fielded_of_compiles generated named faithful.compiles
  carried := carried_of_compiles generated named faithful.compiles
  first := first_of_roundTrips generated named faithful.unions

end Main

section Sample

def posted : Ast := [.struct "Post" [("string", "body"), ("uint16", "room")], .union "Event" [(1, "Post", "post")]]

theorem posted_record {record : String × List (String × String)} (declared : record ∈ posted.records) :
    record = ("Post", [("string", "body"), ("uint16", "room")]) := List.mem_singleton.mp declared

theorem posted_field {record : String × List (String × String)} (declared : record ∈ posted.records)
    {field : String × String} (member : field ∈ record.2) :
    ∃ primitive, posted.shape field.1 = some (.primitive primitive) := by
  rw [posted_record declared] at member
  simp only [List.mem_cons, List.not_mem_nil, or_false] at member
  rcases member with rfl | rfl
  · exact ⟨.string, rfl⟩
  · exact ⟨.uint16, rfl⟩

theorem posted_named : Named posted where
  functions := by decide
  vars := by decide
  rests record declared index above below := by
    rw [posted_record declared] at below ⊢
    have two : index ≤ 2 := below
    rcases (by omega : index = 1 ∨ index = 2) with rfl | rfl
    · decide
    · decide
  raws record declared field member variants shape := by
    obtain ⟨primitive, same⟩ := posted_field declared member
    rw [same] at shape
    cases shape
  enumAtoms := by decide
  enumValues := by decide
  unionAtoms := by decide
  unionTags := by decide
  fieldTypes record declared field member shape := by
    obtain ⟨primitive, same⟩ := posted_field declared member
    rw [same] at shape
    cases shape
  variantTypes union declared variant member refused := by
    rw [List.mem_singleton.mp (show union ∈ [("Event", [(1, "Post", "post")])] from declared)] at member
    rw [List.mem_singleton.mp member] at refused
    exact absurd (.inl ⟨_, rfl⟩) refused
  identifiers := by decide
  enumNames := by decide
  atoms := by decide

theorem posted_small : Small posted := ⟨by decide, by decide⟩

def noFields : Ast := [.struct "Ping" []]

def unionField : Ast :=
  [.struct "Post" [("uint8", "room")], .union "Event" [(1, "Post", "post")], .struct "Log" [("Event", "event")]]

def twoUnions : Ast :=
  [.struct "Post" [("uint8", "room")], .union "Up" [(1, "Post", "sent")], .union "Down" [(2, "Post", "got")]]

def got : Term := .tuple [.atom "got", .map [("room", .integer 1)]]

end Sample

end Burble.Bebop
