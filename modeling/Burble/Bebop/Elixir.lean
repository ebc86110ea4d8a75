import Burble.Bytes
import Burble.Fallible

namespace Burble.Bebop

/-- The bits of a float of 32 bits that is neither infinite nor a NaN. -/
structure Single where
  bits : Nat
  fits : bits < 256 ^ 4
  finite : bits / 2 ^ 23 % 256 ≠ 255
  deriving DecidableEq

/-- The terms that codecs work on. A map is listed in the order in which its keys have been put. -/
inductive Term
  | atom (name : String)
  | integer (value : Nat)
  | float (single : Single)
  | binary (bytes : List UInt8)
  | tuple (items : List Term)
  | map (entries : List (String × Term))

/-- What stops a function. A function that is still running has not been given enough fuel. -/
inductive Raised
  | decodeError (message : String)
  | unknownVariant (union : String) (tag : Term)
  | badArgument
  | functionClause
  | matchError
  | running

abbrev Env := List (String × Term)

/-- A variable that is in scope. -/
def Env.get (env : Env) (var : String) : Term := (env.lookup var).getD (.atom "nil")

/-- One operand of the concatenation that encodes a record. -/
inductive EncodeExpr
  | call (fn var : String)
  | float (var : String)
  | uint (width : Nat) (var : String)
  | enum (fn var : String)
  deriving DecidableEq

/-- `{var, restOut} = fn(restIn)` or `var = fn(arg)`. -/
inductive DecodeBinding
  | take (var restOut fn restIn : String)
  | apply (var fn arg : String)
  deriving DecidableEq

/-- The clauses of the functions that are generated. The clauses of one primitive are one body. -/
inductive Body
  | toInteger (atom : String) (value : Nat)
  | toAtom (value : Nat) (atom : String)
  | unknownValue (enum : String)
  | encodeFields (vars : List String) (exprs : List EncodeExpr)
  | decodeFields (bindings : List DecodeBinding) (vars : List String) (last : String)
  | encodeVariant (atom encFn : String) (tag : Nat)
  | encodeUnknown (union : String)
  | decodeVariant (tag : Nat) (decFn atom : String)
  | decodeUnknown (union : String)
  | decodeEmpty
  | encodeString
  | decodeString
  | encodeBool
  | decodeBool
  | decodeUint (width : Nat)
  | decodeFloat
  deriving DecidableEq

structure Definition where
  name : String
  bodies : List Body
  deriving DecidableEq

/-- The functions of a module in their order. Those of one name are clauses of one function. -/
abbrev Module := List Definition

def Module.clauses (module : Module) (fn : String) : List Body :=
  (module.filter fun definition => definition.name = fn).flatMap Definition.bodies

section Primitives

def decodeString (data : List UInt8) : Except Raised Term :=
  let size := ofLittleEndian (data.take 4)
  if data.length < 4 then .error (.decodeError s!"truncated string length prefix: {data.length} of 4 bytes")
  else if data.length - 4 < size then
    .error (.decodeError s!"string length {size} exceeds the {data.length - 4} bytes remaining")
  else .ok (.tuple [.binary ((data.drop 4).take size), .binary ((data.drop 4).drop size)])

def decodeBool : List UInt8 → Except Raised Term
  | [] => .error (.decodeError "truncated bool: 0 of 1 bytes")
  | byte :: rest =>
    if byte = 1 then .ok (.tuple [.atom "true", .binary rest])
    else if byte = 0 then .ok (.tuple [.atom "false", .binary rest])
    else .error (.decodeError s!"invalid bool byte {byte} (want 0 or 1)")

def decodeUint (width : Nat) (data : List UInt8) : Except Raised Term :=
  if data.length < width then
    .error (.decodeError s!"truncated uint{8 * width}: {data.length} of {width} bytes")
  else .ok (.tuple [.integer (ofLittleEndian (data.take width)), .binary (data.drop width)])

/-- The float with these bits, if they are of one. -/
def single? (bits : Nat) : Option Single :=
  if fits : bits < 256 ^ 4 then if finite : bits / 2 ^ 23 % 256 ≠ 255 then some ⟨bits, fits, finite⟩ else none
  else none

def decodeFloat (data : List UInt8) : Except Raised Term :=
  let failed := .error (.decodeError s!"truncated or non-finite float32 ({data.length} bytes available)")
  if data.length < 4 then failed
  else
    match single? (ofLittleEndian (data.take 4)) with
    | some single => .ok (.tuple [.float single, .binary (data.drop 4)])
    | none => failed

end Primitives

/-- A key of a map literal, of which the last one counts. -/
def putKey (entries : List (String × Term)) (entry : String × Term) : List (String × Term) :=
  if (entries.lookup entry.1).isSome then entries.map fun old => if old.1 = entry.1 then entry else old
  else entries ++ [entry]

section Running
variable (invoke : String → Term → Except Raised Term)

def EncodeExpr.run (env : Env) : EncodeExpr → Except Raised Term
  | call fn var => invoke fn (env.get var)
  | float var =>
    match env.get var with
    | .float single => .ok (.binary (littleEndian 4 single.bits))
    | _ => .error .badArgument
  | uint width var =>
    match env.get var with
    | .integer value => .ok (.binary (littleEndian width value))
    | _ => .error .badArgument
  | enum fn var => do
    match ← invoke fn (env.get var) with
    | .integer value => .ok (.binary (littleEndian 1 value))
    | _ => .error .badArgument

/-- The operands from the left to the right, all of them binaries. -/
def concat (env : Env) : List EncodeExpr → Except Raised (List UInt8)
  | [] => .ok []
  | expr :: rest => do
    match ← expr.run invoke env with
    | .binary bytes => do
      let later ← concat env rest
      .ok (bytes ++ later)
    | _ => .error .badArgument

/-- A variable that stands twice in a pattern stands for the same value. Here one of the two is
what is left of the data. -/
def sameTerm (value rest : Term) : Bool :=
  match value, rest with
  | .binary one, .binary other => one = other
  | _, _ => false

def DecodeBinding.run (env : Env) : DecodeBinding → Except Raised Env
  | take var restOut fn restIn => do
    match ← invoke fn (env.get restIn) with
    | .tuple [value, rest] =>
      if var = restOut ∧ sameTerm value rest = false then .error .matchError
      else .ok ((var, value) :: (restOut, rest) :: env)
    | _ => .error .matchError
  | apply var fn arg => do
    let value ← invoke fn (env.get arg)
    .ok ((var, value) :: env)

def runBindings (env : Env) : List DecodeBinding → Except Raised Env
  | [] => .ok env
  | binding :: rest => do
    let next ← binding.run invoke env
    runBindings next rest

/-- What a clause does with an argument that it takes. -/
def Body.run : Body → Term → Option (Except Raised Term)
  | toInteger atom value, .atom given => if given = atom then some (.ok (.integer value)) else none
  | toAtom value atom, .integer given => if given = value then some (.ok (.atom atom)) else none
  | unknownValue enum, .integer given => some (.error (.decodeError s!"unknown {enum} value {given}"))
  | encodeFields vars exprs, .map entries =>
    (vars.mapM fun var => (entries.lookup var).map fun value => (var, value)).map fun env =>
      if exprs = [] then .ok (.atom "nil")
      else do
        let bytes ← concat invoke env exprs
        .ok (.binary bytes)
  | decodeFields bindings vars last, data => some do
    let env ← runBindings invoke [("data", data)] bindings
    .ok (.tuple [.map ((vars.map fun var => (var, env.get var)).foldl putKey []), env.get last])
  | encodeVariant atom encFn tag, .tuple [.atom given, msg] =>
    if given = atom then some do
      match ← invoke encFn msg with
      | .binary payload => .ok (.binary (tag.toUInt8 :: payload))
      | _ => .error .badArgument
    else none
  | encodeUnknown union, .tuple [tag, _] => some (.error (.unknownVariant union tag))
  | decodeVariant tag decFn atom, .binary (byte :: payload) =>
    if byte.toNat = tag then some do
      match ← invoke decFn (.binary payload) with
      | .tuple [msg, rest] => .ok (.tuple [.atom atom, msg, rest])
      | _ => .error .matchError
    else none
  | decodeUnknown union, .binary (byte :: _) =>
    some (.ok (.tuple [.atom "error", .binary (utf8 s!"Unknown {union} discriminator tag: {byte}")]))
  | decodeEmpty, .binary [] => some (.ok (.tuple [.atom "error", .binary (utf8 "Empty input — no discriminator tag")]))
  | encodeString, .binary bytes => some (.ok (.binary (littleEndian 4 bytes.length ++ bytes)))
  | decodeString, .binary data => some (Bebop.decodeString data)
  | encodeBool, .atom given =>
    if given = "true" then some (.ok (.binary [1])) else if given = "false" then some (.ok (.binary [0])) else none
  | decodeBool, .binary data => some (Bebop.decodeBool data)
  | decodeUint width, .binary data => some (Bebop.decodeUint width data)
  | decodeFloat, .binary data => some (Bebop.decodeFloat data)
  | decodeString, _ | decodeUint _, _ | decodeFloat, _ => some (.error .badArgument)
  | _, _ => none

end Running

/-- A function is its first clause that takes the argument. -/
def call (module : Module) : Nat → String → Term → Except Raised Term
  | 0, _, _ => .error .running
  | fuel + 1, fn, arg =>
    ((module.clauses fn).findSome? fun body => body.run (call module fuel) arg).getD (.error .functionClause)

/-- A function comes to an end with a result. -/
def Returns (module : Module) (fn : String) (arg result : Term) : Prop :=
  ∃ enough, ∀ fuel ≥ enough, call module fuel fn arg = .ok result

section Compiling

def EncodeExpr.callees : EncodeExpr → List String
  | call fn _ | enum fn _ => [fn]
  | float _ | uint _ _ => []

def EncodeExpr.var : EncodeExpr → String
  | call _ var | float var | uint _ var | enum _ var => var

def DecodeBinding.callee : DecodeBinding → String
  | take _ _ fn _ | apply _ fn _ => fn

/-- The variables of some bindings and of what is read after them are bound where they stand. -/
def inScope (reads : List String) : List String → List DecodeBinding → Bool
  | bound, [] => reads.all fun var => var ∈ bound
  | bound, .take var restOut _ restIn :: rest => decide (restIn ∈ bound) && inScope reads (var :: restOut :: bound) rest
  | bound, .apply var _ arg :: rest => decide (arg ∈ bound) && inScope reads (var :: bound) rest

def Body.callees : Body → List String
  | encodeFields _ exprs => exprs.flatMap EncodeExpr.callees
  | decodeFields bindings _ _ => bindings.map DecodeBinding.callee
  | encodeVariant _ encFn _ => [encFn]
  | decodeVariant _ decFn _ => [decFn]
  | _ => []

def Body.scoped : Body → Bool
  | encodeFields vars exprs => exprs.all fun expr => expr.var ∈ vars
  | decodeFields bindings vars last => inScope (vars ++ [last]) ["data"] bindings
  | _ => true

/-- The compiler takes the module: all variables are bound, all functions called are defined. -/
def Module.compiles (module : Module) : Bool :=
  module.all fun definition => definition.bodies.all fun body =>
    body.scoped && body.callees.all fun fn => fn ∈ module.map Definition.name

end Compiling

end Burble.Bebop
