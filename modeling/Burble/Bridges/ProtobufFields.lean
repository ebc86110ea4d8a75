import Burble.Bytes

namespace Burble.Bridges

/-! The bridge's reader of protobuf fields. What raises in the source gives nothing here, as what is rescued there. -/

def decodeVarintValue : List UInt8 → Option (Nat × List UInt8)
  | [] => none
  | first :: rest =>
    let byte := first.toNat % 128
    if first.toNat < 128 then some (byte, rest)
    else do
      let (next, rest2) ← decodeVarintValue rest
      return (byte + next <<< 7, rest2)

/-- The number of a field, its wire type, and what follows. -/
def decodeTag (data : List UInt8) : Option (Nat × Nat × List UInt8) := do
  let (tag, rest) ← decodeVarintValue data
  return (tag >>> 3, tag &&& 0x07, rest)

/-- Nothing is left behind a field of another wire type, or behind one of fixed width that is cut off. -/
def skipField (data : List UInt8) (wireType : Nat) : Option (List UInt8) :=
  if wireType = 0 then (decodeVarintValue data).map Prod.snd
  else if wireType = 1 ∧ 8 ≤ data.length then some (data.drop 8)
  else if wireType = 2 then do
    let (length, rest) ← decodeVarintValue data
    if length ≤ rest.length then return rest.drop length else none
  else if wireType = 5 ∧ 4 ≤ data.length then some (data.drop 4)
  else some []

theorem decodeVarintValue_shorter {data rest : List UInt8} {value : Nat} (read : decodeVarintValue data = some (value, rest)) :
    rest.length < data.length := by
  induction data generalizing value with
  | nil => cases read
  | cons first data ih =>
    rw [decodeVarintValue] at read
    dsimp only at read
    split at read
    · cases read
      exact Nat.lt_succ_self _
    · obtain ⟨⟨next, later⟩, done, same⟩ := Option.bind_eq_some_iff.mp read
      cases same
      exact (ih done).trans (Nat.lt_succ_self _)

theorem decodeTag_shorter {data rest : List UInt8} {field wireType : Nat} (read : decodeTag data = some (field, wireType, rest)) :
    rest.length < data.length := by
  obtain ⟨⟨tag, later⟩, done, same⟩ := Option.bind_eq_some_iff.mp read
  cases same
  exact decodeVarintValue_shorter done

theorem skipField_le {data rest : List UInt8} {wireType : Nat} (skipped : skipField data wireType = some rest) :
    rest.length ≤ data.length := by
  have cut (count : Nat) (data : List UInt8) : (data.drop count).length ≤ data.length := (List.drop_sublist _ _).length_le
  unfold skipField at skipped
  split at skipped
  next =>
    obtain ⟨⟨_, later⟩, done, rfl⟩ := Option.map_eq_some_iff.mp skipped
    exact (decodeVarintValue_shorter done).le
  split at skipped
  next =>
    cases skipped
    exact cut _ _
  split at skipped
  next =>
    obtain ⟨⟨length, later⟩, done, whole⟩ := Option.bind_eq_some_iff.mp skipped
    dsimp only at whole
    split at whole
    next =>
      cases whole
      exact (cut _ _).trans (decodeVarintValue_shorter done).le
    next => cases whole
  split at skipped
  next =>
    cases skipped
    exact cut _ _
  next =>
    cases skipped
    exact Nat.zero_le _

/-- The value of the first field of some number and wire type. -/
def decodeField {Value : Type} (wireType : Nat) (read : List UInt8 → Option Value) (payload : List UInt8) (targetField : Nat) :
    Option Value :=
  match tagged : decodeTag payload with
  | none => none
  | some (field, wire, rest) =>
    if field = targetField ∧ wire = wireType then read rest
    else
      match skipped : skipField rest wire with
      | none => none
      | some later =>
        have : later.length < payload.length := (skipField_le skipped).trans_lt (decodeTag_shorter tagged)
        decodeField wireType read later targetField
termination_by payload.length

def decodeVarintField (payload : List UInt8) (targetField : Nat) : Option Nat :=
  decodeField 0 (fun rest => (decodeVarintValue rest).map Prod.fst) payload targetField

def decodeStringField (payload : List UInt8) (targetField : Nat) : Option (List UInt8) :=
  decodeField 2 (fun rest => do
    let (length, rest) ← decodeVarintValue rest
    if length ≤ rest.length then return rest.take length else none) payload targetField

def decodeBoolField (payload : List UInt8) (targetField : Nat) (default : Bool) : Bool :=
  match decodeVarintField payload targetField with
  | none => default
  | some 0 => false
  | some _ => true

end Burble.Bridges
