import Burble.Bridges.MumbleVarint
import Burble.Bridges.ProtobufFields
import Burble.FiniteMap

namespace Burble.Bridges

/-! Message types of the control channel. -/

@[match_pattern] def msgUdpTunnel : Nat := 1
@[match_pattern] def msgPing : Nat := 3
@[match_pattern] def msgChannelState : Nat := 7
@[match_pattern] def msgUserRemove : Nat := 8
@[match_pattern] def msgUserState : Nat := 9
@[match_pattern] def msgTextMessage : Nat := 11
@[match_pattern] def msgCodecVersion : Nat := 21
@[match_pattern] def msgPermissionDenied : Nat := 24

def opusType : Nat := 4

/-- A message of the control channel. -/
structure ControlMessage where
  msgType : Nat
  payload : List UInt8
  typeFits : msgType < 2 ^ 16
  lengthFits : payload.length < 2 ^ 32
  deriving DecidableEq

structure MumbleUser where
  sessionId : Nat
  name : Option (List UInt8)
  channelId : Option Nat
  muted : Bool
  deaf : Bool
  suppress : Bool
  deriving DecidableEq

/-- Three floats, each as the bits it was sent in. -/
structure Position where
  x : Nat
  y : Nat
  z : Nat
  deriving DecidableEq

/-- What the Burble room is told. -/
inductive RoomNotice
  | userMuted (sessionId : Nat) (name : Option (List UInt8))
  | userLeft (sessionId : Nat) (name : Option (List UInt8)) (reason : String)
  | userPosition (sessionId : Nat) (position : Position)
  | text (body : List UInt8)
  deriving DecidableEq

/-- The bridge, and what it has handled and broadcast, which it does not look at. -/
structure MumbleBridge where
  roomId : String
  mumbleChannel : List UInt8
  channelId : Option Nat
  mumbleUsers : FiniteMap Nat MumbleUser
  userPositions : FiniteMap Nat Position
  handled : List ControlMessage
  broadcasts : List (String × RoomNotice)

namespace MumbleBridge

def init (roomId : String) (mumbleChannel : List UInt8) : MumbleBridge := ⟨roomId, mumbleChannel, none, ∅, ∅, [], []⟩

def broadcast (state : MumbleBridge) (notice : RoomNotice) : MumbleBridge :=
  { state with broadcasts := state.broadcasts ++ [(s!"room:{state.roomId}", notice)] }

def handleUserState (payload : List UInt8) (state : MumbleBridge) : MumbleBridge :=
  match decodeVarintField payload 1 with
  | none => state
  | some sessionId =>
    let existing := state.mumbleUsers.lookup sessionId
    let user : MumbleUser := {
      sessionId
      name := (decodeStringField payload 2).or (existing.bind MumbleUser.name)
      channelId := (decodeVarintField payload 3).or (existing.bind MumbleUser.channelId)
      muted := decodeBoolField payload 7 ((existing.map MumbleUser.muted).getD false)
      deaf := decodeBoolField payload 8 ((existing.map MumbleUser.deaf).getD false)
      suppress := decodeBoolField payload 9 ((existing.map MumbleUser.suppress).getD false) }
    let state := if user.muted || user.suppress then state.broadcast (.userMuted sessionId user.name) else state
    { state with mumbleUsers := AList.insert sessionId user state.mumbleUsers }

def handleUserRemove (payload : List UInt8) (state : MumbleBridge) : MumbleBridge :=
  let actor := decodeVarintField payload 2
  let banned := decodeBoolField payload 4 false
  match decodeVarintField payload 1 with
  | none => state
  | some sessionId =>
    let name := match state.mumbleUsers.lookup sessionId with
      | some user => user.name
      | none => some (utf8 "unknown")
    let action := if banned then "banned" else if actor.isSome then "kicked" else "left"
    let state := state.broadcast (.userLeft sessionId name action)
    { state with mumbleUsers := AList.erase sessionId state.mumbleUsers }

def handleChannelState (payload : List UInt8) (state : MumbleBridge) : MumbleBridge :=
  let channelName := decodeStringField payload 3
  match decodeVarintField payload 1 with
  | some channelId => if channelName = some state.mumbleChannel then { state with channelId := some channelId } else state
  | none => state

def handleTextFromMumble (payload : List UInt8) (state : MumbleBridge) : MumbleBridge :=
  match decodeStringField payload 5 with
  | some message => state.broadcast (.text message)
  | none => state

/-- `little-float-32` matches no infinity, and nothing that is no number. -/
def float32 (bytes : List UInt8) : Option Nat :=
  let bits := ofLittleEndian bytes
  if bits >>> 23 &&& 0xFF = 0xFF then none else some bits

/-- The speaker of a voice packet and where it is, unless this is left out or something raises. -/
def tunnelPosition (rest : List UInt8) : Option (Nat × Position) := do
  let (sessionId, rest) ← MumbleVarint.decode rest
  let (_, rest) ← MumbleVarint.decode rest
  let (lenFlags, rest) ← MumbleVarint.decode rest
  let opusLen := lenFlags &&& 0x1FFF
  let posRest := rest.drop opusLen
  if opusLen ≤ rest.length ∧ 12 ≤ posRest.length then
    let x ← float32 (posRest.take 4)
    let y ← float32 ((posRest.drop 4).take 4)
    let z ← float32 ((posRest.drop 8).take 4)
    return (sessionId, ⟨x, y, z⟩)
  else none

/-- No clause takes an empty packet, and the `rescue` is inside of the one there is. -/
def handleUdpTunnel (payload : List UInt8) (state : MumbleBridge) : Option MumbleBridge :=
  match payload with
  | [] => none
  | typeTarget :: rest =>
    if typeTarget.toNat >>> 5 = opusType then
      match tunnelPosition rest with
      | some (sessionId, position) =>
        let state := state.broadcast (.userPosition sessionId position)
        some { state with userPositions := AList.insert sessionId position state.userPositions }
      | none => some state
    else some state

/-- The handling of one message. The process ends where something raises. -/
def handleControlMessage (state : MumbleBridge) (message : ControlMessage) : Option MumbleBridge :=
  let after := match message.msgType with
    | msgUserState => some (state.handleUserState message.payload)
    | msgUserRemove => some (state.handleUserRemove message.payload)
    | msgChannelState => some (state.handleChannelState message.payload)
    | msgTextMessage => some (state.handleTextFromMumble message.payload)
    | msgUdpTunnel => state.handleUdpTunnel message.payload
    | msgPermissionDenied => some state
    | msgCodecVersion => some state
    | msgPing => some state
    | _ => some state
  after.map fun state => { state with handled := state.handled ++ [message] }

/-! No handler of a payload touches what has been handled. -/

section Handled
variable (payload : List UInt8) (state : MumbleBridge)

@[simp] theorem broadcast_handled (notice : RoomNotice) : (state.broadcast notice).handled = state.handled := rfl

@[simp] theorem handleUserState_handled : (state.handleUserState payload).handled = state.handled := by
  unfold handleUserState
  split
  next => rfl
  next => dsimp only; split <;> rfl

@[simp] theorem handleUserRemove_handled : (state.handleUserRemove payload).handled = state.handled := by
  unfold handleUserRemove
  dsimp only
  split <;> rfl

@[simp] theorem handleChannelState_handled : (state.handleChannelState payload).handled = state.handled := by
  unfold handleChannelState
  dsimp only
  split
  next => split <;> rfl
  next => rfl

@[simp] theorem handleTextFromMumble_handled : (state.handleTextFromMumble payload).handled = state.handled := by
  unfold handleTextFromMumble
  split <;> rfl

/-- An empty packet is the only one that the bridge does not survive. -/
theorem handleUdpTunnel_cases : payload = [] ∧ state.handleUdpTunnel payload = none ∨
    payload ≠ [] ∧ ∃ after, state.handleUdpTunnel payload = some after ∧ after.handled = state.handled := by
  unfold handleUdpTunnel
  split
  next => exact .inl ⟨rfl, rfl⟩
  next =>
    refine .inr ⟨List.cons_ne_nil _ _, ?_⟩
    split
    next => split <;> exact ⟨_, rfl, rfl⟩
    next => exact ⟨_, rfl, rfl⟩

end Handled

end MumbleBridge

/-- An empty packet, which no clause of `handle_udp_tunnel` takes. -/
def ControlMessage.Raises (message : ControlMessage) : Prop := message.msgType = msgUdpTunnel ∧ message.payload = []

/-- Handling ends the process, or it is recorded with the message. -/
theorem MumbleBridge.handleControlMessage_cases (state : MumbleBridge) (message : ControlMessage) :
    message.Raises ∧ state.handleControlMessage message = none ∨
      ¬ message.Raises ∧ ∃ after, state.handleControlMessage message = some after ∧ after.handled = state.handled ++ [message] := by
  unfold handleControlMessage ControlMessage.Raises
  by_cases tunnel : message.msgType = msgUdpTunnel
  · rw [tunnel]
    rcases handleUdpTunnel_cases message.payload state with ⟨empty, raised⟩ | ⟨filled, after, done, same⟩
    · exact .inl ⟨⟨rfl, empty⟩, congrArg (Option.map _) raised⟩
    · exact .inr ⟨fun both => filled both.2, _, congrArg (Option.map _) done, congrArg (· ++ [message]) same⟩
  · refine .inr ⟨fun both => tunnel both.1, ?_⟩
    split
    case h_5 type => exact absurd type tunnel
    all_goals exact ⟨_, rfl, by simp⟩

/-- The pattern of a message and what follows it. -/
def takeMessage (data : List UInt8) : Option (ControlMessage × List UInt8) :=
  let msgType := ofBigEndian (data.take 2)
  let length := ofBigEndian ((data.drop 2).take 4)
  let payload := ((data.drop 6).take length)
  if whole : 6 ≤ data.length ∧ length ≤ (data.drop 6).length then
    have typeFits : msgType < 2 ^ 16 := ofBigEndian_lt (List.length_take_of_le (by omega))
    have lengthFits : payload.length < 2 ^ 32 := by
      rw [List.length_take_of_le whole.2]
      exact ofBigEndian_lt (List.length_take_of_le (by rw [List.length_drop]; omega))
    some (⟨msgType, payload, typeFits, lengthFits⟩, (data.drop 6).drop length)
  else none

theorem takeMessage_shorter {data rest : List UInt8} {message : ControlMessage} (taken : takeMessage data = some (message, rest)) :
    rest.length < data.length := by
  unfold takeMessage at taken
  dsimp only at taken
  split at taken
  next whole =>
    cases taken
    rw [List.length_drop, List.length_drop]
    omega
  next => cases taken

/-- What is received in one piece. -/
def MumbleBridge.handleMumbleMessage (state : MumbleBridge) (data : List UInt8) : Option MumbleBridge :=
  match taken : takeMessage data with
  | none => some state
  | some (message, rest) => do
    have : rest.length < data.length := takeMessage_shorter taken
    let state ← state.handleControlMessage message
    if rest.length > 6 then handleMumbleMessage state rest else return state
termination_by data.length

/-- What `send_mumble_packet` writes for a message, and so does the server. -/
def ControlMessage.bytes (message : ControlMessage) : List UInt8 :=
  bigEndian 2 message.msgType ++ bigEndian 4 message.payload.length ++ message.payload

end Burble.Bridges
