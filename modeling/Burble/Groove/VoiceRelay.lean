import Burble.Groove.UnseenSweeps
import Burble.Rooms.Room
import Burble.Signaling.Channel

namespace Burble.Groove

open Burble.Rooms (RoomRegistry RoomLabel roomStep)

/-! The voice lane as a whole: the server, the rooms that check their members, and the channels of these. -/

section FromChannel
open SignalingChannel (Payload encodeSdpPayload decodeSdpBody text)

/-- A value that a client has sent, as a term. -/
def clientTerm : Json → SignalingChannel.Term Json
  | .string text => .binary (utf8 text)
  | value => .other value

/-- An integer of any size, in 16 bits. -/
def encodeIndex : Json → Option (List UInt8)
  | .integer value => some (littleEndian 2 (value % 65536).toNat)
  | _ => none

def encodeCandidate (candidate : JsonMap) : Option (List UInt8) := do
  let text (name : String) : Option (List UInt8) :=
    (SignalingChannel.encodeString (clientTerm ((candidate.lookup name).getD (.string "")))).toOption
  let line ← text "candidate"
  let index ← encodeIndex ((candidate.lookup "sdpMLineIndex").getD (.integer 0))
  let mid ← text "sdpMid"
  let fragment ← text "usernameFragment"
  return line ++ (index ++ (mid ++ fragment))

/-- The tag and the body of the signal that a channel has published, if it can be encoded. -/
def channelSignal (plain : Payload Json) : Option (UInt8 × List UInt8) :=
  match plain.lookup "type" with
  | some (.binary type) =>
    if type = utf8 "sdp:offer" ∨ type = utf8 "sdp:answer" then do
      let sdp ← plain.lookup "sdp"
      let body ← (encodeSdpPayload ⟨sdp, (plain.lookup "mediaType").getD (text "audio")⟩).toOption
      return (if type = utf8 "sdp:offer" then 9 else 10, body)
    else if type = utf8 "ice:candidate" then
      match plain.lookup "candidate" with
      | some (.other (.object entries)) => (encodeCandidate (Json.toMap entries)).map fun body => (11, body)
      | _ => none
    else none
  | _ => none

/-- The bridge from a channel, and the frame it sends in the room's turn. -/
def fromChannel (rooms : RoomRegistry) (room user peer : String) (payload : Payload Json) (auth : Option Auth)
    (system unique : Int) : Option Delivery := do
  let auth ← auth
  if auth.subject = user then
    let (tag, body) ← channelSignal (← (decodeSdpBody payload).toOption)
    let bytes := tag :: (VoiceSignal.encodeString room ++ (VoiceSignal.encodeString user ++ body))
    let _ ← decodeFrame bytes
    if rooms.Participates room user ∧ rooms.Participates room peer ∧ system < auth.expires then
      some ⟨room, user, peer, unique, bytes⟩
    else none
  else none

end FromChannel

/-- The unique integer that an operation draws, if it draws one. -/
def Op.unique : Op → Option Int
  | .connect _ drawn | .voiceConnect _ _ _ _ _ drawn => some drawn.epoch
  | .voiceOperation _ _ _ _ _ _ _ unique => some unique
  | _ => none

/-- Who is authenticated for an operation. -/
def Op.auth : Op → Option Auth
  | .voiceConnect auth .. => some auth
  | .voiceOperation _ _ auth .. => some auth
  | _ => none

def Op.isDelivery : Op → Bool
  | .voiceDelivery _ => true
  | _ => false

/-- The server and the rooms, the frames on their way from the process of each room, oldest first, and the last unique integer
    that has been drawn. -/
structure Relay where
  server : Server
  rooms : RoomRegistry
  flying : String → List Delivery
  lastUnique : Int

inductive RelayLabel
  | serve (e : Handled) (sent : Option Delivery)
  | channel (room user peer : String) (payload : SignalingChannel.Payload Json) (auth : Option Auth) (system unique : Int)
      (sent : Option Delivery)
  | deliver (moment : Moment) (delivery : Delivery)
  | room (label : RoomLabel)

namespace Relay

def init : Relay := ⟨.init, ∅, fun _ => [], 0⟩

/-- The frames on their way once one more is sent. -/
def launch (relay : Relay) : Option Delivery → String → List Delivery
  | some delivery => Function.update relay.flying delivery.room (relay.flying delivery.room ++ [delivery])
  | none => relay.flying

/-- A room lets an operation on a session pass only with both members of the session's scope in it. A late turn of the room is a
    rejection, so nothing is sent where the call to it exits. The answer to a connect is left open: it may be out of date when the
    epoch of the connection is drawn. -/
def Answers (relay : Relay) : Op → Prop
  | .voiceOperation _ handle _ _ _ _ .members _ => ∀ info scope, relay.server.connections.lookup handle = some info →
    info.voiceScope = some scope →
      relay.rooms.Participates scope.room scope.subject ∧ relay.rooms.Participates scope.room scope.peer
  | _ => True

/-- The server handles a call or one of its own messages, a channel hands a frame to the server by way of the room, the server
    takes the oldest frame that a room has sent, or a user joins or leaves a room. -/
inductive Step (hashOf : AttestationBody → String) (before : Relay) : RelayLabel → Relay → Prop
  | serve {e : Handled} {sent : Option Delivery} {server : Server} (call : e.op.isDelivery = false)
      (answers : before.Answers e.op) (newer : ∀ unique ∈ e.op.unique, before.lastUnique < unique)
      (served : before.server.handle hashOf e.moment e.op = (e.reply, server, sent)) :
      Step hashOf before (.serve e sent)
        ⟨server, before.rooms, before.launch sent, e.op.unique.getD before.lastUnique⟩
  | channel {room user peer : String} {payload : SignalingChannel.Payload Json} {auth : Option Auth} {system unique : Int}
      (newer : before.lastUnique < unique) :
      Step hashOf before (.channel room user peer payload auth system unique
          (fromChannel before.rooms room user peer payload auth system unique))
        { before with
          flying := before.launch (fromChannel before.rooms room user peer payload auth system unique)
          lastUnique := unique }
  | deliver {moment : Moment} {delivery : Delivery} {rest : List Delivery}
      (oldest : before.flying delivery.room = delivery :: rest) :
      Step hashOf before (.deliver moment delivery)
        { before with
          server := before.server.voiceDelivery hashOf moment delivery
          flying := Function.update before.flying delivery.room rest }
  | room (label : RoomLabel) : Step hashOf before (.room label) { before with rooms := roomStep before.rooms label }

end Relay

namespace RelayLabel

/-- The frame that is submitted. -/
def sent : RelayLabel → Option Delivery
  | .serve _ sent => sent
  | .channel _ _ _ _ _ _ _ sent => sent
  | _ => none

def auth : RelayLabel → Option Auth
  | .serve e _ => e.op.auth
  | .channel _ _ _ _ auth _ _ _ => auth
  | _ => none

def delivered : RelayLabel → Option Delivery
  | .deliver _ delivery => some delivery
  | _ => none

/-- The session that is opened for a scope. -/
def opened : RelayLabel → Option (String × Scope)
  | .serve ⟨_, .voiceConnect _ scope _ _ _ _, .connected handle _⟩ _ => some (handle, scope)
  | _ => none

/-- The frame that is returned on a session. -/
def returned (handle : String) : RelayLabel → Option (List UInt8)
  | .serve ⟨_, .voiceOperation _ other _ _ _ _ _ _, .frame bytes⟩ _ => if other = handle then some bytes else none
  | _ => none

/-- An operation of the subject of a scope, for its peer. -/
def Within (scope : Scope) : RelayLabel → Prop
  | .serve ⟨_, .voiceOperation _ _ auth peer _ _ _ _, _⟩ _ => auth.subject = scope.subject ∧ peer = scope.peer
  | _ => False

end RelayLabel

/-- The scope of the sessions that a frame is for. -/
def Delivery.scope (delivery : Delivery) : Scope := ⟨delivery.recipient, delivery.room, delivery.sender⟩

/-- The frames that are submitted for a scope, in order. -/
def submitted (scope : Scope) (labels : List RelayLabel) : List (List UInt8) :=
  ((labels.filterMap RelayLabel.sent).filter (·.scope = scope)).map Delivery.bytes

/-- A frame is sent by a user who is authenticated, to another member of the room that both are in, and it is one of the frames
    that the lane admits, as it would be written here, with the room and the sender in it. -/
structure Submits (relay : Relay) (auth : Auth) (delivery : Delivery) : Prop where
  subject : auth.subject = delivery.sender
  sender : relay.rooms.Participates delivery.room delivery.sender
  recipient : relay.rooms.Participates delivery.room delivery.recipient
  canonical : ∃ signal, decodeFrame delivery.bytes = some signal ∧ VoiceSignal.encode signal = delivery.bytes ∧
    signal.roomId = delivery.room ∧ signal.userId = delivery.sender

/-- What the lane is to be: four frames at most wait for a connection; a frame is submitted as it should be; and those that a
    connection has returned, each one the newest of them in its turn, are some of those submitted for its scope since it was
    opened, in order. -/
structure Isolated (hashOf : AttestationBody → String) (labels : List RelayLabel) (last : Relay) : Prop where
  bounded : ∀ handle info, last.server.connections.lookup handle = some info → info.voiceInbox.length ≤ maxInbox
  submits : ∀ past label later delivery, labels = past ++ label :: later → label.sent = some delivery →
    ∃ relay auth, Run (Relay.Step hashOf) .init past relay ∧ label.auth = some auth ∧ Submits relay auth delivery
  returns : ∀ past label later handle frame, labels = past ++ label :: later → label.returned handle = some frame →
    ∃ scope first connect between, past = first ++ connect :: between ∧ connect.opened = some (handle, scope) ∧
      (∀ other ∈ between, ∀ again, other.opened ≠ some (handle, again)) ∧ label.Within scope ∧
      (between.filterMap (RelayLabel.returned handle) ++ [frame]).Sublist (submitted scope between)

end Burble.Groove
