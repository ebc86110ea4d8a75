import Burble.Runs
import Burble.E2EE.RoomChange

namespace Burble.E2EE

/-- The payload of an `e2ee_key_set` broadcast. Keys are kept decoded. -/
structure Announcement (PubKey : Type) where
  peerId : String
  epoch : Nat
  peers : Nat
  publicKeys : FiniteMap String PubKey

/-- What a channel process is in the middle of. The serial numbers count the
registrations the coordinator has served; no handler reads them. -/
inductive Task (PubKey : Type)
  /-- `join/3` has returned, the process is not subscribed to its topic yet -/
  | joining
  | idle
  /-- the coordinator has replied to `register_peer_key` -/
  | registered (serial epoch peers : Nat)
  /-- `public_key_set` has replied too -/
  | prepared (serial : Nat) (payload : Announcement PubKey)
  /-- `broadcast!` has these subscribers left to send to -/
  | announcing (serial : Nat) (payload : Announcement PubKey) (audience : List Nat)

/-- A room channel. `heard` is the last `e2ee_key_set` sent to it, `sinceEpoch` says
whether it was subscribed before the room's epoch began; both are history. -/
structure Channel (PubKey : Type) where
  userId : String
  task : Task PubKey
  heard : Option (Nat × Announcement PubKey)
  sinceEpoch : Bool

/-- The coordinator and the channel processes of one room, by process id. -/
structure RoomChannels (PubKey Blob : Type) where
  coordinator : State PubKey Blob
  channels : FiniteMap Nat (Channel PubKey)
  served : Nat

variable {PubKey Blob : Type}

/-- `init_e2ee_room`, idempotent: errors are only logged. -/
def initE2EERoom (now : Nat) (roomId : String) (state : State PubKey Blob) : State PubKey Blob :=
  (initRoom now roomId state).state

def publicKeySet (roomId : String) (state : State PubKey Blob) : FiniteMap String PubKey :=
  match keySet roomId state with
  | .ok keys => keys.peers
  | .error _ => ∅

def teardownE2EEPeer (now : Nat) (roomId userId : String) (state : State PubKey Blob) : State PubKey Blob :=
  (removePeer now roomId userId state).state

namespace Task

def subscribed : Task PubKey → Bool
  | .joining => false
  | _ => true

/-- The registration a channel has in hand. -/
def serial? : Task PubKey → Option Nat
  | .registered serial .. | .prepared serial _ | .announcing serial .. => some serial
  | _ => none

/-- The handler returns once every subscriber has been sent to. -/
def announce (serial : Nat) (payload : Announcement PubKey) : List Nat → Task PubKey
  | [] => .idle
  | audience => .announcing serial payload audience

end Task

namespace RoomChannels

def empty : RoomChannels PubKey Blob := ⟨init, ∅, 0⟩

variable (s : RoomChannels PubKey Blob)

def put (id : Nat) (channel : Channel PubKey) : RoomChannels PubKey Blob :=
  { s with channels := s.channels.insert id channel }

def subscribers : List Nat :=
  (s.channels.entries.filter fun entry => entry.2.task.subscribed).map (·.1)

def epochOf (roomId : String) (state : State PubKey Blob) : Option Nat :=
  (state.rooms.lookup roomId).map Room.epoch

/-- The coordinator moves on; where the room begins an epoch, the channels subscribed
by then are those present since before it. -/
def moveTo (roomId : String) (after : State PubKey Blob) : RoomChannels PubKey Blob :=
  if epochOf roomId after = epochOf roomId s.coordinator then { s with coordinator := after }
  else
    { s with
      coordinator := after
      channels := s.channels.mapValues fun channel => { channel with sinceEpoch := channel.task.subscribed } }

/-- The body of `join/3`, up to the room record. -/
def join (roomId : String) (now id : Nat) (userId : String) : Option (RoomChannels PubKey Blob) :=
  if id ∈ s.channels then none
  else some ((s.moveTo roomId (initE2EERoom now roomId s.coordinator)).put id ⟨userId, .joining, none, false⟩)

def subscribe (id : Nat) : Option (RoomChannels PubKey Blob) :=
  match s.channels.lookup id with
  | some channel =>
    match channel.task with
    | .joining => some (s.put id { channel with task := .idle })
    | _ => none
  | none => none

/-- `handle_in "e2ee_register_key"` up to the coordinator's reply. A refusal is replied to
the client and announces nothing. -/
def registerKey [ByteSize PubKey] [DecidableEq PubKey] (config : ProofConfig PubKey) (roomId : String) (now id : Nat)
    (publicKey : PubKey) (identityKey signature : Option (List UInt8)) : Option (RoomChannels PubKey Blob) :=
  match s.channels.lookup id with
  | some channel =>
    match channel.task with
    | .idle =>
      let outcome := registerPeerKey config now roomId channel.userId publicKey identityKey signature s.coordinator
      match outcome.reply with
      | .error _ => some s
      | .ok (epoch, peers) =>
        let counted : RoomChannels PubKey Blob := { s with served := s.served + 1 }
        some ((counted.put id { channel with task := .registered counted.served epoch peers }).moveTo roomId
          outcome.state)
    | _ => none
  | none => none

/-- Its call to `public_key_set`. -/
def fetchKeys (roomId : String) (id : Nat) : Option (RoomChannels PubKey Blob) :=
  match s.channels.lookup id with
  | some channel =>
    match channel.task with
    | .registered serial epoch peers =>
      some (s.put id { channel with
        task := .prepared serial ⟨channel.userId, epoch, peers, publicKeySet roomId s.coordinator⟩ })
    | _ => none
  | none => none

/-- Its `broadcast!`, up to the list of subscribers. -/
def broadcast (id : Nat) : Option (RoomChannels PubKey Blob) :=
  match s.channels.lookup id with
  | some channel =>
    match channel.task with
    | .prepared serial payload => some (s.put id { channel with task := .announce serial payload s.subscribers })
    | _ => none
  | none => none

/-- The subscriber is sent the payload; one that is gone by then hears nothing. -/
def hear (member serial : Nat) (payload : Announcement PubKey) : RoomChannels PubKey Blob :=
  match s.channels.lookup member with
  | some channel => s.put member { channel with heard := some (serial, payload) }
  | none => s

/-- `broadcast!` sends to one of the subscribers it has left. -/
def deliver (id member : Nat) : Option (RoomChannels PubKey Blob) :=
  match s.channels.lookup id with
  | some channel =>
    match channel.task with
    | .announcing serial payload audience =>
      if member ∈ audience then
        some ((s.put id { channel with task := .announce serial payload (audience.erase member) }).hear member serial
          payload)
      else none
    | _ => none
  | none => none

/-- `handle_in "e2ee_publish_sealed"`: the blob is stored and relayed, no key set is sent. -/
def publishSealed [ByteSize Blob] (roomId : String) (id : Nat) (recipient : String) (epoch : Nat) (blob : Blob) :
    Option (RoomChannels PubKey Blob) :=
  match s.channels.lookup id with
  | some channel =>
    match channel.task with
    | .idle =>
      some (s.moveTo roomId (E2EE.publishSealed roomId channel.userId recipient epoch blob s.coordinator).state)
    | _ => none
  | none => none

/-- `Burble.Media.E2EE.request_rotation`, as the periodic key rotation calls it. -/
def rotate (roomId : String) (now : Nat) : RoomChannels PubKey Blob :=
  s.moveTo roomId (requestRotation now roomId s.coordinator).state

/-- `terminate/2`: the peer is dropped from the coordinator; nothing is announced. -/
def terminate (roomId : String) (now id : Nat) : Option (RoomChannels PubKey Blob) :=
  match s.channels.lookup id with
  | some channel =>
    match channel.task with
    | .idle =>
      let left : RoomChannels PubKey Blob := { s with channels := s.channels.erase id }
      some (left.moveTo roomId (teardownE2EEPeer now roomId channel.userId s.coordinator))
    | _ => none
  | none => none

end RoomChannels

inductive ChannelEvent (PubKey Blob : Type)
  | join (id : Nat) (userId : String)
  | subscribe (id : Nat)
  | registerKey (id : Nat) (publicKey : PubKey) (identityKey signature : Option (List UInt8))
  | fetchKeys (id : Nat)
  | broadcast (id : Nat)
  | deliver (id member : Nat)
  | publishSealed (id : Nat) (recipient : String) (epoch : Nat) (blob : Blob)
  | rotate
  | terminate (id : Nat)

/-- One event, with the time the coordinator reads in it. -/
def RoomChannels.step [ByteSize PubKey] [DecidableEq PubKey] [ByteSize Blob] (config : ProofConfig PubKey)
    (roomId : String) (s : RoomChannels PubKey Blob) (label : Nat × ChannelEvent PubKey Blob) :
    Option (RoomChannels PubKey Blob) :=
  match label.2 with
  | .join id userId => s.join roomId label.1 id userId
  | .subscribe id => s.subscribe id
  | .registerKey id publicKey identityKey signature =>
    s.registerKey config roomId label.1 id publicKey identityKey signature
  | .fetchKeys id => s.fetchKeys roomId id
  | .broadcast id => s.broadcast id
  | .deliver id member => s.deliver id member
  | .publishSealed id recipient epoch blob => s.publishSealed roomId id recipient epoch blob
  | .rotate => some (s.rotate roomId label.1)
  | .terminate id => s.terminate roomId label.1 id

def ChannelStep [ByteSize PubKey] [DecidableEq PubKey] [ByteSize Blob] (config : ProofConfig PubKey)
    (roomId : String) (before : RoomChannels PubKey Blob) (label : Nat × ChannelEvent PubKey Blob)
    (after : RoomChannels PubKey Blob) : Prop :=
  before.step config roomId label = some after

end Burble.E2EE
