import Burble.FiniteMap

namespace Burble.E2EE

/-- The error atoms of the key coordinator. -/
inductive Error
  | roomExists
  | noRoom
  | invalidPublicKey
  | invalidPeerId
  | roomFull
  | missingKeyProof
  | invalidKeyProof
  | invalidSealedBlob
  | staleEpoch
  | alreadyPublished
  | notLeader
  | notFound
  deriving DecidableEq, Repr

/-- A registered peer: its X25519 public key, whether a proof came with it, and when. -/
structure Peer (PubKey : Type) where
  publicKey : PubKey
  proven : Bool
  joinedAt : Nat
  deriving DecidableEq

/-- A sealed room key as stored for its recipient. -/
structure Sealed (Blob : Type) where
  epoch : Nat
  sender : String
  blob : Blob
  deriving DecidableEq

/-- Room state: public keys and opaque blobs only. Times are opaque stamps. -/
structure Room (PubKey Blob : Type) where
  roomId : String
  epoch : Nat
  peers : FiniteMap String (Peer PubKey)
  sealed : FiniteMap String (Sealed Blob)
  createdAt : Nat
  rotatedAt : Option Nat
  deriving DecidableEq

/-- The coordinator process. -/
structure State (PubKey Blob : Type) where
  rooms : FiniteMap String (Room PubKey Blob)

/-- The public view of a room: everything a peer needs to derive pairwise keys. -/
structure KeySet (PubKey : Type) where
  roomId : String
  epoch : Nat
  peers : FiniteMap String PubKey

structure RoomStatus where
  roomId : String
  epoch : Nat
  peers : Nat
  sealedPeers : Nat
  createdAt : Nat
  rotatedAt : Option Nat
  deriving DecidableEq

/-- The advisory broadcasts on `e2ee:lifecycle`. -/
inductive Lifecycle
  | roomInit (roomId : String)
  | roomDestroy (roomId : String)
  deriving DecidableEq

/-- What a call returns, what it broadcasts, and the state it leaves. -/
structure Outcome (PubKey Blob Value : Type) where
  reply : Except Error Value
  lifecycle : List Lifecycle
  state : State PubKey Blob

/-- The proof setting, Ed25519 verification of a text under an identity key,
and the text form of a public key: code outside this repository. -/
structure ProofConfig (PubKey : Type) where
  requireKeyProof : Bool
  verify : String → List UInt8 → List UInt8 → Bool
  encode64 : PubKey → String

/-- The default setting: registrations need no proof. -/
def unproven : ProofConfig (List UInt8) := ⟨false, fun _ _ _ => false, fun _ => ""⟩

def keyBytes : Nat := 32
def maxSealedBytes : Nat := 512
def maxPeers : Nat := 512

variable {PubKey Blob : Type}

def init : State PubKey Blob := ⟨∅⟩

def State.putRoom (state : State PubKey Blob) (roomId : String) (room : Room PubKey Blob) :
    State PubKey Blob :=
  ⟨state.rooms.insert roomId room⟩

def State.deleteRoom (state : State PubKey Blob) (roomId : String) : State PubKey Blob :=
  ⟨state.rooms.erase roomId⟩

/-- Bump the epoch and invalidate every sealed blob. -/
def rotate (now : Nat) (room : Room PubKey Blob) : Room PubKey Blob :=
  { room with epoch := room.epoch + 1, sealed := ∅, rotatedAt := some now }

/-- Membership changes only require a new epoch once a key has been distributed. -/
def maybeRotate (now : Nat) (force : Bool) (room : Room PubKey Blob) : Room PubKey Blob :=
  if force ∨ 0 < room.sealed.size then rotate now room else room

def fetchRoom (state : State PubKey Blob) (roomId : String) : Except Error (Room PubKey Blob) :=
  match state.rooms.lookup roomId with
  | none => .error .noRoom
  | some room => .ok room

def checkCapacity (room : Room PubKey Blob) : Except Error Unit :=
  if maxPeers ≤ room.peers.size then .error .roomFull else .ok ()

def checkEpoch (room : Room PubKey Blob) (epoch : Nat) : Except Error Unit :=
  if epoch = room.epoch then .ok () else .error .staleEpoch

def validPublicKey [ByteSize PubKey] (key : PubKey) : Except Error Unit :=
  if byteSize key = keyBytes then .ok () else .error .invalidPublicKey

def validPeerId (id : String) : Except Error Unit :=
  if 1 ≤ byteSize id ∧ byteSize id ≤ 128 then .ok () else .error .invalidPeerId

/-- Ed25519 over `room|peer|base64 key`; without an identity key the registration
counts as unproven unless proofs are required. -/
def keyProof (config : ProofConfig PubKey) (roomId peerId : String) (publicKey : PubKey)
    (identityKey signature : Option (List UInt8)) : Except Error Bool :=
  match identityKey, signature with
  | none, _ => if config.requireKeyProof then .error .missingKeyProof else .ok false
  | some identity, some sig =>
    if identity.length = 32 ∧ sig.length = 64 ∧
        config.verify (roomId ++ "|" ++ peerId ++ "|" ++ config.encode64 publicKey) sig identity then
      .ok true
    else .error .invalidKeyProof
  | some _, none => .error .invalidKeyProof

def initRoom (now : Nat) (roomId : String) (state : State PubKey Blob) : Outcome PubKey Blob Nat :=
  match state.rooms.lookup roomId with
  | some _ => ⟨.error .roomExists, [], state⟩
  | none =>
    ⟨.ok 0, [.roomInit roomId], state.putRoom roomId
      { roomId, epoch := 0, peers := ∅, sealed := ∅, createdAt := now, rotatedAt := none }⟩

def destroyRoom (roomId : String) (state : State PubKey Blob) : Outcome PubKey Blob Unit :=
  match state.rooms.lookup roomId with
  | none => ⟨.error .noRoom, [], state⟩
  | some _ => ⟨.ok (), [.roomDestroy roomId], state.deleteRoom roomId⟩

/-- The checks of a registration, in the order they run. -/
def registerChecks [ByteSize PubKey] (config : ProofConfig PubKey) (state : State PubKey Blob)
    (roomId peerId : String) (publicKey : PubKey) (identityKey signature : Option (List UInt8)) :
    Except Error (Room PubKey Blob × Bool) := do
  let room ← fetchRoom state roomId
  validPublicKey publicKey
  validPeerId peerId
  checkCapacity room
  let proven ← keyProof config roomId peerId publicKey identityKey signature
  return (room, proven)

/-- The reply carries the epoch and the number of peers. -/
def registerPeerKey [ByteSize PubKey] [DecidableEq PubKey] (config : ProofConfig PubKey) (now : Nat)
    (roomId peerId : String) (publicKey : PubKey) (identityKey signature : Option (List UInt8))
    (state : State PubKey Blob) : Outcome PubKey Blob (Nat × Nat) :=
  match registerChecks config state roomId peerId publicKey identityKey signature with
  | .error reason => ⟨.error reason, [], state⟩
  | .ok (room, proven) =>
    if (room.peers.lookup peerId).map Peer.publicKey = some publicKey then
      -- a reconnect with the key already on record changes nothing
      ⟨.ok (room.epoch, room.peers.size), [], state⟩
    else
      let peers := room.peers.insert peerId { publicKey, proven, joinedAt := now }
      let changed := maybeRotate now false { room with peers }
      ⟨.ok (changed.epoch, FiniteMap.size peers), [.roomInit roomId], state.putRoom roomId changed⟩

/-- Drop a peer and rotate. The last peer out takes the room record with it. -/
def removePeer (now : Nat) (roomId peerId : String) (state : State PubKey Blob) : Outcome PubKey Blob Nat :=
  match fetchRoom state roomId with
  | .error reason => ⟨.error reason, [], state⟩
  | .ok room =>
    let peers := room.peers.erase peerId
    let changed := maybeRotate now true { room with peers }
    if FiniteMap.size peers = 0 then
      ⟨.ok changed.epoch, [.roomDestroy roomId], state.deleteRoom roomId⟩
    else
      ⟨.ok changed.epoch, [.roomInit roomId], state.putRoom roomId changed⟩

def requestRotation (now : Nat) (roomId : String) (state : State PubKey Blob) : Outcome PubKey Blob Nat :=
  match fetchRoom state roomId with
  | .error reason => ⟨.error reason, [], state⟩
  | .ok room => ⟨.ok (room.epoch + 1), [.roomInit roomId], state.putRoom roomId (rotate now room)⟩

def keySet (roomId : String) (state : State PubKey Blob) : Except Error (KeySet PubKey) :=
  match state.rooms.lookup roomId with
  | none => .error .noRoom
  | some room => .ok { roomId, epoch := room.epoch, peers := room.peers.mapValues Peer.publicKey }

/-- The conditions of a publish, in the order they are tested. -/
def publishChecks [ByteSize Blob] (state : State PubKey Blob) (roomId sender recipient : String)
    (epoch : Nat) (blob : Blob) : Except Error (Room PubKey Blob) := do
  let room ← fetchRoom state roomId
  validPeerId sender
  validPeerId recipient
  if byteSize blob = 0 then throw .invalidSealedBlob
  if maxSealedBytes < byteSize blob then throw .invalidSealedBlob
  if sender ∉ room.peers then throw .invalidSealedBlob
  if recipient ∉ room.peers then throw .invalidSealedBlob
  checkEpoch room epoch
  match room.sealed.lookup recipient with
  | none => return room
  | some entry => if entry.epoch = epoch then throw .alreadyPublished else throw .notLeader

def publishSealed [ByteSize Blob] (roomId sender recipient : String) (epoch : Nat) (blob : Blob)
    (state : State PubKey Blob) : Outcome PubKey Blob Unit :=
  match publishChecks state roomId sender recipient epoch blob with
  | .error reason => ⟨.error reason, [], state⟩
  | .ok room =>
    ⟨.ok (), [], state.putRoom roomId { room with sealed := room.sealed.insert recipient { epoch, sender, blob } }⟩

def sealedFor (roomId peerId : String) (state : State PubKey Blob) : Except Error (Sealed Blob) :=
  match state.rooms.lookup roomId with
  | none => .error .noRoom
  | some room =>
    match room.sealed.lookup peerId with
    | some entry => if entry.epoch = room.epoch then .ok { entry with epoch := room.epoch } else .error .staleEpoch
    | none => .error .notFound

def roomStatus (roomId : String) (state : State PubKey Blob) : Except Error RoomStatus :=
  match state.rooms.lookup roomId with
  | none => .error .noRoom
  | some room =>
    .ok { roomId, epoch := room.epoch, peers := room.peers.size, sealedPeers := room.sealed.size,
          createdAt := room.createdAt, rotatedAt := room.rotatedAt }

/-- The calls the coordinator serves, one at a time. -/
inductive Call (PubKey Blob : Type)
  | initRoom (roomId : String)
  | destroyRoom (roomId : String)
  | registerPeerKey (roomId peerId : String) (publicKey : PubKey) (identityKey signature : Option (List UInt8))
  | removePeer (roomId peerId : String)
  | requestRotation (roomId : String)
  | keySet (roomId : String)
  | publishSealed (roomId sender recipient : String) (epoch : Nat) (blob : Blob)
  | sealedFor (roomId peerId : String)
  | roomStatus (roomId : String)

inductive Value (PubKey Blob : Type)
  | epoch (epoch : Nat)
  | done
  | registered (epoch peerCount : Nat)
  | keySet (keys : KeySet PubKey)
  | sealed (entry : Sealed Blob)
  | status (status : RoomStatus)

def Outcome.wrap {Result : Type} (outcome : Outcome PubKey Blob Result) (tag : Result → Value PubKey Blob) :
    Outcome PubKey Blob (Value PubKey Blob) :=
  ⟨outcome.reply.map tag, outcome.lifecycle, outcome.state⟩

/-- One call at one time. Time is read from the system clock, so it is not ordered here. -/
def handleCall [ByteSize PubKey] [DecidableEq PubKey] [ByteSize Blob] (config : ProofConfig PubKey) (now : Nat)
    (call : Call PubKey Blob) (state : State PubKey Blob) : Outcome PubKey Blob (Value PubKey Blob) :=
  match call with
  | .initRoom roomId => (initRoom now roomId state).wrap .epoch
  | .destroyRoom roomId => (destroyRoom roomId state).wrap fun _ => .done
  | .registerPeerKey roomId peerId publicKey identityKey signature =>
    (registerPeerKey config now roomId peerId publicKey identityKey signature state).wrap fun (epoch, count) =>
      .registered epoch count
  | .removePeer roomId peerId => (removePeer now roomId peerId state).wrap .epoch
  | .requestRotation roomId => (requestRotation now roomId state).wrap .epoch
  | .keySet roomId => ⟨(keySet roomId state).map .keySet, [], state⟩
  | .publishSealed roomId sender recipient epoch blob =>
    (publishSealed roomId sender recipient epoch blob state).wrap fun _ => .done
  | .sealedFor roomId peerId => ⟨(sealedFor roomId peerId state).map .sealed, [], state⟩
  | .roomStatus roomId => ⟨(roomStatus roomId state).map .status, [], state⟩

end Burble.E2EE
