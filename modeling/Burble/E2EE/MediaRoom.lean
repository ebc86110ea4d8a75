import Burble.E2EE.RoomSystem
import Burble.E2EE.FrameReplay

namespace Burble.E2EE
variable {PubKey PrivKey PairKey Key Blob FrameKey : Type}

/-- Whether a piece of a handler calls `#cryptors.clear()`: the epoch moves, or a room key
is installed by an opened blob or at the end of a distribution. -/
def Session.clearsCryptors (s : Session PubKey PrivKey PairKey Key Blob)
    (event : Event PubKey PrivKey PairKey Key Blob) (after : Session PubKey PrivKey PairKey Key Blob) : Bool :=
  s.epoch ≠ after.epoch || (!s.hasRoomKey && after.hasRoomKey) ||
    match event with
    | .resume frame result =>
      match s.frames.lookup frame, result with
      | some (.openGroup ..), .opened _ => true
      | some (.publish work peerId _ _), .accepted =>
        work.rest.all fun entry => entry.1 = s.localId ∨ entry.1 ∈ peerId :: s.sealedSent
      | _, _ => false
    | _ => false

/-- The cryptors of one page: the session's cache of them, and every one it ever made,
since an attached transform keeps its own. -/
structure Endpoint (Key FrameKey : Type) where
  cryptors : FiniteMap (Option String) Nat
  objects : List (CryptorRun Key FrameKey)

def Endpoint.empty : Endpoint Key FrameKey := ⟨∅, []⟩

/-- A frame a `seal()` returned, with the room key it was sealed under. -/
structure SealedFrame (Key : Type) where
  sender : String
  epoch : Nat
  roomKey : Key
  counter : Nat
  plaintext : List UInt8
  wire : List UInt8

/-- `FrameCryptor`s are made with this. -/
def defaultWindowSize : Nat := 256

/-- `cryptorFor`: the cached cryptor, or a new one. The constructor refuses empty ids. -/
def Endpoint.cryptorFor (endpoint : Endpoint Key FrameKey) (roomId localId : String) (remoteId : Option String) :
    Option (Endpoint Key FrameKey) :=
  if remoteId ∈ endpoint.cryptors then some endpoint
  else if localId = "" ∨ remoteId = some "" then none
  else some {
    cryptors := endpoint.cryptors.insert remoteId endpoint.objects.length
    objects := endpoint.objects ++ [.create (.create roomId localId remoteId defaultWindowSize)] }

/-- What a `seal()` returns when its promises are settled. -/
def CryptorRun.sealedFrame (web : WebCrypto Key FrameKey) (run : CryptorRun Key FrameKey) :
    CryptorEvent → List (SealedFrame Key)
  | .seals call iv =>
    match run.sealing.lookup call with
    | none => []
    | some sealing =>
      match run.cryptor.sealed web sealing iv with
      | .error _ => []
      | .ok wire =>
        [⟨run.cryptor.localId, sealing.epoch, sealing.roomKey, sealing.counter, sealing.plaintext, wire⟩]
  | _ => []

/-- A room with its media: the sessions, the cryptors of each page, and all frames sealed.
What the network brings to a transform is any bytes at all. -/
structure MediaRoom (PubKey PrivKey PairKey Key Blob FrameKey : Type) where
  room : RoomSystem PubKey PrivKey PairKey Key Blob
  endpoints : FiniteMap String (Endpoint Key FrameKey)
  frames : List (SealedFrame Key)

inductive MediaEvent (PrivKey Key : Type)
  | room (label : Nat × Key × RoomEvent PrivKey)
  | cryptorFor (peerId : String) (remoteId : Option String)
  /-- a piece of a call on one of a page's cryptors, cached or not -/
  | cryptor (peerId : String) (object : Nat) (event : CryptorEvent)

namespace MediaRoom

def empty : MediaRoom PubKey PrivKey PairKey Key Blob FrameKey := ⟨.empty, ∅, []⟩

variable [DecidableEq PubKey] [DecidableEq PrivKey] [DecidableEq PairKey] [DecidableEq Key] [DecidableEq Blob]
variable (s : MediaRoom PubKey PrivKey PairKey Key Blob FrameKey)

/-- A new session comes with a new page; a session that moves on clears its cache. -/
def endpointsAfter (crypto : IdealCrypto PubKey PrivKey PairKey Key Blob) (roomId : String)
    (event : RoomEvent PrivKey) (room : RoomSystem PubKey PrivKey PairKey Key Blob) :
    FiniteMap String (Endpoint Key FrameKey) :=
  match event with
  | .arrive peerId anew =>
    if anew = false ∧ peerId ∈ s.room.sessions then s.endpoints else s.endpoints.insert peerId .empty
  | event =>
    match s.room.acts crypto roomId event with
    | none => s.endpoints
    | some (peerId, piece) =>
      match s.room.sessions.lookup peerId, room.sessions.lookup peerId, s.endpoints.lookup peerId with
      | some before, some after, some endpoint =>
        if before.clearsCryptors piece after then s.endpoints.insert peerId { endpoint with cryptors := ∅ }
        else s.endpoints
      | _, _, _ => s.endpoints

def step [ByteSize PubKey] [ByteSize Blob] (config : ProofConfig PubKey)
    (crypto : IdealCrypto PubKey PrivKey PairKey Key Blob) (web : WebCrypto Key FrameKey) (roomId : String) :
    MediaEvent PrivKey Key → Option (MediaRoom PubKey PrivKey PairKey Key Blob FrameKey)
  | .room label => do
    let room ← s.room.step config crypto roomId label
    some { s with room, endpoints := s.endpointsAfter crypto roomId label.2.2 room }
  | .cryptorFor peerId remoteId => do
    let session ← s.room.sessions.lookup peerId
    let endpoint ← s.endpoints.lookup peerId
    if session.hasRoomKey then
      let endpoint ← endpoint.cryptorFor roomId session.localId remoteId
      some { s with endpoints := s.endpoints.insert peerId endpoint }
    else none
  | .cryptor peerId object event => do
    let session ← s.room.sessions.lookup peerId
    let endpoint ← s.endpoints.lookup peerId
    let run ← endpoint.objects[object]?
    let after ← run.step web session.epochs event
    some { s with
      endpoints := s.endpoints.insert peerId { endpoint with objects := endpoint.objects.set object after }
      frames := s.frames ++ run.sealedFrame web event }

end MediaRoom

def MediaStep [ByteSize PubKey] [DecidableEq PubKey] [DecidableEq PrivKey] [DecidableEq PairKey] [DecidableEq Key]
    [ByteSize Blob] [DecidableEq Blob] (config : ProofConfig PubKey)
    (crypto : IdealCrypto PubKey PrivKey PairKey Key Blob) (web : WebCrypto Key FrameKey) (roomId : String)
    (before : MediaRoom PubKey PrivKey PairKey Key Blob FrameKey) (label : MediaEvent PrivKey Key)
    (after : MediaRoom PubKey PrivKey PairKey Key Blob FrameKey) : Prop :=
  before.step config crypto web roomId label = some after

end Burble.E2EE
