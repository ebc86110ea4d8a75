import Burble.E2EE.SealedStore
import Burble.E2EE.RoomChannel
import Burble.E2EE.SessionChange

namespace Burble.E2EE

/-- The cryptography of `e2ee.js`, ideal: two peers agree on a pairwise key, and a blob
opens exactly for the pair, room, epoch, sender and recipient it was sealed for. -/
structure IdealCrypto (PubKey PrivKey PairKey Key Blob : Type) where
  publicOf : PrivKey → PubKey
  pairwiseKey : PrivKey → PubKey → String → Nat → String → String → PairKey
  sealGroupKey : Key → PairKey → String → Nat → String → String → Blob
  openGroupKey : Blob → PairKey → String → Nat → String → String → Option Key
  agrees : ∀ mine theirs roomId epoch me them,
    pairwiseKey mine (publicOf theirs) roomId epoch me them = pairwiseKey theirs (publicOf mine) roomId epoch them me
  opens : ∀ key pair roomId epoch sender recipient key' pair' roomId' epoch' sender' recipient',
    openGroupKey (sealGroupKey key pair roomId epoch sender recipient) pair' roomId' epoch' sender' recipient' =
      some key' ↔ key' = key ∧ pair' = pair ∧ roomId' = roomId ∧ epoch' = epoch ∧ sender' = sender ∧
        recipient' = recipient

/-- What the channel answered to the push a handler is suspended at. -/
structure Reply (PubKey PrivKey PairKey Key Blob : Type) where
  peerId : String
  frameId : Nat
  frame : Frame PubKey PrivKey PairKey Key Blob
  result : Result PubKey PrivKey PairKey Key Blob

/-- A peer and the key it had accepted for an epoch. -/
structure KeySource (Key : Type) where
  epoch : Nat
  sender : String
  key : Key

/-- One room: the coordinator, the clients' sessions, the peers whose channels are up,
and everything on its way. A broadcast stays on its way, so that it may reach each
session at any time, or twice, or never. The last two fields are history: how often the
room was initialised, and the keys whose publishes were accepted. -/
structure RoomSystem (PubKey PrivKey PairKey Key Blob : Type) where
  coordinator : State PubKey Blob
  sessions : FiniteMap String (Session PubKey PrivKey PairKey Key Blob)
  present : List String
  replies : List (Reply PubKey PrivKey PairKey Key Blob)
  /-- epochs replied to registrations whose `e2ee_key_set` is not broadcast yet -/
  announcing : List Nat
  keySets : List (KeySetMsg PubKey)
  sealedKeys : List (SealedMsg Blob)
  lifetimes : Nat
  sources : List (KeySource Key)

/-- How an awaited promise settles, where that is not for the room to say. -/
inductive Choice (PrivKey : Type)
  | privateKey (key : PrivKey)
  | proceeds
  | fails

inductive RoomEvent (PrivKey : Type)
  /-- the channel is joined, with the session there is or with a new one -/
  | arrive (peerId : String) (anew : Bool)
  | leave (peerId : String)
  | rotate
  /-- the peer's channel handles what a suspended handler has pushed -/
  | serve (peerId : String) (frame : Nat)
  /-- a registration's key set is fetched and broadcast -/
  | announce (index : Nat)
  | start (peerId : String)
  | refreshKeySet (peerId : String)
  | hearKeySet (peerId : String) (index : Nat)
  | hearSealed (peerId : String) (index : Nat)
  | resume (peerId : String) (frame : Nat) (choice : Choice PrivKey)

variable {PubKey PrivKey PairKey Key Blob : Type}

/-- The coordinator call behind a push. Sessions register without a proof. -/
def Frame.call (roomId peerId : String) : Frame PubKey PrivKey PairKey Key Blob → Option (Call PubKey Blob)
  | .registerKey publicKey => some (.registerPeerKey roomId peerId publicKey none none)
  | .fetchKeySet _ => some (.keySet roomId)
  | .publish work recipient _ blob => some (.publishSealed roomId peerId recipient work.epoch blob)
  | _ => none

/-- The channel's reply, as the push settles with it. -/
def replyResult : Except Error (Value PubKey Blob) → Result PubKey PrivKey PairKey Key Blob
  | .ok (.registered epoch _) => .registered epoch
  | .ok (.keySet keys) => .keySet ⟨keys.epoch, keys.peers⟩
  | .ok .done => .accepted
  | _ => .threw

namespace RoomSystem

def empty : RoomSystem PubKey PrivKey PairKey Key Blob := ⟨init, ∅, [], [], [], [], [], 0, []⟩

variable (s : RoomSystem PubKey PrivKey PairKey Key Blob)

/-- `join/3` and, for a client that starts afresh, a new session. -/
def arrive [ByteSize PubKey] [DecidableEq PubKey] [ByteSize Blob] (config : ProofConfig PubKey) (roomId : String)
    (now : Nat) (peerId : String) (anew : Bool) : Option (RoomSystem PubKey PrivKey PairKey Key Blob) :=
  if peerId ∈ s.present then none
  else
    let outcome := handleCall config now (.initRoom roomId) s.coordinator
    let joined := { s with
      coordinator := outcome.state
      present := peerId :: s.present
      lifetimes := if outcome.reply.isOk then s.lifetimes + 1 else s.lifetimes }
    if anew = false ∧ peerId ∈ s.sessions then some joined
    else some { joined with
      sessions := s.sessions.insert peerId (Session.create peerId)
      replies := s.replies.filter fun reply => reply.peerId ≠ peerId }

/-- `terminate/2` of the peer's channel. The client keeps its session. -/
def leave [ByteSize PubKey] [DecidableEq PubKey] [ByteSize Blob] (config : ProofConfig PubKey) (roomId : String)
    (now : Nat) (peerId : String) : Option (RoomSystem PubKey PrivKey PairKey Key Blob) :=
  if peerId ∈ s.present then
    some { s with
      coordinator := (handleCall config now (.removePeer roomId peerId) s.coordinator).state
      present := s.present.filter fun other => other ≠ peerId }
  else none

def rotate [ByteSize PubKey] [DecidableEq PubKey] [ByteSize Blob] (config : ProofConfig PubKey) (roomId : String)
    (now : Nat) : RoomSystem PubKey PrivKey PairKey Key Blob :=
  { s with coordinator := (handleCall config now (.requestRotation roomId) s.coordinator).state }

/-- What is sent along with a reply: a registration is to be announced, and an accepted
publish is relayed. -/
def relay (peerId : String) (frame : Frame PubKey PrivKey PairKey Key Blob)
    (result : Result PubKey PrivKey PairKey Key Blob) : RoomSystem PubKey PrivKey PairKey Key Blob :=
  match frame, result with
  | _, .registered epoch => { s with announcing := s.announcing ++ [epoch] }
  | .publish work recipient _ blob, .accepted =>
    { s with
      sealedKeys := s.sealedKeys ++ [⟨peerId, recipient, work.epoch, blob⟩]
      sources := ⟨work.epoch, peerId, work.groupKey⟩ :: s.sources }
  | _, _ => s

/-- `handle_in` for what this handler has pushed, once. -/
def serve [ByteSize PubKey] [DecidableEq PubKey] [ByteSize Blob] (config : ProofConfig PubKey) (roomId : String)
    (now : Nat) (peerId : String) (frameId : Nat) : Option (RoomSystem PubKey PrivKey PairKey Key Blob) := do
  let session ← s.sessions.lookup peerId
  let frame ← session.frames.lookup frameId
  let call ← frame.call roomId peerId
  if peerId ∈ s.present ∧ ∀ reply ∈ s.replies, reply.peerId = peerId → reply.frameId ≠ frameId then
    let outcome := handleCall config now call s.coordinator
    let result := replyResult outcome.reply
    let answered : RoomSystem PubKey PrivKey PairKey Key Blob := { s with
      coordinator := outcome.state
      replies := s.replies ++ [⟨peerId, frameId, frame, result⟩] }
    some (answered.relay peerId frame result)
  else none

/-- `public_key_set` and `broadcast!` for a registration served earlier. -/
def announce (roomId : String) (index : Nat) : Option (RoomSystem PubKey PrivKey PairKey Key Blob) := do
  let epoch ← s.announcing[index]?
  some { s with
    announcing := s.announcing.eraseIdx index
    keySets := s.keySets ++ [⟨epoch, publicKeySet roomId s.coordinator⟩] }

variable [DecidableEq PubKey] [DecidableEq PrivKey] [DecidableEq PairKey] [DecidableEq Key] [DecidableEq Blob]

/-- What the promise a handler awaits settles with: the channel's reply, or what the
cryptography computes. Any of them may fail instead. -/
def settles (crypto : IdealCrypto PubKey PrivKey PairKey Key Blob) (roomId peerId : String) (frameId : Nat)
    (frame : Frame PubKey PrivKey PairKey Key Blob) (choice : Choice PrivKey) :
    Option (Result PubKey PrivKey PairKey Key Blob) :=
  match choice, frame with
  | .fails, _ => some .threw
  | .privateKey key, .generateKeypair => some (.keypair ⟨crypto.publicOf key, key⟩)
  | .proceeds, .pairwise work other publicKey privateKey =>
    some (.pair (crypto.pairwiseKey privateKey publicKey roomId work.epoch peerId other))
  | .proceeds, .seal work other _ pair =>
    some (.sealed (crypto.sealGroupKey work.groupKey pair roomId work.epoch peerId other))
  | .proceeds, .openPairwise msg publicKey privateKey =>
    some (.pair (crypto.pairwiseKey privateKey publicKey roomId msg.epoch peerId msg.sender))
  | .proceeds, .openGroup msg pair =>
    (crypto.openGroupKey msg.blob pair roomId msg.epoch msg.sender peerId).map .opened
  | .proceeds, .settled .. => some .settled
  | .proceeds, _ =>
    (s.replies.find? fun reply => reply.peerId = peerId ∧ reply.frameId = frameId ∧ reply.frame = frame).map
      Reply.result
  | .privateKey _, _ => none

/-- The session that takes a piece of a handler in an event, and which. -/
def acts (crypto : IdealCrypto PubKey PrivKey PairKey Key Blob) (roomId : String) :
    RoomEvent PrivKey → Option (String × Event PubKey PrivKey PairKey Key Blob)
  | .start peerId => some (peerId, .start)
  | .refreshKeySet peerId => some (peerId, .refreshKeySet)
  | .hearKeySet peerId index => s.keySets[index]?.map fun msg => (peerId, .onKeySet msg)
  | .hearSealed peerId index => s.sealedKeys[index]?.map fun msg => (peerId, .onSealedKey msg)
  | .resume peerId frameId choice => do
    let session ← s.sessions.lookup peerId
    let frame ← session.frames.lookup frameId
    let result ← s.settles crypto roomId peerId frameId frame choice
    some (peerId, .resume frameId result)
  | _ => none

/-- One event, with the time the coordinator reads and the key `randomGroupKey` returns. -/
def step [ByteSize PubKey] [ByteSize Blob] (config : ProofConfig PubKey)
    (crypto : IdealCrypto PubKey PrivKey PairKey Key Blob) (roomId : String) (label : Nat × Key × RoomEvent PrivKey) :
    Option (RoomSystem PubKey PrivKey PairKey Key Blob) :=
  match label.2.2 with
  | .arrive peerId anew => s.arrive config roomId label.1 peerId anew
  | .leave peerId => s.leave config roomId label.1 peerId
  | .rotate => some (s.rotate config roomId label.1)
  | .serve peerId frameId => s.serve config roomId label.1 peerId frameId
  | .announce index => s.announce roomId index
  | event => do
    let (peerId, piece) ← s.acts crypto roomId event
    let session ← s.sessions.lookup peerId
    let after ← session.step piece label.2.1
    some { s with sessions := s.sessions.insert peerId after }

end RoomSystem

def RoomStep [ByteSize PubKey] [DecidableEq PubKey] [DecidableEq PrivKey] [DecidableEq PairKey] [DecidableEq Key]
    [ByteSize Blob] [DecidableEq Blob] (config : ProofConfig PubKey)
    (crypto : IdealCrypto PubKey PrivKey PairKey Key Blob) (roomId : String)
    (before : RoomSystem PubKey PrivKey PairKey Key Blob) (label : Nat × Key × RoomEvent PrivKey)
    (after : RoomSystem PubKey PrivKey PairKey Key Blob) : Prop :=
  before.step config crypto roomId label = some after

end Burble.E2EE
