import Burble.Runs
import Burble.Media.Peer

namespace Burble.Media

abbrev RoomId := String

inductive PrivacyMode
  | standard
  | turnOnly
  | e2ee
  | maximum
  deriving DecidableEq, Repr

/-- The engine's own record of a peer. -/
structure Peer where
  muted : Bool
  e2eeEnabled : Bool
  deriving DecidableEq

structure Session where
  peers : FiniteMap PeerId Peer
  privacyMode : PrivacyMode
  rtspMountpoint : Option String

/-- What is merged into a peer's record. -/
inductive AudioOpt
  | muted (value : Bool)
  | e2eeEnabled (value : Bool)
  deriving DecidableEq

def AudioOpt.merge (peer : Peer) : AudioOpt → Peer
  | muted value => { peer with muted := value }
  | e2eeEnabled value => { peer with e2eeEnabled := value }

/-- Where a packet went, with its sender, and whether the sender was muted at that moment. -/
inductive Egress
  | forward (toPeerId fromPeerId : PeerId) (packet : Packet) (senderMuted : Bool)
  | inject (mountpoint : String) (fromPeerId : PeerId) (packet : Packet) (senderMuted : Bool)
  deriving DecidableEq

def Egress.senderMuted : Egress → Bool
  | forward _ _ _ senderMuted => senderMuted
  | inject _ _ _ senderMuted => senderMuted

/-- A packet a peer's process has handed to its connection. -/
structure Sent where
  toPeerId : PeerId
  fromPeerId : PeerId
  packet : Packet
  deriving DecidableEq

/-- The engine's sessions, the registered peer processes, and what has gone out. -/
structure MediaState where
  sessions : FiniteMap RoomId Session
  processes : FiniteMap PeerId PeerProcess
  egress : List Egress
  sent : List Sent

inductive MediaLabel
  | createSession (room : RoomId) (privacy : Option PrivacyMode) (rtspMountpoint : Option String)
      (rtspBroadcastEnabled : Bool)
  | destroySession (room : RoomId)
  | addPeer (room : RoomId) (peerId : PeerId) (muted : Option Bool) (supervisorUp : Bool)
  | removePeer (room : RoomId) (peerId : PeerId)
  | answer (room : RoomId) (peerId : PeerId) (accepted : Bool)
  | setAudio (room : RoomId) (peerId : PeerId) (audioOpts : List AudioOpt)
  | autoUnmute (userId : PeerId) (room : RoomId)
  | distributeRtp (room : RoomId) (fromPeerId : PeerId) (packet : Packet) (mailboxLen : Nat)
  | peerHandles (peerId : PeerId)
  deriving DecidableEq

def maxMailboxSize : Nat := 5000

def MediaState.start : MediaState := ⟨∅, ∅, [], []⟩

namespace MediaState

/-- A cast to a name nobody is registered under is lost. -/
def cast (state : MediaState) (peerId : PeerId) (message : PeerMessage) : MediaState :=
  match state.processes.lookup peerId with
  | some process =>
    { state with
      processes := AList.insert peerId { process with mailbox := process.mailbox ++ [message] } state.processes }
  | none => state

def castAll (state : MediaState) (peerIds : List PeerId) (message : PeerMessage) : MediaState :=
  peerIds.foldl (fun state peerId => state.cast peerId message) state

/-- What a process hands on goes into the record. -/
def handOn (state : MediaState) (toPeerId : PeerId) (packets : List (PeerId × Packet)) : MediaState :=
  { state with sent := state.sent ++ packets.map fun packet => ⟨toPeerId, packet.1, packet.2⟩ }

/-- `GenServer.stop`, which lets the process handle what it has been sent. -/
def stopProcess (state : MediaState) (peerId : PeerId) : MediaState :=
  match state.processes.lookup peerId with
  | some process =>
    { state with processes := AList.erase peerId state.processes }.handOn peerId (process.handsOn process.mailbox)
  | none => state

/-- A process is not started under a name that is taken. -/
def startProcess (state : MediaState) (peerId : PeerId) (existingPeers : List PeerId) : MediaState :=
  match state.processes.lookup peerId with
  | some _ => state
  | none => { state with processes := AList.insert peerId (PeerProcess.init existingPeers) state.processes }

/-- Whether the room's session has the peer as muted. -/
def isMuted (state : MediaState) (room : RoomId) (peerId : PeerId) : Bool :=
  ((state.sessions.lookup room).bind fun session => session.peers.lookup peerId).any Peer.muted

def forwardTo (room : RoomId) (fromPeerId : PeerId) (packet : Packet) (state : MediaState) (peerId : PeerId) :
    MediaState :=
  let state := state.cast peerId (.forwardRtp fromPeerId packet)
  { state with egress := state.egress ++ [.forward peerId fromPeerId packet (state.isMuted room fromPeerId)] }

def injectRtp (room : RoomId) (fromPeerId : PeerId) (packet : Packet) (state : MediaState) (mountpoint : String) :
    MediaState :=
  { state with egress := state.egress ++ [.inject mountpoint fromPeerId packet (state.isMuted room fromPeerId)] }

def distributeToPeers (state : MediaState) (room : RoomId) (fromPeerId : PeerId) (packet : Packet) : MediaState :=
  match state.sessions.lookup room with
  | none => state
  | some session =>
    let peerIds := session.peers.keys.filter fun id => id ≠ fromPeerId
    let state := peerIds.foldl (forwardTo room fromPeerId packet) state
    match session.rtspMountpoint with
    | some mountpoint => injectRtp room fromPeerId packet state mountpoint
    | none => state

def createSession (state : MediaState) (room : RoomId) (privacy : Option PrivacyMode)
    (rtspMountpoint : Option String) (rtspBroadcastEnabled : Bool) : MediaState :=
  if (state.sessions.lookup room).isSome then state
  else
    { state with
      sessions := AList.insert room
        ⟨∅, privacy.getD .turnOnly, if rtspBroadcastEnabled then rtspMountpoint else none⟩ state.sessions }

def addPeer (state : MediaState) (room : RoomId) (peerId : PeerId) (muted : Option Bool) (supervisorUp : Bool) :
    MediaState :=
  match state.sessions.lookup room with
  | none => state
  | some session =>
    let e2eeEnabled := decide (session.privacyMode = .e2ee ∨ session.privacyMode = .maximum)
    let existingPeerIds := session.peers.keys
    let state := if supervisorUp then state.startProcess peerId existingPeerIds else state
    let state := state.castAll existingPeerIds (.peerAdded peerId)
    { state with
      sessions := AList.insert room
        { session with peers := AList.insert peerId ⟨muted.getD false, e2eeEnabled⟩ session.peers } state.sessions }

def removePeer (state : MediaState) (room : RoomId) (peerId : PeerId) : MediaState :=
  match state.sessions.lookup room with
  | none => state
  | some session =>
    let state := state.stopProcess peerId
    let remaining := AList.erase peerId session.peers
    let state := state.castAll remaining.keys (.peerRemoved peerId)
    { state with sessions := AList.insert room { session with peers := remaining } state.sessions }

def setAudio (state : MediaState) (room : RoomId) (peerId : PeerId) (audioOpts : List AudioOpt) : MediaState :=
  match state.sessions.lookup room with
  | none => state
  | some session =>
    match session.peers.lookup peerId with
    | none => state
    | some peer =>
      { state with
        sessions := AList.insert room
          { session with peers := AList.insert peerId (audioOpts.foldl AudioOpt.merge peer) session.peers }
          state.sessions }

/-- With a session the engine calls itself, which no server can: it exits, and comes back with no sessions. -/
def autoUnmute (state : MediaState) (room : RoomId) : MediaState :=
  if (state.sessions.lookup room).isSome then { state with sessions := ∅ } else state

def answer (state : MediaState) (room : RoomId) (peerId : PeerId) (accepted : Bool) : MediaState :=
  match (state.sessions.lookup room).bind fun session => session.peers.lookup peerId with
  | some _ => state.cast peerId (.sdpAnswer accepted)
  | none => state

/-- A process handles the first message of its mailbox. -/
def peerHandles (state : MediaState) (peerId : PeerId) : MediaState :=
  match state.processes.lookup peerId with
  | none => state
  | some process =>
    match process.mailbox with
    | [] => state
    | message :: rest =>
      let handled := process.handle message
      { state with
        processes := AList.insert peerId { handled.1 with mailbox := rest } state.processes }.handOn peerId handled.2

@[simp] theorem cast_sessions (state : MediaState) (peerId : PeerId) (message : PeerMessage) :
    (state.cast peerId message).sessions = state.sessions := by
  unfold cast
  split <;> rfl

end MediaState

def mediaStep (state : MediaState) : MediaLabel → MediaState
  | .createSession room privacy rtspMountpoint rtspBroadcastEnabled =>
    state.createSession room privacy rtspMountpoint rtspBroadcastEnabled
  | .destroySession room => { state with sessions := AList.erase room state.sessions }
  | .addPeer room peerId muted supervisorUp => state.addPeer room peerId muted supervisorUp
  | .removePeer room peerId => state.removePeer room peerId
  | .answer room peerId accepted => state.answer room peerId accepted
  | .setAudio room peerId audioOpts => state.setAudio room peerId audioOpts
  | .autoUnmute _ room => state.autoUnmute room
  | .distributeRtp room fromPeerId packet mailboxLen =>
    if mailboxLen > maxMailboxSize then state else state.distributeToPeers room fromPeerId packet
  | .peerHandles peerId => state.peerHandles peerId

abbrev MediaRun := Run fun before label after => mediaStep before label = after

end Burble.Media
