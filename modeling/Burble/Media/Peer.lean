import Burble.FiniteMap

namespace Burble.Media

abbrev PeerId := String

abbrev Packet := List UInt8

def maxOutboundPeers : Nat := 50

/-- What a peer process is sent. -/
inductive PeerMessage
  | sendOffer
  | peerAdded (newPeerId : PeerId)
  | peerRemoved (removedPeerId : PeerId)
  | forwardRtp (fromPeerId : PeerId) (packet : Packet)
  | sdpAnswer (accepted : Bool)
  deriving DecidableEq

/-- A peer's process, its sendonly tracks with their transceivers as they were numbered. -/
structure PeerProcess where
  outboundTracks : FiniteMap PeerId Nat
  transceivers : Nat
  pendingPeers : List PeerId
  negotiating : Bool
  mailbox : List PeerMessage

namespace PeerProcess

def addSendonlyTrack (state : PeerProcess) (peerId : PeerId) : PeerProcess :=
  { state with
    outboundTracks := AList.insert peerId state.transceivers state.outboundTracks
    transceivers := state.transceivers + 1 }

/-- A recvonly transceiver, a sendonly one for each peer there already, and the first offer to send. -/
def init (existingPeers : List PeerId) : PeerProcess :=
  existingPeers.foldl addSendonlyTrack ⟨∅, 1, [], false, [.sendOffer]⟩

def addOutboundPeer (state : PeerProcess) (newPeerId : PeerId) : PeerProcess :=
  if state.outboundTracks.size ≥ maxOutboundPeers then state else state.addSendonlyTrack newPeerId

def removeOutboundPeer (state : PeerProcess) (removedPeerId : PeerId) : PeerProcess :=
  { state with outboundTracks := AList.erase removedPeerId state.outboundTracks }

def sendOffer (state : PeerProcess) : PeerProcess := { state with negotiating := true }

def processPendingPeers (state : PeerProcess) : PeerProcess :=
  match state.pendingPeers with
  | [] => state
  | next :: rest => ({ state with pendingPeers := rest }.addOutboundPeer next).sendOffer

/-- Handle a message: the process after it, and what it hands to its connection. -/
def handle (state : PeerProcess) : PeerMessage → PeerProcess × List (PeerId × Packet)
  | .sendOffer => (state.sendOffer, [])
  | .peerAdded newPeerId =>
    if state.negotiating then ({ state with pendingPeers := state.pendingPeers ++ [newPeerId] }, [])
    else ((state.addOutboundPeer newPeerId).sendOffer, [])
  | .peerRemoved removedPeerId =>
    let state := state.removeOutboundPeer removedPeerId
    (if state.negotiating then state else state.sendOffer, [])
  | .forwardRtp fromPeerId packet =>
    (state, if (state.outboundTracks.lookup fromPeerId).isSome then [(fromPeerId, packet)] else [])
  | .sdpAnswer accepted => (if accepted then { state with negotiating := false }.processPendingPeers else state, [])

/-- What it hands on while it handles the messages in order. -/
def handsOn : PeerProcess → List PeerMessage → List (PeerId × Packet)
  | _, [] => []
  | state, message :: rest => (state.handle message).2 ++ (state.handle message).1.handsOn rest

/-- A peer hands on only what it was told to forward. -/
theorem handle_forwarded {state : PeerProcess} {message : PeerMessage} {fromPeerId : PeerId} {packet : Packet}
    (member : (fromPeerId, packet) ∈ (state.handle message).2) : message = .forwardRtp fromPeerId packet := by
  cases message with
  | sendOffer => cases member
  | peerAdded newPeerId =>
    simp only [handle] at member
    split at member <;> cases member
  | peerRemoved removedPeerId => cases member
  | forwardRtp sender told =>
    simp only [handle] at member
    split at member
    · cases List.mem_singleton.mp member
      rfl
    · cases member
  | sdpAnswer accepted => cases member

theorem handsOn_forwarded {state : PeerProcess} {messages : List PeerMessage} {fromPeerId : PeerId} {packet : Packet}
    (member : (fromPeerId, packet) ∈ state.handsOn messages) : .forwardRtp fromPeerId packet ∈ messages := by
  induction messages generalizing state with
  | nil => cases member
  | cons message rest ih =>
    rcases List.mem_append.mp member with now | later
    · rw [handle_forwarded now]
      exact List.mem_cons_self
    · exact List.mem_cons_of_mem _ (ih later)

@[simp] theorem addOutboundPeer_mailbox (state : PeerProcess) (peerId : PeerId) :
    (state.addOutboundPeer peerId).mailbox = state.mailbox := by
  unfold addOutboundPeer
  split <;> rfl

theorem processPendingPeers_mailbox (state : PeerProcess) : state.processPendingPeers.mailbox = state.mailbox := by
  unfold processPendingPeers
  split
  · rfl
  · simp [sendOffer]

@[simp] theorem handle_mailbox (state : PeerProcess) (message : PeerMessage) :
    (state.handle message).1.mailbox = state.mailbox := by
  cases message with
  | sendOffer => rfl
  | peerAdded newPeerId =>
    simp only [handle]
    split <;> simp [sendOffer]
  | peerRemoved removedPeerId =>
    simp only [handle]
    split <;> rfl
  | forwardRtp sender told => rfl
  | sdpAnswer accepted =>
    simp only [handle]
    split
    · rw [processPendingPeers_mailbox]
    · rfl

theorem init_mailbox (existingPeers : List PeerId) : (init existingPeers).mailbox = [.sendOffer] := by
  have kept (state : PeerProcess) : (existingPeers.foldl addSendonlyTrack state).mailbox = state.mailbox := by
    induction existingPeers generalizing state with
    | nil => rfl
    | cons peerId rest ih => rw [List.foldl_cons, ih, addSendonlyTrack]
  exact kept _

end PeerProcess
end Burble.Media
