import Burble.E2EE.Coordinator

namespace Burble.E2EE
variable {PubKey Blob : Type}

@[simp] theorem putRoom_lookup (state : State PubKey Blob) (roomId other : String) (room : Room PubKey Blob) :
    (state.putRoom roomId room).rooms.lookup other =
      if other = roomId then some room else state.rooms.lookup other :=
  FiniteMap.lookup_insert_if ..

@[simp] theorem deleteRoom_lookup (state : State PubKey Blob) (roomId other : String) :
    (state.deleteRoom roomId).rooms.lookup other =
      if other = roomId then none else state.rooms.lookup other :=
  FiniteMap.lookup_erase_if ..

@[simp] theorem Outcome.wrap_state {Result : Type} (outcome : Outcome PubKey Blob Result)
    (tag : Result → Value PubKey Blob) : (outcome.wrap tag).state = outcome.state := rfl

theorem fetchRoom_ok {state : State PubKey Blob} {roomId : String} {room : Room PubKey Blob} :
    fetchRoom state roomId = .ok room ↔ state.rooms.lookup roomId = some room := by
  unfold fetchRoom
  split
  next absent => simp [absent]
  next present => simp [present]

theorem fetchRoom_error {state : State PubKey Blob} {roomId : String} {reason : Error}
    (failed : fetchRoom state roomId = .error reason) : state.rooms.lookup roomId = none := by
  unfold fetchRoom at failed
  split at failed
  · assumption
  · cases failed

theorem maybeRotate_force (now : Nat) (room : Room PubKey Blob) :
    maybeRotate now true room = rotate now room := by
  simp [maybeRotate]

theorem maybeRotate_quiet {room : Room PubKey Blob} (quiet : room.sealed = ∅) (now : Nat)
    (peers : FiniteMap String (Peer PubKey)) :
    maybeRotate now false { room with peers } = { room with peers } := by
  simp [maybeRotate, quiet]

theorem maybeRotate_distributed {room : Room PubKey Blob} (stored : room.sealed ≠ ∅) (now : Nat)
    (peers : FiniteMap String (Peer PubKey)) :
    maybeRotate now false { room with peers } = rotate now { room with peers } := by
  have positive : 0 < room.sealed.size := Nat.pos_of_ne_zero fun zero => stored (FiniteMap.size_eq_zero.mp zero)
  simp [maybeRotate, positive]

theorem registerChecks_ok [ByteSize PubKey] {config : ProofConfig PubKey} {state : State PubKey Blob}
    {roomId peerId : String} {publicKey : PubKey} {identityKey signature : Option (List UInt8)}
    {room : Room PubKey Blob} {proven : Bool}
    (passed : registerChecks config state roomId peerId publicKey identityKey signature = .ok (room, proven)) :
    state.rooms.lookup roomId = some room ∧ room.peers.size < maxPeers ∧
      keyProof config roomId peerId publicKey identityKey signature = .ok proven := by
  simp only [registerChecks, bind, Except.bind] at passed
  split at passed
  · cases passed
  next fetched =>
    split at passed
    · cases passed
    split at passed
    · cases passed
    split at passed
    · cases passed
    next roomy =>
      split at passed
      · cases passed
      next proof =>
        cases passed
        refine ⟨fetchRoom_ok.mp fetched, ?_, proof⟩
        unfold checkCapacity at roomy
        split at roomy
        · cases roomy
        · omega

theorem publishChecks_ok [ByteSize Blob] {state : State PubKey Blob} {roomId sender recipient : String}
    {epoch : Nat} {blob : Blob} {room : Room PubKey Blob}
    (passed : publishChecks state roomId sender recipient epoch blob = .ok room) :
    state.rooms.lookup roomId = some room ∧ sender ∈ room.peers ∧ recipient ∈ room.peers ∧
      epoch = room.epoch ∧ room.sealed.lookup recipient = none := by
  simp only [publishChecks, bind, Except.bind, throw, throwThe, MonadExceptOf.throw, pure, Except.pure] at passed
  split at passed
  · cases passed
  next fetched =>
    split at passed
    · cases passed
    split at passed
    · cases passed
    split at passed
    · cases passed
    split at passed
    · cases passed
    split at passed
    · cases passed
    split at passed
    · cases passed
    split at passed
    · cases passed
    next senderIn recipientIn _ _ current =>
      split at passed
      next free =>
        cases passed
        refine ⟨fetchRoom_ok.mp fetched, by simpa using senderIn, by simpa using recipientIn, ?_, free⟩
        unfold checkEpoch at current
        split at current
        · assumption
        · cases current
      · split at passed <;> cases passed

/-- The calls that invalidate a room's key for certain, when the room is on record. -/
def Call.invalidates (roomId : String) : Call PubKey Blob → Prop
  | .destroyRoom other | .removePeer other _ | .requestRotation other => other = roomId
  | _ => False

/-- What one call can do to the record of the room it names. Every fact about
the coordinator's rooms is read off these cases. -/
inductive RoomChange (roomId : String) :
    Call PubKey Blob → Option (Room PubKey Blob) → Option (Room PubKey Blob) → Prop
  | same {call : Call PubKey Blob} (room) :
      (call.invalidates roomId → room = none) → RoomChange roomId call room room
  | created (now : Nat) : RoomChange roomId (.initRoom roomId) none
      (some { roomId, epoch := 0, peers := ∅, sealed := ∅, createdAt := now, rotatedAt := none })
  | destroyed (room) : RoomChange roomId (.destroyRoom roomId) (some room) none
  | gathered {peerId publicKey identityKey signature} (room) (peer : Peer PubKey) :
      room.sealed = ∅ → room.peers.size < maxPeers → peer.publicKey = publicKey →
      RoomChange roomId (.registerPeerKey roomId peerId publicKey identityKey signature) (some room)
        (some { room with peers := room.peers.insert peerId peer })
  | rekeyed {peerId publicKey identityKey signature} (room) (peer : Peer PubKey) (now : Nat) :
      room.sealed ≠ ∅ → room.peers.size < maxPeers → peer.publicKey = publicKey →
      RoomChange roomId (.registerPeerKey roomId peerId publicKey identityKey signature) (some room)
        (some (rotate now { room with peers := room.peers.insert peerId peer }))
  | emptied {peerId} (room) : RoomChange roomId (.removePeer roomId peerId) (some room) none
  | left {peerId} (room) (now : Nat) :
      RoomChange roomId (.removePeer roomId peerId) (some room)
        (some (rotate now { room with peers := room.peers.erase peerId }))
  | rotated (room) (now : Nat) :
      RoomChange roomId (.requestRotation roomId) (some room) (some (rotate now room))
  | published {sender recipient epoch blob} (room) :
      sender ∈ room.peers → recipient ∈ room.peers → epoch = room.epoch →
      room.sealed.lookup recipient = none →
      RoomChange roomId (.publishSealed roomId sender recipient epoch blob) (some room)
        (some { room with sealed := room.sealed.insert recipient { epoch, sender, blob } })

theorem registerPeerKey_roomChange [ByteSize PubKey] [DecidableEq PubKey] (config : ProofConfig PubKey) (now : Nat) (roomId peerId : String)
    (publicKey : PubKey) (identityKey signature : Option (List UInt8)) (state : State PubKey Blob) :
    RoomChange roomId (.registerPeerKey roomId peerId publicKey identityKey signature)
      (state.rooms.lookup roomId)
      ((registerPeerKey config now roomId peerId publicKey identityKey signature state).state.rooms.lookup roomId) := by
  unfold registerPeerKey
  split
  · exact .same _ False.elim
  next room proven passed =>
    obtain ⟨atRoom, roomy, _⟩ := registerChecks_ok passed
    split
    · exact .same _ False.elim
    · rw [putRoom_lookup, if_pos rfl, atRoom]
      by_cases quiet : room.sealed = ∅
      · rw [maybeRotate_quiet quiet]
        exact .gathered room _ quiet roomy rfl
      · rw [maybeRotate_distributed quiet]
        exact .rekeyed room _ now quiet roomy rfl

theorem removePeer_roomChange (now : Nat) (roomId peerId : String) (state : State PubKey Blob) :
    RoomChange roomId (.removePeer roomId peerId) (state.rooms.lookup roomId)
      ((removePeer now roomId peerId state).state.rooms.lookup roomId) := by
  unfold removePeer
  split
  next fetched => exact .same _ fun _ => fetchRoom_error fetched
  next room fetched =>
    rw [fetchRoom_ok.mp fetched]
    simp only [maybeRotate_force]
    split
    · rw [deleteRoom_lookup, if_pos rfl]
      exact .emptied room
    · rw [putRoom_lookup, if_pos rfl]
      exact .left room now

theorem publishSealed_roomChange [ByteSize Blob] (roomId sender recipient : String) (epoch : Nat) (blob : Blob)
    (state : State PubKey Blob) :
    RoomChange roomId (.publishSealed roomId sender recipient epoch blob) (state.rooms.lookup roomId)
      ((publishSealed roomId sender recipient epoch blob state).state.rooms.lookup roomId) := by
  unfold publishSealed
  split
  · exact .same _ False.elim
  next room passed =>
    obtain ⟨atRoom, senderIn, recipientIn, current, free⟩ := publishChecks_ok passed
    rw [putRoom_lookup, if_pos rfl, atRoom]
    exact .published room senderIn recipientIn current free

def Call.room : Call PubKey Blob → String
  | .initRoom roomId | .destroyRoom roomId | .registerPeerKey roomId _ _ _ _ | .removePeer roomId _
  | .requestRotation roomId | .keySet roomId | .publishSealed roomId _ _ _ _ | .sealedFor roomId _
  | .roomStatus roomId => roomId

theorem Call.invalidates_room {call : Call PubKey Blob} {roomId : String} (hit : call.invalidates roomId) :
    roomId = call.room := by
  cases call <;> first | exact hit.symm | exact hit.elim

variable [ByteSize PubKey] [DecidableEq PubKey] [ByteSize Blob]

theorem handleCall_roomChange (config : ProofConfig PubKey) (now : Nat) (call : Call PubKey Blob)
    (state : State PubKey Blob) :
    RoomChange call.room call (state.rooms.lookup call.room)
      ((handleCall config now call state).state.rooms.lookup call.room) := by
  cases call with
  | initRoom roomId =>
    simp only [handleCall, Outcome.wrap_state, initRoom, Call.room]
    split
    · exact .same _ False.elim
    next absent =>
      rw [putRoom_lookup, if_pos rfl, absent]
      exact .created now
  | destroyRoom roomId =>
    simp only [handleCall, Outcome.wrap_state, destroyRoom, Call.room]
    split
    next absent => exact .same _ fun _ => absent
    next room present =>
      rw [deleteRoom_lookup, if_pos rfl, present]
      exact .destroyed room
  | registerPeerKey roomId peerId publicKey identityKey signature =>
    exact registerPeerKey_roomChange config now roomId peerId publicKey identityKey signature state
  | removePeer roomId peerId => exact removePeer_roomChange now roomId peerId state
  | requestRotation roomId =>
    simp only [handleCall, Outcome.wrap_state, requestRotation, Call.room]
    split
    next fetched => exact .same _ fun _ => fetchRoom_error fetched
    next room fetched =>
      rw [putRoom_lookup, if_pos rfl, fetchRoom_ok.mp fetched]
      exact .rotated room now
  | publishSealed roomId sender recipient epoch blob =>
    exact publishSealed_roomChange roomId sender recipient epoch blob state
  | keySet roomId => exact .same _ False.elim
  | sealedFor roomId peerId => exact .same _ False.elim
  | roomStatus roomId => exact .same _ False.elim

/-- Calls on one room leave every other room alone. -/
theorem handleCall_other (config : ProofConfig PubKey) (now : Nat) (call : Call PubKey Blob)
    (state : State PubKey Blob) {other : String} (different : other ≠ call.room) :
    (handleCall config now call state).state.rooms.lookup other = state.rooms.lookup other := by
  cases call <;> simp only [Call.room] at different <;>
    simp only [handleCall, Outcome.wrap_state, initRoom, destroyRoom, registerPeerKey, removePeer,
      requestRotation, publishSealed]
  all_goals repeat' split
  all_goals simp [different]

/-- A call does nothing to a room it does not name, and one change to the room it names. -/
theorem handleCall_lookup (config : ProofConfig PubKey) (now : Nat) (call : Call PubKey Blob)
    (state : State PubKey Blob) (roomId : String) :
    RoomChange roomId call (state.rooms.lookup roomId)
      ((handleCall config now call state).state.rooms.lookup roomId) := by
  by_cases named : roomId = call.room
  · subst named
    exact handleCall_roomChange config now call state
  · rw [handleCall_other config now call state named]
    exact .same _ fun hit => absurd (Call.invalidates_room hit) named

end Burble.E2EE
