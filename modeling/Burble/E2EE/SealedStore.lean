import Burble.Runs
import Burble.E2EE.RoomChange

namespace Burble.E2EE
variable {PubKey Blob : Type}

/-- What every room on record satisfies: sealed entries belong to the current
epoch and to registered peers, and the peer map is bounded. -/
structure RoomSound (room : Room PubKey Blob) : Prop where
  current : ∀ recipient entry, room.sealed.lookup recipient = some entry → entry.epoch = room.epoch
  sender : ∀ recipient entry, room.sealed.lookup recipient = some entry → entry.sender ∈ room.peers
  recipient : ∀ recipient entry, room.sealed.lookup recipient = some entry → recipient ∈ room.peers
  oneEach : room.sealed.keys.Nodup
  bounded : room.peers.size ≤ maxPeers

def StateSound (state : State PubKey Blob) : Prop :=
  ∀ roomId room, state.rooms.lookup roomId = some room → RoomSound room

theorem RoomSound.of_quiet {room : Room PubKey Blob} (quiet : room.sealed = ∅)
    (bounded : room.peers.size ≤ maxPeers) : RoomSound room where
  current := by simp [quiet]
  sender := by simp [quiet]
  recipient := by simp [quiet]
  oneEach := room.sealed.keys_nodup
  bounded := bounded

theorem RoomSound.publish {room : Room PubKey Blob} (sound : RoomSound room) {recipient : String}
    {entry : Sealed Blob} (senderIn : entry.sender ∈ room.peers) (recipientIn : recipient ∈ room.peers)
    (current : entry.epoch = room.epoch) :
    RoomSound { room with sealed := room.sealed.insert recipient entry } where
  current other stored found := by
    rw [FiniteMap.lookup_insert_if] at found
    split at found
    · cases found; exact current
    · exact sound.current other stored found
  sender other stored found := by
    rw [FiniteMap.lookup_insert_if] at found
    split at found
    · cases found; exact senderIn
    · exact sound.sender other stored found
  recipient other stored found := by
    rw [FiniteMap.lookup_insert_if] at found
    split at found
    next same => subst same; exact recipientIn
    next => exact sound.recipient other stored found
  oneEach := AList.keys_nodup _
  bounded := sound.bounded

theorem RoomChange.sound {roomId : String} {call : Call PubKey Blob} {before after : Option (Room PubKey Blob)}
    (change : RoomChange roomId call before after) (sound : ∀ room, before = some room → RoomSound room) :
    ∀ room, after = some room → RoomSound room := by
  intro result atResult
  cases change with
  | same => exact sound result atResult
  | created =>
    cases atResult
    exact .of_quiet rfl (Nat.zero_le _)
  | destroyed | emptied => cases atResult
  | gathered room peer quiet roomy =>
    cases atResult
    have grown := FiniteMap.size_insert_le room.peers
    exact .of_quiet quiet (Nat.le_trans (grown _ peer) roomy)
  | rekeyed room peer now _ roomy =>
    cases atResult
    have grown := FiniteMap.size_insert_le room.peers
    exact .of_quiet rfl (Nat.le_trans (grown _ peer) roomy)
  | left room now =>
    cases atResult
    exact .of_quiet rfl (Nat.le_trans (FiniteMap.size_erase_le _ _) (sound room rfl).bounded)
  | rotated room now =>
    cases atResult
    exact .of_quiet rfl (sound room rfl).bounded
  | published room senderIn recipientIn current =>
    cases atResult
    exact (sound room rfl).publish senderIn recipientIn current

theorem publishSealed_reply [ByteSize Blob] {roomId sender recipient : String} {epoch : Nat} {blob : Blob}
    {state : State PubKey Blob}
    (changed : (publishSealed roomId sender recipient epoch blob state).state.rooms.lookup roomId ≠
      state.rooms.lookup roomId) :
    (publishSealed roomId sender recipient epoch blob state).reply = .ok () := by
  unfold publishSealed at changed ⊢
  split
  next failed => simp only [failed, ne_eq, not_true_eq_false] at changed
  next => rfl

theorem sealedFor_ok {state : State PubKey Blob} {roomId peerId : String} {entry : Sealed Blob}
    (found : sealedFor roomId peerId state = .ok entry) :
    ∃ room, state.rooms.lookup roomId = some room ∧ room.sealed.lookup peerId = some entry := by
  unfold sealedFor at found
  split at found
  · cases found
  next room atRoom =>
    split at found
    next stored atStored =>
      split at found
      next current =>
        cases found
        refine ⟨room, atRoom, ?_⟩
        rw [atStored, ← current]
      · cases found
    · cases found

theorem StateSound.sealedFor_not_stale {state : State PubKey Blob} (sound : StateSound state)
    (roomId peerId : String) : sealedFor roomId peerId state ≠ .error .staleEpoch := by
  unfold sealedFor
  split
  · simp
  next room atRoom =>
    split
    next stored atStored => simp [(sound roomId room atRoom).current _ _ atStored]
    · simp

variable [ByteSize PubKey] [DecidableEq PubKey] [ByteSize Blob]

/-- The coordinator serves one call; the label is the clock reading and the call. -/
def CoordStep (config : ProofConfig PubKey) (before : State PubKey Blob) (label : Nat × Call PubKey Blob)
    (after : State PubKey Blob) : Prop :=
  after = (handleCall config label.1 label.2 before).state

variable {config : ProofConfig PubKey} {before after last : State PubKey Blob} {label : Nat × Call PubKey Blob}

theorem CoordStep.roomChange (taken : CoordStep config before label after) (roomId : String) :
    RoomChange roomId label.2 (before.rooms.lookup roomId) (after.rooms.lookup roomId) := by
  rw [taken]
  exact handleCall_lookup config label.1 label.2 before roomId

theorem CoordStep.stateSound (taken : CoordStep config before label after) (sound : StateSound before) :
    StateSound after := fun roomId => (taken.roomChange roomId).sound (sound roomId)

theorem reachable_stateSound (reach : Reachable (CoordStep config) init last) : StateSound last :=
  reach.invariant (fun _ _ absent => by cases absent) fun sound taken => taken.stateSound sound

/-- The room as one publish left it: same epoch, same peers with the same
public keys, and the entry still stored for its recipient. -/
def Intact (roomId recipient : String) (entry : Sealed Blob) (peers : FiniteMap String (Peer PubKey))
    (state : State PubKey Blob) : Prop :=
  ∃ room, state.rooms.lookup roomId = some room ∧ room.epoch = entry.epoch ∧ room.peers = peers ∧
    room.sealed.lookup recipient = some entry

/-- The entry goes back to one accepted publish between registered peers, and from
that publish on no call touched the room's epoch or any of its public keys. -/
def PublishedIntact (config : ProofConfig PubKey) (labels : List (Nat × Call PubKey Blob))
    (last : State PubKey Blob) (roomId recipient : String) (entry : Sealed Blob) : Prop :=
  ∃ before published front now back peers,
    labels = front ++ (now, .publishSealed roomId entry.sender recipient entry.epoch entry.blob) :: back ∧
    Run (CoordStep config) init front before ∧
    CoordStep config before (now, .publishSealed roomId entry.sender recipient entry.epoch entry.blob) published ∧
    (publishSealed roomId entry.sender recipient entry.epoch entry.blob before).reply = .ok () ∧
    entry.sender ∈ peers ∧ recipient ∈ peers ∧ Intact roomId recipient entry peers published ∧
    Run (Within (Intact roomId recipient entry peers) (CoordStep config)) published back last ∧
    ∀ later ∈ back, ¬ later.2.invalidates roomId

/-- A stored entry either was there before the call, in a room the call kept as it
was, or is the one the call published. -/
theorem CoordStep.entry_origin (taken : CoordStep config before label after) {roomId recipient : String}
    {room : Room PubKey Blob} {entry : Sealed Blob} (atRoom : after.rooms.lookup roomId = some room)
    (stored : room.sealed.lookup recipient = some entry) :
    (∃ old, before.rooms.lookup roomId = some old ∧ old.sealed.lookup recipient = some entry ∧
      room.epoch = old.epoch ∧ room.peers = old.peers ∧ ¬ label.2.invalidates roomId) ∨
    (label.2 = .publishSealed roomId entry.sender recipient entry.epoch entry.blob ∧
      (publishSealed roomId entry.sender recipient entry.epoch entry.blob before).reply = .ok () ∧
      entry.sender ∈ room.peers ∧ recipient ∈ room.peers ∧ room.epoch = entry.epoch) := by
  obtain ⟨now, call⟩ := label
  have change := taken.roomChange roomId
  simp only at change ⊢
  generalize beforeEq : before.rooms.lookup roomId = start at change
  rw [atRoom] at change
  cases change with
  | same _ kept => exact Or.inl ⟨room, rfl, stored, rfl, rfl, fun hit => by cases kept hit⟩
  | created | rekeyed | left | rotated => simp [rotate] at stored
  | gathered old peer quiet => simp [quiet] at stored
  | @published sender other epoch blob old senderIn recipientIn current free =>
    rw [FiniteMap.lookup_insert_if] at stored
    split at stored
    next same =>
      subst same
      cases stored
      refine Or.inr ⟨rfl, publishSealed_reply ?_, senderIn, recipientIn, current.symm⟩
      have published : (publishSealed roomId sender recipient epoch blob before).state = after := taken.symm
      rw [published, atRoom, beforeEq]
      intro same
      have insideOut := congrArg (fun found => found.bind fun r => r.sealed.lookup recipient) same
      simp only [Option.bind_some, AList.lookup_insert, free] at insideOut
      cases insideOut
    next => exact Or.inl ⟨old, rfl, stored, rfl, rfl, False.elim⟩

theorem publishedIntact_of_run {labels : List (Nat × Call PubKey Blob)}
    (run : Run (CoordStep config) init labels last) {roomId recipient : String} {room : Room PubKey Blob}
    {entry : Sealed Blob} (atRoom : last.rooms.lookup roomId = some room)
    (stored : room.sealed.lookup recipient = some entry) :
    PublishedIntact config labels last roomId recipient entry := by
  induction run generalizing room with
  | start => simp [init] at atRoom
  | @next labels current label after previous taken ih =>
    rcases taken.entry_origin atRoom stored with
      ⟨old, atOld, storedOld, sameEpoch, samePeers, harmless⟩ | ⟨call, accepted, senderIn, recipientIn, epochEq⟩
    · obtain ⟨before, published, front, now, back, peers, split, first, publish, accepted, senderIn, recipientIn,
        intact, rest, calm⟩ := ih atOld storedOld
      have kept : Intact roomId recipient entry peers current := by
        cases rest with
        | start => exact intact
        | next _ inside => exact inside.2
      obtain ⟨seen, atSeen, seenEpoch, seenPeers, _⟩ := kept
      obtain rfl : seen = old := Option.some.inj (atSeen.symm.trans atOld)
      refine ⟨before, published, front, now, back ++ [label], peers, ?_, first, publish, accepted, senderIn,
        recipientIn, intact, rest.next ⟨taken, room, atRoom, ?_, ?_, stored⟩, ?_⟩
      · simp only [split, List.append_assoc, List.cons_append]
      · rw [sameEpoch, seenEpoch]
      · rw [samePeers, seenPeers]
      · simpa only [List.mem_append, List.mem_singleton, or_imp, forall_and, forall_eq] using ⟨calm, harmless⟩
    · obtain ⟨now, sent⟩ := label
      cases call
      exact ⟨current, after, labels, now, [], room.peers, rfl, previous, taken, accepted, senderIn, recipientIn,
        ⟨room, atRoom, epochEq, rfl, stored⟩, .start, by simp⟩

/-- A refused call changes nothing and announces nothing. -/
theorem handleCall_error (now : Nat) (call : Call PubKey Blob) (state : State PubKey Blob) {reason : Error}
    (refused : (handleCall config now call state).reply = .error reason) :
    (handleCall config now call state).state = state ∧ (handleCall config now call state).lifecycle = [] := by
  cases call <;>
    simp only [handleCall, Outcome.wrap, initRoom, destroyRoom, registerPeerKey, removePeer, requestRotation,
      publishSealed] at refused ⊢
  all_goals repeat' split at refused
  all_goals first | (cases refused; done) | simp_all

/-- The coordinator after a list of calls. -/
def serve (config : ProofConfig PubKey) (calls : List (Nat × Call PubKey Blob)) (state : State PubKey Blob) :
    State PubKey Blob :=
  calls.foldl (fun current label => (handleCall config label.1 label.2 current).state) state

theorem serve_run (config : ProofConfig PubKey) (calls : List (Nat × Call PubKey Blob))
    (state : State PubKey Blob) : Run (CoordStep config) state calls (serve config calls state) := by
  induction calls generalizing state with
  | nil => exact .start
  | cons label rest ih => exact (Run.single rfl : Run (CoordStep config) state [label] _).append (ih _)

/-- In every state the coordinator can reach, each stored entry is current, between
registered peers and untouched since its publish; fetching never meets a stale
entry; and a refused call leaves the state as it was. -/
theorem coordinator_store_invariant {labels : List (Nat × Call PubKey Blob)}
    (run : Run (CoordStep config) init labels last) :
    StateSound last ∧
    (∀ roomId recipient room entry, last.rooms.lookup roomId = some room →
      room.sealed.lookup recipient = some entry → PublishedIntact config labels last roomId recipient entry) ∧
    (∀ roomId peerId entry, sealedFor roomId peerId last = .ok entry →
      PublishedIntact config labels last roomId peerId entry) ∧
    (∀ roomId peerId, sealedFor roomId peerId last ≠ .error .staleEpoch) ∧
    ∀ now call reason, (handleCall config now call last).reply = .error reason →
      (handleCall config now call last).state = last := by
  have sound := reachable_stateSound run.reachable
  refine ⟨sound, fun roomId recipient room entry => publishedIntact_of_run run, ?_,
    sound.sealedFor_not_stale, fun now call reason refused => (handleCall_error now call last refused).1⟩
  intro roomId peerId entry found
  obtain ⟨room, atRoom, stored⟩ := sealedFor_ok found
  exact publishedIntact_of_run run atRoom stored

/-- Two peers register and one seals to the other. -/
def sealedMeeting : List (Nat × Call (List UInt8) (List UInt8)) :=
  [(0, .initRoom "r"), (1, .registerPeerKey "r" "alice" (List.replicate 32 1) none none),
   (2, .registerPeerKey "r" "bob" (List.replicate 32 2) none none), (3, .publishSealed "r" "alice" "bob" 0 [7])]

theorem coordinator_store_invariant_meeting :
    sealedFor "r" "bob" (serve unproven sealedMeeting init) = .ok ⟨0, "alice", [7]⟩ ∧
      PublishedIntact unproven sealedMeeting (serve unproven sealedMeeting init) "r" "bob" ⟨0, "alice", [7]⟩ :=
  ⟨rfl, (coordinator_store_invariant (serve_run unproven sealedMeeting init)).2.2.1 "r" "bob" _ rfl⟩

end Burble.E2EE
