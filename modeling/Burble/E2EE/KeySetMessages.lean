import Mathlib.Data.List.Infix
import Burble.E2EE.RoomChannel

namespace Burble.E2EE

/-- A key set as it leaves a channel: broadcast after a registration, or in reply to `e2ee_key_set`. -/
structure KeySetMessage (PubKey : Type) where
  roomId : String
  epoch : Nat
  publicKeys : FiniteMap String PubKey

/-- What a channel process is in the middle of. -/
inductive Handling (PubKey : Type)
  | idle
  /-- the coordinator has replied to `register_peer_key` -/
  | registered (epoch peers : Nat)
  /-- `public_key_set` has returned too -/
  | prepared (payload : Announcement PubKey)

structure ChannelProcess (PubKey : Type) where
  roomId : String
  userId : String
  handling : Handling PubKey

/-- The coordinator, the channel processes of every room, and the key sets they have sent. -/
structure KeySetWorld (PubKey Blob : Type) where
  coordinator : State PubKey Blob
  processes : FiniteMap Nat (ChannelProcess PubKey)
  sent : List (KeySetMessage PubKey)

/-- `answered` says whether the reply of the coordinator comes in time: `safe_e2ee` turns an exit into an error. -/
inductive KeySetLabel (PubKey Blob : Type)
  /-- a call of some other process, of a channel that joins among them -/
  | call (now : Nat) (call : Call PubKey Blob)
  /-- the coordinator is restarted, and has lost its rooms -/
  | restart
  | open (id : Nat) (roomId userId : String)
  | registerKey (now id : Nat) (publicKey : PubKey) (identityKey signature : Option (List UInt8)) (answered : Bool)
  | fetchKeys (id : Nat) (answered : Bool)
  | broadcast (id : Nat)
  | refresh (id : Nat)
  | terminate (now id : Nat)
  /-- a process that does not get to its `terminate/2` -/
  | killed (id : Nat)

variable {PubKey Blob : Type}

/-- `public_key_set`, whose call may be lost. -/
def safePublicKeySet (answered : Bool) (roomId : String) (state : State PubKey Blob) : FiniteMap String PubKey :=
  if answered then publicKeySet roomId state else ∅

namespace KeySetWorld

def empty : KeySetWorld PubKey Blob := ⟨init, ∅, []⟩

variable (s : KeySetWorld PubKey Blob)

def put (id : Nat) (process : ChannelProcess PubKey) : KeySetWorld PubKey Blob :=
  { s with processes := s.processes.insert id process }

def «open» (id : Nat) (roomId userId : String) : Option (KeySetWorld PubKey Blob) :=
  match s.processes.lookup id with
  | some _ => none
  | none => some (s.put id ⟨roomId, userId, .idle⟩)

/-- `handle_in "e2ee_register_key"` up to the reply of the coordinator, and on a refusal to its end. -/
def registerKey [ByteSize PubKey] [DecidableEq PubKey] (config : ProofConfig PubKey) (now id : Nat) (publicKey : PubKey)
    (identityKey signature : Option (List UInt8)) (answered : Bool) : Option (KeySetWorld PubKey Blob) :=
  match s.processes.lookup id with
  | some process =>
    match process.handling with
    | .idle =>
      let outcome := registerPeerKey config now process.roomId process.userId publicKey identityKey signature s.coordinator
      let served : KeySetWorld PubKey Blob := { s with coordinator := outcome.state }
      match answered, outcome.reply with
      | true, .ok (epoch, peers) => some (served.put id { process with handling := .registered epoch peers })
      | _, _ => some served
    | _ => none
  | none => none

def fetchKeys (id : Nat) (answered : Bool) : Option (KeySetWorld PubKey Blob) :=
  match s.processes.lookup id with
  | some process =>
    match process.handling with
    | .registered epoch peers =>
      let publicKeys := safePublicKeySet answered process.roomId s.coordinator
      some (s.put id { process with handling := .prepared ⟨process.userId, epoch, peers, publicKeys⟩ })
    | _ => none
  | none => none

def send (message : KeySetMessage PubKey) : KeySetWorld PubKey Blob := { s with sent := message :: s.sent }

def broadcast (id : Nat) : Option (KeySetWorld PubKey Blob) :=
  match s.processes.lookup id with
  | some process =>
    match process.handling with
    | .prepared payload =>
      some ((s.put id { process with handling := .idle }).send ⟨process.roomId, payload.epoch, payload.publicKeys⟩)
    | _ => none
  | none => none

/-- `handle_in "e2ee_key_set"`: one call has both the epoch and the keys. -/
def refresh (id : Nat) : Option (KeySetWorld PubKey Blob) :=
  match s.processes.lookup id with
  | some process =>
    match process.handling, keySet process.roomId s.coordinator with
    | .idle, .ok keys => some (s.send ⟨process.roomId, keys.epoch, keys.peers⟩)
    | .idle, .error _ => some s
    | _, _ => none
  | none => none

def terminate (now id : Nat) : Option (KeySetWorld PubKey Blob) :=
  match s.processes.lookup id with
  | some process =>
    match process.handling with
    | .idle =>
      some { s with
        coordinator := teardownE2EEPeer now process.roomId process.userId s.coordinator
        processes := s.processes.erase id }
    | _ => none
  | none => none

def step [ByteSize PubKey] [DecidableEq PubKey] [ByteSize Blob] (config : ProofConfig PubKey) :
    KeySetLabel PubKey Blob → Option (KeySetWorld PubKey Blob)
  | .call now call => some { s with coordinator := (handleCall config now call s.coordinator).state }
  | .restart => some { s with coordinator := init }
  | .open id roomId userId => s.open id roomId userId
  | .registerKey now id publicKey identityKey signature answered =>
    s.registerKey config now id publicKey identityKey signature answered
  | .fetchKeys id answered => s.fetchKeys id answered
  | .broadcast id => s.broadcast id
  | .refresh id => s.refresh id
  | .terminate now id => s.terminate now id
  | .killed id => some { s with processes := s.processes.erase id }

end KeySetWorld

/-- The coordinator has the room at the message's epoch, with just the peers of the message. -/
def KeySetMessage.HeldBy (message : KeySetMessage PubKey) (state : State PubKey Blob) : Prop :=
  ∃ room ∈ state.rooms.lookup message.roomId, message.epoch = room.epoch ∧
    ∀ peerId, message.publicKeys.lookup peerId = (room.peers.lookup peerId).map Peer.publicKey

instance [DecidableEq PubKey] (message : KeySetMessage PubKey) (state : State PubKey Blob) :
    Decidable (message.HeldBy state) :=
  decidable_of_iff (∃ room ∈ state.rooms.lookup message.roomId, message.epoch = room.epoch ∧
    ∀ peerId ∈ message.publicKeys.keys ++ room.peers.keys,
      message.publicKeys.lookup peerId = (room.peers.lookup peerId).map Peer.publicKey) (by
    refine exists_congr fun room => and_congr_right fun _ => and_congr_right fun _ =>
      ⟨fun listed peerId => ?_, fun every peerId _ => every peerId⟩
    by_cases known : peerId ∈ message.publicKeys.keys ++ room.peers.keys
    · exact listed peerId known
    · rw [List.mem_append, not_or] at known
      rw [AList.lookup_eq_none.mpr fun present => known.1 (AList.mem_keys.mp present),
        AList.lookup_eq_none.mpr fun present => known.2 (AList.mem_keys.mp present)]
      rfl)

/-- The epoch that a channel has been answered and has no keys for yet. -/
def Handling.epoch? : Handling PubKey → Option Nat
  | .registered epoch _ => some epoch
  | _ => none

/-- The second call of a registration is answered, and finds the room at the epoch the first one was answered with. -/
def KeySetWorld.Prompt (s : KeySetWorld PubKey Blob) : KeySetLabel PubKey Blob → Prop
  | .fetchKeys id answered =>
    ∀ process ∈ s.processes.lookup id, ∀ epoch ∈ process.handling.epoch?,
      answered = true ∧ ∃ room ∈ s.coordinator.rooms.lookup process.roomId, room.epoch = epoch
  | _ => True

instance (s : KeySetWorld PubKey Blob) (label : KeySetLabel PubKey Blob) : Decidable (s.Prompt label) :=
  match label with
  | .fetchKeys id answered =>
    inferInstanceAs (Decidable (∀ process ∈ s.processes.lookup id, ∀ epoch ∈ process.handling.epoch?,
      answered = true ∧ ∃ room ∈ s.coordinator.rooms.lookup process.roomId, room.epoch = epoch))
  | .call .. | .restart | .open .. | .registerKey .. | .broadcast _ | .refresh _ | .terminate .. | .killed _ =>
    inferInstanceAs (Decidable True)

namespace KeySetWorld
variable {s after : KeySetWorld PubKey Blob} {held wider : KeySetMessage PubKey → Prop}

/-- What is about to be broadcast and what has been sent was held. -/
structure Coherent (held : KeySetMessage PubKey → Prop) (s : KeySetWorld PubKey Blob) : Prop where
  prepared : ∀ id, ∀ process ∈ s.processes.lookup id, ∀ payload, process.handling = .prepared payload →
    held ⟨process.roomId, payload.epoch, payload.publicKeys⟩
  sent : ∀ message ∈ s.sent, held message

theorem Coherent.mono (coherent : s.Coherent held) (weaken : ∀ message, held message → wider message) :
    s.Coherent wider :=
  ⟨fun id process found payload same => weaken _ (coherent.prepared id process found payload same),
    fun message member => weaken message (coherent.sent message member)⟩

theorem Coherent.serve (coherent : s.Coherent held) (coordinator : State PubKey Blob) :
    Coherent held { s with coordinator } :=
  ⟨coherent.prepared, coherent.sent⟩

theorem Coherent.put (coherent : s.Coherent held) (id : Nat) {process : ChannelProcess PubKey}
    (fits : ∀ payload, process.handling = .prepared payload → held ⟨process.roomId, payload.epoch, payload.publicKeys⟩) :
    (s.put id process).Coherent held := by
  refine ⟨fun other current found => ?_, coherent.sent⟩
  rw [Option.mem_def, KeySetWorld.put, FiniteMap.lookup_insert_if] at found
  split at found
  next =>
    cases found
    exact fits
  next => exact coherent.prepared other current found

theorem Coherent.erase (coherent : s.Coherent held) (id : Nat) :
    Coherent held { s with processes := s.processes.erase id } := by
  refine ⟨fun other current found => ?_, coherent.sent⟩
  rw [Option.mem_def, FiniteMap.lookup_erase_if] at found
  split at found
  next => cases found
  next => exact coherent.prepared other current found

theorem Coherent.send (coherent : s.Coherent held) {message : KeySetMessage PubKey} (fits : held message) :
    (s.send message).Coherent held := by
  refine ⟨coherent.prepared, fun other member => ?_⟩
  rcases List.mem_cons.mp member with rfl | before
  · exact fits
  · exact coherent.sent other before

theorem keySet_heldBy {roomId : String} {state : State PubKey Blob} {keys : KeySet PubKey}
    (read : keySet roomId state = .ok keys) : KeySetMessage.HeldBy ⟨roomId, keys.epoch, keys.peers⟩ state := by
  unfold keySet at read
  split at read
  · cases read
  next room found =>
    cases read
    exact ⟨room, found, rfl, fun peerId => FiniteMap.lookup_mapValues ..⟩

theorem publicKeySet_heldBy {roomId : String} {state : State PubKey Blob} {room : Room PubKey Blob}
    (found : state.rooms.lookup roomId = some room) :
    KeySetMessage.HeldBy ⟨roomId, room.epoch, publicKeySet roomId state⟩ state := by
  have read : keySet roomId state = .ok ⟨roomId, room.epoch, room.peers.mapValues Peer.publicKey⟩ := by
    simp only [keySet, found]
  simpa only [publicKeySet, read] using keySet_heldBy read

/-- The step lemma: a prompt step sends and prepares what was held before, or is held now. -/
theorem Coherent.step [ByteSize PubKey] [DecidableEq PubKey] [ByteSize Blob] {config : ProofConfig PubKey}
    {label : KeySetLabel PubKey Blob} (coherent : s.Coherent held)
    (now : ∀ message : KeySetMessage PubKey, message.HeldBy s.coordinator → held message)
    (prompt : s.Prompt label) (taken : s.step config label = some after) : after.Coherent held := by
  cases label with
  | call | restart =>
    cases taken
    exact coherent.serve _
  | killed =>
    cases taken
    exact coherent.erase _
  | «open» id roomId userId =>
    simp only [KeySetWorld.step, KeySetWorld.open] at taken
    split at taken
    · cases taken
    · cases taken
      exact coherent.put id fun _ idle => by cases idle
  | registerKey now id publicKey identityKey signature answered =>
    simp only [KeySetWorld.step, KeySetWorld.registerKey] at taken
    split at taken
    · split at taken
      · split at taken
        · cases taken
          exact (coherent.serve _).put id fun _ registered => by cases registered
        · cases taken
          exact coherent.serve _
      · cases taken
    · cases taken
  | fetchKeys id answered =>
    simp only [KeySetWorld.step, KeySetWorld.fetchKeys] at taken
    split at taken
    next process found =>
      split at taken
      next epoch peers registered =>
        cases taken
        obtain ⟨rfl, room, atRoom, rfl⟩ := prompt process found epoch (by rw [registered]; rfl)
        refine coherent.put id fun payload same => ?_
        cases same
        exact now _ (publicKeySet_heldBy atRoom)
      · cases taken
    · cases taken
  | broadcast id =>
    simp only [KeySetWorld.step, KeySetWorld.broadcast] at taken
    split at taken
    next process found =>
      split at taken
      next payload prepared =>
        cases taken
        have fits := coherent.prepared id process found payload prepared
        exact (coherent.put id fun _ idle => by cases idle).send fits
      · cases taken
    · cases taken
  | refresh id =>
    simp only [KeySetWorld.step, KeySetWorld.refresh] at taken
    split at taken
    · split at taken
      next keys _ read =>
        cases taken
        exact coherent.send (now _ (keySet_heldBy read))
      · cases taken
        exact coherent
      · cases taken
    · cases taken
  | terminate now id =>
    simp only [KeySetWorld.step, KeySetWorld.terminate] at taken
    split at taken
    · split at taken
      · cases taken
        exact (coherent.serve _).erase id
      · cases taken
    · cases taken

end KeySetWorld

section Coherence
variable [ByteSize PubKey] [DecidableEq PubKey] [ByteSize Blob] {config : ProofConfig PubKey}

def KeySetStep (config : ProofConfig PubKey) (before : KeySetWorld PubKey Blob) (label : KeySetLabel PubKey Blob)
    (after : KeySetWorld PubKey Blob) : Prop :=
  before.step config label = some after

/-- At some moment of the history the coordinator had what the message says. -/
def HeldOnce (config : ProofConfig PubKey) (history : List (KeySetLabel PubKey Blob)) (message : KeySetMessage PubKey) : Prop :=
  ∃ past ∈ history.inits, ∃ at_ ∈ play (fun s : KeySetWorld PubKey Blob => s.step config) past .empty,
    message.HeldBy at_.coordinator

instance (history : List (KeySetLabel PubKey Blob)) (message : KeySetMessage PubKey) :
    Decidable (HeldOnce config history message) :=
  inferInstanceAs (Decidable (∃ past ∈ history.inits, ∃ at_ ∈
    play (fun s : KeySetWorld PubKey Blob => s.step config) past .empty, message.HeldBy at_.coordinator))

theorem HeldOnce.next {history : List (KeySetLabel PubKey Blob)} {message : KeySetMessage PubKey}
    (once : HeldOnce config history message) (label : KeySetLabel PubKey Blob) : HeldOnce config (history ++ [label]) message := by
  obtain ⟨past, among, rest⟩ := once
  refine ⟨past, ?_, rest⟩
  rw [List.mem_inits] at among ⊢
  exact among.trans (List.prefix_append _ _)

theorem heldOnce_now {history : List (KeySetLabel PubKey Blob)} {s : KeySetWorld PubKey Blob}
    (run : Run (KeySetStep config) .empty history s) {message : KeySetMessage PubKey} (held : message.HeldBy s.coordinator) :
    HeldOnce config history message :=
  ⟨history, (List.mem_inits _ _).mpr List.prefix_rfl, s, run_play run, held⟩

/-- The run lemma: with prompt fetches, every key set that is sent was once the room's. -/
theorem key_sets_coherent {history : List (KeySetLabel PubKey Blob)} {last : KeySetWorld PubKey Blob}
    (run : Run (Guarded KeySetWorld.Prompt (KeySetStep config)) .empty history last) :
    ∀ message ∈ last.sent, HeldOnce config history message := by
  have coherent : last.Coherent (HeldOnce config history) := by
    induction run with
    | start =>
      refine ⟨fun id process found => ?_, fun message member => absurd member List.not_mem_nil⟩
      cases found
    | @next history current label after past taken ih =>
      have plain := past.mono fun taken => taken.2
      have earlier := ih.mono fun message once => once.next label
      exact earlier.step (fun message held => (heldOnce_now plain held).next label) taken.1 taken.2
  exact coherent.sent

end Coherence

/-- Bob registers, Alice registers, and Bob leaves before Alice's channel has read the keys. -/
def departureBetween : List (KeySetLabel (List UInt8) (List UInt8)) :=
  [.call 0 (.initRoom "r"), .open 1 "r" "alice", .open 2 "r" "bob",
   .registerKey 0 2 (List.replicate 32 2) none none true, .fetchKeys 2 true, .broadcast 2,
   .registerKey 0 1 (List.replicate 32 1) none none true, .terminate 0 2, .fetchKeys 1 true, .broadcast 1]

/-- Epoch 0 is announced with the members of epoch 1. -/
theorem epoch_mispaired : ¬ ∀ history (last : KeySetWorld (List UInt8) (List UInt8)),
    Run (KeySetStep unproven) .empty history last → ∀ message ∈ last.sent, HeldOnce unproven history message := by
  intro always
  have mispaired : ∃ last ∈ play (fun s : KeySetWorld (List UInt8) (List UInt8) => s.step unproven) departureBetween .empty,
      ∃ message ∈ last.sent, ¬ HeldOnce unproven departureBetween message := by decide
  obtain ⟨last, played, message, member, never⟩ := mispaired
  exact never (always departureBetween last (play_run played) message member)

/-- Bob leaves once the keys have been read for Alice, and she asks for them anew. -/
def departureAfter : List (KeySetLabel (List UInt8) (List UInt8)) :=
  [.call 0 (.initRoom "r"), .open 1 "r" "alice", .open 2 "r" "bob",
   .registerKey 0 2 (List.replicate 32 2) none none true, .fetchKeys 2 true, .broadcast 2,
   .registerKey 0 1 (List.replicate 32 1) none none true, .fetchKeys 1 true, .terminate 0 2, .broadcast 1, .refresh 1]

theorem key_sets_coherent_departure :
    ∃ last ∈ play (fun s : KeySetWorld (List UInt8) (List UInt8) => fun label =>
        if s.Prompt label then s.step unproven label else none) departureAfter .empty,
      last.sent.map KeySetMessage.epoch = [1, 0, 0] ∧ ∀ message ∈ last.sent, HeldOnce unproven departureAfter message := by
  obtain ⟨last, played, epochs⟩ : ∃ last, last ∈ play (fun s : KeySetWorld (List UInt8) (List UInt8) => fun label =>
      if s.Prompt label then s.step unproven label else none) departureAfter .empty ∧
      last.sent.map KeySetMessage.epoch = [1, 0, 0] := by decide
  exact ⟨last, played, epochs, key_sets_coherent (play_run_guarded played)⟩

end Burble.E2EE
