import Burble.E2EE.RoomReplies
import Burble.E2EE.SymbolicCrypto
import Burble.E2EE.SessionFrames
import Burble.E2EE.SessionService

namespace Burble.E2EE
variable {PubKey PrivKey PairKey Key Blob : Type}

/-- READY, at this epoch, with the room key in hand. -/
def Session.ReadyAt (s : Session PubKey PrivKey PairKey Key Blob) (epoch : Nat) : Prop :=
  s.status = .ready ∧ s.epoch = epoch ∧ s.hasRoomKey = true

/-- A sealed key is opened while the session is at the epoch it was sealed for. -/
def Session.OpenTimely (s : Session PubKey PrivKey PairKey Key Blob)
    (label : Event PubKey PrivKey PairKey Key Blob × Key) : Prop :=
  ∀ opened ∈ s.opens label, opened.1.epoch = s.epoch

instance (s : Session PubKey PrivKey PairKey Key Blob) (label : Event PubKey PrivKey PairKey Key Blob × Key) :
    Decidable (s.OpenTimely label) := inferInstanceAs (Decidable (∀ opened ∈ s.opens label, _))

/-- A publish the coordinator would accept comes from the peer behind every blob the room
has stored. -/
def Frame.SolePublisher [ByteSize Blob] (roomId peerId : String) (state : State PubKey Blob) :
    Frame PubKey PrivKey PairKey Key Blob → Prop
  | .publish work recipient _ blob =>
    ∀ room ∈ (publishChecks state roomId peerId recipient work.epoch blob).toOption,
      ∀ entry ∈ room.sealed.entries, entry.2.sender = peerId
  | _ => True

instance [ByteSize Blob] (roomId peerId : String) (state : State PubKey Blob)
    (frame : Frame PubKey PrivKey PairKey Key Blob) : Decidable (frame.SolePublisher roomId peerId state) :=
  match frame with
  | .publish work recipient _ blob =>
    inferInstanceAs (Decidable (∀ room ∈ (publishChecks state roomId peerId recipient work.epoch blob).toOption,
      ∀ entry ∈ room.sealed.entries, entry.2.sender = peerId))
  | .generateKeypair | .registerKey _ | .fetchKeySet _ | .pairwise .. | .seal .. | .settled .. | .openPairwise ..
  | .openGroup .. => inferInstanceAs (Decidable True)

namespace RoomSystem

/-- The room is initialised once, every epoch has one publisher, and sessions handle
replies and blobs in the epoch these belong to. -/
def Disciplined [DecidableEq PubKey] [DecidableEq PrivKey] [DecidableEq PairKey] [DecidableEq Key] [ByteSize Blob]
    [DecidableEq Blob] (crypto : IdealCrypto PubKey PrivKey PairKey Key Blob) (roomId : String)
    (s : RoomSystem PubKey PrivKey PairKey Key Blob) (label : Nat × Key × RoomEvent PrivKey) : Prop :=
  match label.2.2 with
  | .arrive .. => s.coordinator.rooms.lookup roomId = none → s.lifetimes = 0
  | .serve peerId frameId => ∀ session ∈ s.sessions.lookup peerId, ∀ frame ∈ session.frames.lookup frameId,
      frame.SolePublisher roomId peerId s.coordinator
  | event => ∀ acting ∈ s.acts crypto roomId event, ∀ session ∈ s.sessions.lookup acting.1,
      session.PublishTimely (acting.2, label.2.1) ∧ session.RegisterClean (acting.2, label.2.1) ∧
        session.OpenTimely (acting.2, label.2.1)

instance [DecidableEq PubKey] [DecidableEq PrivKey] [DecidableEq PairKey] [DecidableEq Key] [ByteSize Blob]
    [DecidableEq Blob] (crypto : IdealCrypto PubKey PrivKey PairKey Key Blob) (roomId : String)
    (s : RoomSystem PubKey PrivKey PairKey Key Blob) (label : Nat × Key × RoomEvent PrivKey) :
    Decidable (s.Disciplined crypto roomId label) :=
  have acting (event : RoomEvent PrivKey) : Decidable (∀ acting ∈ s.acts crypto roomId event,
      ∀ session ∈ s.sessions.lookup acting.1, session.PublishTimely (acting.2, label.2.1) ∧
        session.RegisterClean (acting.2, label.2.1) ∧ session.OpenTimely (acting.2, label.2.1)) := inferInstance
  match label with
  | (_, _, .arrive ..) => inferInstanceAs (Decidable (s.coordinator.rooms.lookup roomId = none → s.lifetimes = 0))
  | (_, _, .serve peerId frameId) =>
    inferInstanceAs (Decidable (∀ session ∈ s.sessions.lookup peerId, ∀ frame ∈ session.frames.lookup frameId,
      frame.SolePublisher roomId peerId s.coordinator))
  | (_, _, .leave peerId) => acting (.leave peerId)
  | (_, _, .rotate) => acting .rotate
  | (_, _, .announce index) => acting (.announce index)
  | (_, _, .start peerId) => acting (.start peerId)
  | (_, _, .refreshKeySet peerId) => acting (.refreshKeySet peerId)
  | (_, _, .hearKeySet peerId index) => acting (.hearKeySet peerId index)
  | (_, _, .hearSealed peerId index) => acting (.hearSealed peerId index)
  | (_, _, .resume peerId frameId choice) => acting (.resume peerId frameId choice)

/-- Registered peers that are READY at the room's epoch hold the same room key. -/
def Agreed (roomId : String) (s : RoomSystem PubKey PrivKey PairKey Key Blob) : Prop :=
  ∀ room, s.coordinator.rooms.lookup roomId = some room → ∀ peerId otherId, peerId ∈ room.peers →
    otherId ∈ room.peers → ∀ session other, s.sessions.lookup peerId = some session →
      s.sessions.lookup otherId = some other → session.ReadyAt room.epoch → other.ReadyAt room.epoch →
        session.roomKey = other.roomKey

/-- Wherever a key shows up, a publish of it was accepted before: in a reply, a relayed
blob, a session's record of whom it served, or a session's room key. -/
structure Traced (crypto : IdealCrypto PubKey PrivKey PairKey Key Blob) (roomId : String)
    (s : RoomSystem PubKey PrivKey PairKey Key Blob) : Prop where
  localId : ∀ peerId session, s.sessions.lookup peerId = some session → session.localId = peerId
  once : ∀ peerId session, s.sessions.lookup peerId = some session → session.OneKey
  genuine : ∀ peerId session, s.sessions.lookup peerId = some session →
    session.Genuine (· ∈ s.sealedKeys) (SealedBy crypto roomId peerId)
  replied : ∀ reply ∈ s.replies, reply.result = .accepted → ∀ work recipient publicKey blob,
    reply.frame = .publish work recipient publicKey blob → ⟨work.epoch, reply.peerId, work.groupKey⟩ ∈ s.sources
  relayed : ∀ msg ∈ s.sealedKeys, ∃ key, ⟨msg.epoch, msg.sender, key⟩ ∈ s.sources ∧
    SealedBy crypto roomId msg.sender key msg.epoch msg.recipient msg.blob
  served : ∀ peerId session, s.sessions.lookup peerId = some session → ∀ one ∈ session.served,
    ⟨one.epoch, peerId, one.key⟩ ∈ s.sources
  held : ∀ peerId session, s.sessions.lookup peerId = some session → ∀ key, session.roomKey = some key →
    ∃ sender, ⟨session.epoch, sender, key⟩ ∈ s.sources
  oneKey : ∀ source ∈ s.sources, ∀ other ∈ s.sources, source.epoch = other.epoch → source.key = other.key


/-- No epoch anywhere is ahead of the room's. -/
structure Bounded (s : RoomSystem PubKey PrivKey PairKey Key Blob) (epoch : Nat) : Prop where
  sessions : ∀ peerId session, s.sessions.lookup peerId = some session → session.epoch ≤ epoch
  replies : ∀ reply ∈ s.replies, ∀ carried ∈ epochIn reply.result, carried ≤ epoch
  announcing : ∀ announced ∈ s.announcing, announced ≤ epoch
  keySets : ∀ msg ∈ s.keySets, msg.epoch ≤ epoch
  sources : ∀ source ∈ s.sources, source.epoch ≤ epoch

/-- The room on record: only present peers are registered, and whoever had a key accepted
for its epoch is behind a stored blob and still holds that key as leader. -/
structure Placed (s : RoomSystem PubKey PrivKey PairKey Key Blob) (room : Room PubKey Blob) : Prop where
  sound : RoomSound room
  members : ∀ peerId ∈ room.peers, peerId ∈ s.present
  bounded : s.Bounded room.epoch
  stored : ∀ source ∈ s.sources, source.epoch = room.epoch →
    ∃ recipient entry, room.sealed.lookup recipient = some entry ∧ entry.sender = source.sender
  leads : ∀ source ∈ s.sources, source.epoch = room.epoch →
    ∃ session, s.sessions.lookup source.sender = some session ∧ session.epoch = room.epoch ∧
      session.leaderKey = some (room.epoch, source.key)

/-- What every run keeps. -/
structure Sound (crypto : IdealCrypto PubKey PrivKey PairKey Key Blob) (roomId : String)
    (s : RoomSystem PubKey PrivKey PairKey Key Blob) : Prop where
  traced : s.Traced crypto roomId
  placed : ∀ room, s.coordinator.rooms.lookup roomId = some room → s.Placed room
  pristine : s.lifetimes = 0 → s = empty

variable {s after : RoomSystem PubKey PrivKey PairKey Key Blob} {crypto : IdealCrypto PubKey PrivKey PairKey Key Blob}
  {roomId : String}

theorem Sound.agreed (sound : s.Sound crypto roomId) : s.Agreed roomId := by
  intro room atRoom peerId otherId _ _ session other atPeer atOther ready otherReady
  obtain ⟨-, epoch, held⟩ := ready
  obtain ⟨-, otherEpoch, otherHeld⟩ := otherReady
  obtain ⟨key, roomKey⟩ := Option.isSome_iff_exists.mp held
  obtain ⟨otherKey, otherRoomKey⟩ := Option.isSome_iff_exists.mp otherHeld
  obtain ⟨sender, source⟩ := sound.traced.held peerId session atPeer key roomKey
  obtain ⟨otherSender, otherSource⟩ := sound.traced.held otherId other atOther otherKey otherRoomKey
  have same := sound.traced.oneKey _ source _ otherSource (epoch.trans otherEpoch.symm)
  exact roomKey.trans (by rw [show key = otherKey from same]; exact otherRoomKey.symm)

section acting
variable [DecidableEq PubKey] [DecidableEq PrivKey] [DecidableEq PairKey] [DecidableEq Key] [DecidableEq Blob]
  {event : RoomEvent PrivKey} {peerId : String} {piece : Event PubKey PrivKey PairKey Key Blob} {fresh : Key}
  {session next : Session PubKey PrivKey PairKey Key Blob}

/-- The publishes a session counts as accepted were accepted. -/
theorem Traced.act_served (traced : s.Traced crypto roomId) (acting : s.acts crypto roomId event = some (peerId, piece))
    (atPeer : s.sessions.lookup peerId = some session) (taken : SessionStep session (piece, fresh) next)
    {one : Served PubKey Key} (member : one ∈ next.served) : ⟨one.epoch, peerId, one.key⟩ ∈ s.sources := by
  rcases Session.step_served taken member with before | ⟨work, publishes, epoch, key⟩
  · exact traced.served peerId session atPeer one before
  · obtain ⟨reply, sent, sender, accepted, blob, frame⟩ := publishes_reply acting atPeer publishes
    have source := traced.replied reply sent accepted work _ _ blob frame
    rwa [sender, ← epoch, ← key] at source

theorem Traced.act (traced : s.Traced crypto roomId) (acting : s.acts crypto roomId event = some (peerId, piece))
    (atPeer : s.sessions.lookup peerId = some session) (taken : SessionStep session (piece, fresh) next)
    (timely : session.PublishTimely (piece, fresh)) (clean : session.RegisterClean (piece, fresh))
    (opened : session.OpenTimely (piece, fresh)) :
    Traced crypto roomId { s with sessions := s.sessions.insert peerId next } := by
  have once := traced.once peerId session atPeer
  have genuine := traced.genuine peerId session atPeer
  -- every other session is as it was
  have cases {holds : String → Session PubKey PrivKey PairKey Key Blob → Prop} (mine : holds peerId next)
      (others : ∀ other found, s.sessions.lookup other = some found → holds other found) :
      ∀ other found, (s.sessions.insert peerId next).lookup other = some found → holds other found := by
    intro other found atOther
    rw [FiniteMap.lookup_insert_if] at atOther
    split at atOther
    next same => cases atOther; exact same ▸ mine
    next => exact others other found atOther
  refine ⟨cases ?_ traced.localId, cases ?_ traced.once, cases ?_ traced.genuine, traced.replied, traced.relayed,
    cases ?_ traced.served, cases ?_ traced.held, traced.oneKey⟩
  · exact (Session.step_localId taken).trans (traced.localId peerId session atPeer)
  · exact once.step timely clean taken
  · refine genuine.step (fun msg heard => (acts_heard acting).2 msg heard) ?_ taken
    exact fun work recipient publicKey pair blob resumed => seals_blob acting atPeer resumed
  · exact fun one member => traced.act_served acting atPeer taken member
  · intro key held
    rcases once.step_roomKey timely taken held with ⟨before, still⟩ | ⟨one, member, epoch, rfl⟩ | ⟨⟨msg, opens⟩, still⟩
    · rw [still]
      exact traced.held peerId session atPeer key before
    · rw [← epoch]
      exact ⟨peerId, traced.act_served acting atPeer taken member⟩
    · obtain ⟨id, pair, atId, opensTo⟩ := opens_key acting atPeer opens
      obtain ⟨key', source, pair', sealed⟩ := traced.relayed msg (genuine id _ atId)
      rw [sealed, crypto.opens] at opensTo
      rw [still, ← opened _ opens, opensTo.1]
      exact ⟨msg.sender, source⟩

theorem Placed.act {room : Room PubKey Blob} (placed : s.Placed room)
    (acting : s.acts crypto roomId event = some (peerId, piece)) (atPeer : s.sessions.lookup peerId = some session)
    (taken : SessionStep session (piece, fresh) next) :
    Placed { s with sessions := s.sessions.insert peerId next } room := by
  obtain ⟨grows, moves⟩ := Session.step_epoch taken
  have behind : next.epoch ≤ room.epoch := by
    rcases moves with still | registers | ⟨msg, takes, moved⟩
    · rw [still]
      exact placed.bounded.sessions peerId session atPeer
    · obtain ⟨reply, member, carried⟩ := registers_reply acting atPeer registers
      exact placed.bounded.replies reply member _ carried
    · rw [moved]
      rcases takes_sent acting atPeer takes with sent | ⟨reply, member, carried⟩
      · exact placed.bounded.keySets msg sent
      · exact placed.bounded.replies reply member _ carried
  refine ⟨placed.sound, placed.members, ⟨fun other found atOther => ?_, placed.bounded.replies,
    placed.bounded.announcing, placed.bounded.keySets, placed.bounded.sources⟩, placed.stored,
    fun source member current => ?_⟩
  · rw [FiniteMap.lookup_insert_if] at atOther
    split at atOther
    · cases atOther; exact behind
    · exact placed.bounded.sessions other found atOther
  · obtain ⟨leader, atLeader, epoch, leaderKey⟩ := placed.leads source member current
    rw [FiniteMap.lookup_insert_if]
    split
    next same =>
      rw [same, atPeer] at atLeader
      cases atLeader
      have still : next.epoch = session.epoch := by omega
      rw [← epoch] at leaderKey
      have kept := Session.step_leaderKey taken leaderKey still
      rw [still, epoch] at kept
      exact ⟨next, rfl, still.trans epoch, kept⟩
    next => exact ⟨leader, atLeader, epoch, leaderKey⟩

end acting

/-- The coordinator has moved, nothing but replies and pending announcements has come of
it, and these carry no epoch but the room's. -/
structure Moved (roomId : String) (s after : RoomSystem PubKey PrivKey PairKey Key Blob) : Prop where
  sessions : after.sessions = s.sessions
  keySets : after.keySets = s.keySets
  sealedKeys : after.sealedKeys = s.sealedKeys
  sources : after.sources = s.sources
  lifetimes : after.lifetimes = s.lifetimes
  change : ∃ call, RoomChange roomId call (s.coordinator.rooms.lookup roomId)
    (after.coordinator.rooms.lookup roomId) ∧ ∀ other, call ≠ .initRoom other
  members : ∀ room, after.coordinator.rooms.lookup roomId = some room → ∀ peerId ∈ room.peers, peerId ∈ after.present
  replies : ∀ reply ∈ after.replies, reply ∈ s.replies ∨ reply.result ≠ .accepted ∧
    ∀ room, after.coordinator.rooms.lookup roomId = some room → ∀ carried ∈ epochIn reply.result, carried ≤ room.epoch
  announcing : ∀ announced ∈ after.announcing, announced ∈ s.announcing ∨
    ∀ room, after.coordinator.rooms.lookup roomId = some room → announced ≤ room.epoch

theorem Traced.moved (traced : s.Traced crypto roomId) (moved : Moved roomId s after) :
    after.Traced crypto roomId := by
  obtain ⟨sessions, -, sealedKeys, sources, -, -, -, replies, -⟩ := moved
  refine ⟨?_, ?_, ?_, fun reply member accepted => ?_, ?_, ?_, ?_, ?_⟩
  · rw [sessions]; exact traced.localId
  · rw [sessions]; exact traced.once
  · rw [sessions, sealedKeys]; exact traced.genuine
  · rw [sources]
    exact traced.replied reply ((replies reply member).resolve_right fun new => new.1 accepted) accepted
  · rw [sealedKeys, sources]; exact traced.relayed
  · rw [sessions, sources]; exact traced.served
  · rw [sessions, sources]; exact traced.held
  · rw [sources]; exact traced.oneKey

theorem Placed.moved {room later : Room PubKey Blob} (placed : s.Placed room) (moved : Moved roomId s after)
    (before : s.coordinator.rooms.lookup roomId = some room)
    (atLater : after.coordinator.rooms.lookup roomId = some later) : after.Placed later := by
  obtain ⟨call, change, -⟩ := moved.change
  rw [before, atLater] at change
  have kept := kept_or_later change
  have onward : room.epoch ≤ later.epoch := by
    rcases kept with newer | ⟨same, -⟩
    · exact le_of_lt newer
    · exact le_of_eq same.symm
  have current {source : KeySource Key} (member : source ∈ s.sources) (now : source.epoch = later.epoch) :
      later.epoch = room.epoch ∧
        ∀ recipient entry, room.sealed.lookup recipient = some entry → later.sealed.lookup recipient = some entry := by
    have bound := placed.bounded.sources source member
    exact kept.resolve_left (by omega)
  refine ⟨?_, moved.members later atLater, ⟨fun peerId session atPeer => ?_, fun reply member carried found => ?_,
    fun announced member => ?_, fun msg member => ?_, fun source member => ?_⟩, fun source member now => ?_,
    fun source member now => ?_⟩
  · exact change.sound (fun _ same => by cases same; exact placed.sound) later rfl
  · rw [moved.sessions] at atPeer
    exact (placed.bounded.sessions peerId session atPeer).trans onward
  · rcases moved.replies reply member with old | ⟨-, new⟩
    · exact (placed.bounded.replies reply old carried found).trans onward
    · exact new later atLater carried found
  · rcases moved.announcing announced member with old | new
    · exact (placed.bounded.announcing announced old).trans onward
    · exact new later atLater
  · exact (placed.bounded.keySets msg (moved.keySets ▸ member)).trans onward
  · exact (placed.bounded.sources source (moved.sources ▸ member)).trans onward
  · rw [moved.sources] at member
    obtain ⟨same, stays⟩ := current member now
    obtain ⟨recipient, entry, found, sender⟩ := placed.stored source member (now.trans same)
    exact ⟨recipient, entry, stays recipient entry found, sender⟩
  · rw [moved.sources] at member
    obtain ⟨same, -⟩ := current member now
    rw [moved.sessions, same]
    exact placed.leads source member (now.trans same)

theorem Sound.moved (sound : s.Sound crypto roomId) (moved : Moved roomId s after) (started : s.lifetimes ≠ 0) :
    after.Sound crypto roomId := by
  refine ⟨sound.traced.moved moved, fun later atLater => ?_, fun none => absurd (moved.lifetimes ▸ none) started⟩
  cases before : s.coordinator.rooms.lookup roomId with
  | none =>
    obtain ⟨call, change, other⟩ := moved.change
    rw [before] at change
    rw [absent_of_absent change other] at atLater
    cases atLater
  | some room => exact (sound.placed room before).moved moved before atLater

/-- Once somebody has arrived, the room has been initialised. -/
theorem Sound.started (sound : s.Sound crypto roomId) (somebody : s.present ≠ [] ∨ s.sessions ≠ ∅) :
    s.lifetimes ≠ 0 := by
  intro none
  have nobody := sound.pristine none
  rw [nobody] at somebody
  rcases somebody with present | sessions
  · exact present rfl
  · exact sessions rfl

theorem Sound.announce (sound : s.Sound crypto roomId) {index : Nat} (taken : s.announce roomId index = some after) :
    after.Sound crypto roomId := by
  obtain ⟨epoch, atIndex, same⟩ := Option.bind_eq_some_iff.mp taken
  cases same
  have announced := List.mem_of_getElem? atIndex
  refine ⟨⟨sound.traced.localId, sound.traced.once, sound.traced.genuine, sound.traced.replied,
    sound.traced.relayed, sound.traced.served, sound.traced.held, sound.traced.oneKey⟩, fun room atRoom => ?_,
    fun none => ?_⟩
  · have placed := sound.placed room atRoom
    refine ⟨placed.sound, placed.members, ⟨placed.bounded.sessions, placed.bounded.replies,
      fun other member => placed.bounded.announcing other (List.mem_of_mem_eraseIdx member),
      fun msg member => ?_, placed.bounded.sources⟩, placed.stored, placed.leads⟩
    rcases List.mem_append.mp member with old | new
    · exact placed.bounded.keySets msg old
    · rw [List.mem_singleton.mp new]
      exact placed.bounded.announcing epoch announced
  · rw [sound.pristine none] at announced
    cases announced

theorem Traced.relocate (traced : s.Traced crypto roomId) (coordinator : State PubKey Blob) (present : List String)
    (lifetimes : Nat) : Traced crypto roomId { s with coordinator, present, lifetimes } :=
  ⟨traced.localId, traced.once, traced.genuine, traced.replied, traced.relayed, traced.served, traced.held,
    traced.oneKey⟩

theorem Placed.relocate {room : Room PubKey Blob} (placed : s.Placed room) (coordinator : State PubKey Blob)
    {present : List String} (members : ∀ peerId ∈ s.present, peerId ∈ present) (lifetimes : Nat) :
    Placed { s with coordinator, present, lifetimes } room :=
  ⟨placed.sound, fun peerId member => members peerId (placed.members peerId member),
    ⟨placed.bounded.sessions, placed.bounded.replies, placed.bounded.announcing, placed.bounded.keySets,
      placed.bounded.sources⟩, placed.stored, placed.leads⟩

/-- A client starts afresh: nothing it held matters to the room, for its peer is not there. -/
theorem Traced.renew (traced : s.Traced crypto roomId) (peerId : String) :
    Traced crypto roomId { s with
      sessions := s.sessions.insert peerId (Session.create peerId)
      replies := s.replies.filter fun reply => reply.peerId ≠ peerId } := by
  have cases {holds : String → Session PubKey PrivKey PairKey Key Blob → Prop}
      (mine : holds peerId (Session.create peerId))
      (others : ∀ other found, s.sessions.lookup other = some found → holds other found) :
      ∀ other found, (s.sessions.insert peerId (Session.create peerId)).lookup other = some found →
        holds other found := by
    intro other found atOther
    rw [FiniteMap.lookup_insert_if] at atOther
    split at atOther
    next same => cases atOther; exact same ▸ mine
    next => exact others other found atOther
  refine ⟨cases rfl traced.localId, cases (Session.OneKey.create peerId) traced.once,
    cases (Session.Genuine.create peerId) traced.genuine,
    fun reply member => traced.replied reply (List.mem_of_mem_filter member), traced.relayed,
    cases (fun _ member => by cases member) traced.served, cases (fun _ held => by cases held) traced.held,
    traced.oneKey⟩

theorem Placed.renew {room : Room PubKey Blob} (placed : s.Placed room) {peerId : String} (absent : peerId ∉ s.present) :
    Placed { s with
      sessions := s.sessions.insert peerId (Session.create peerId)
      replies := s.replies.filter fun reply => reply.peerId ≠ peerId } room := by
  refine ⟨placed.sound, placed.members, ⟨fun other found atOther => ?_,
    fun reply member => placed.bounded.replies reply (List.mem_of_mem_filter member), placed.bounded.announcing,
    placed.bounded.keySets, placed.bounded.sources⟩, placed.stored, fun source member now => ?_⟩
  · rw [FiniteMap.lookup_insert_if] at atOther
    split at atOther
    · cases atOther; exact Nat.zero_le _
    · exact placed.bounded.sessions other found atOther
  · obtain ⟨recipient, entry, found, sender⟩ := placed.stored source member now
    have registered := placed.members _ (placed.sound.sender recipient entry found)
    rw [FiniteMap.lookup_insert_if, if_neg]
    · exact placed.leads source member now
    · rintro same
      exact absent (same ▸ sender ▸ registered)

theorem empty_placed {room : Room PubKey Blob} (quiet : room.sealed = ∅) (nobody : room.peers = ∅) :
    Placed (empty : RoomSystem PubKey PrivKey PairKey Key Blob) room := by
  have size : room.peers.size ≤ maxPeers := by rw [nobody]; exact Nat.zero_le _
  refine ⟨.of_quiet quiet size, fun peerId member => ?_, ⟨?_, ?_, ?_, ?_, ?_⟩, ?_, ?_⟩
  · rw [nobody] at member
    cases member
  · intro peerId session atPeer
    cases atPeer
  all_goals
    intro _ member
    cases member

/-- An accepted publish adds a source: its sender is the room's only one, so it is the
leader's key of the epoch once more. -/
theorem Sound.publish [ByteSize Blob] (sound : s.Sound crypto roomId) {peerId recipient : String} {frameId : Nat}
    {session : Session PubKey PrivKey PairKey Key Blob} {work : Distribution PubKey Key Blob} {publicKey : PubKey}
    {blob : Blob} {room : Room PubKey Blob} {coordinator : State PubKey Blob}
    (atPeer : s.sessions.lookup peerId = some session)
    (atFrame : session.frames.lookup frameId = some (.publish work recipient publicKey blob))
    (sole : ∀ entry ∈ room.sealed.entries, entry.2.sender = peerId)
    (passed : publishChecks s.coordinator roomId peerId recipient work.epoch blob = .ok room)
    (stored : coordinator.rooms.lookup roomId =
      some { room with sealed := room.sealed.insert recipient ⟨work.epoch, peerId, blob⟩ }) :
    Sound crypto roomId { s with
      coordinator
      replies := s.replies ++ [⟨peerId, frameId, .publish work recipient publicKey blob, .accepted⟩]
      sealedKeys := s.sealedKeys ++ [⟨peerId, recipient, work.epoch, blob⟩]
      sources := ⟨work.epoch, peerId, work.groupKey⟩ :: s.sources } := by
  obtain ⟨atRoom, senderIn, recipientIn, current, free⟩ := publishChecks_ok passed
  have traced := sound.traced
  have placed := sound.placed room atRoom
  have once := traced.once peerId session atPeer
  have sends : session.Sends work recipient publicKey := ⟨frameId, _, atFrame, rfl⟩
  -- the sender is at the room's epoch, with this key as its leader key
  have epoch : session.epoch = room.epoch :=
    le_antisymm (placed.bounded.sessions peerId session atPeer) (current ▸ once.bounded _ _ _ sends)
  have leaderKey : session.leaderKey = some (room.epoch, work.groupKey) :=
    epoch ▸ once.keyed _ _ _ sends (current.trans epoch.symm)
  have sameKey (source : KeySource Key) (member : source ∈ s.sources) (now : source.epoch = room.epoch) :
      source.key = work.groupKey := by
    obtain ⟨holder, entry, found, sender⟩ := placed.stored source member now
    have publisher : source.sender = peerId := sender ▸ sole ⟨holder, entry⟩ (AList.mem_lookup_iff.mp found)
    obtain ⟨leader, atLeader, -, held⟩ := placed.leads source member now
    rw [publisher, atPeer] at atLeader
    cases atLeader
    rw [leaderKey] at held
    exact (congrArg Prod.snd (Option.some.inj held)).symm
  refine ⟨⟨traced.localId, traced.once, fun other found atOther => ?_, fun reply member accepted => ?_,
    fun msg member => ?_, fun other found atOther one member => ?_, fun other found atOther key held => ?_,
    fun source member other member' same => ?_⟩, fun later atLater => ?_, fun none => ?_⟩
  · exact (traced.genuine other found atOther).mono fun msg => List.mem_append_left _
  · intro work' recipient' publicKey' blob' frame
    rcases List.mem_append.mp member with old | new
    · exact List.mem_cons_of_mem _ (traced.replied reply old accepted work' recipient' publicKey' blob' frame)
    · rw [List.mem_singleton.mp new] at frame ⊢
      cases frame
      exact List.mem_cons_self ..
  · rcases List.mem_append.mp member with old | new
    · obtain ⟨key, source, sealed⟩ := traced.relayed msg old
      exact ⟨key, List.mem_cons_of_mem _ source, sealed⟩
    · rw [List.mem_singleton.mp new]
      exact ⟨work.groupKey, List.mem_cons_self .., (traced.genuine peerId session atPeer frameId _ atFrame).2⟩
  · exact List.mem_cons_of_mem _ (traced.served other found atOther one member)
  · obtain ⟨sender, source⟩ := traced.held other found atOther key held
    exact ⟨sender, List.mem_cons_of_mem _ source⟩
  · rcases List.mem_cons.mp member with rfl | old <;> rcases List.mem_cons.mp member' with rfl | old'
    · rfl
    · exact (sameKey other old' (same.symm.trans current)).symm
    · exact sameKey source old (same.trans current)
    · exact traced.oneKey source old other old' same
  · rw [stored] at atLater
    cases atLater
    refine ⟨placed.sound.publish senderIn recipientIn current, placed.members, ⟨placed.bounded.sessions,
      fun reply member carried found => ?_, placed.bounded.announcing, placed.bounded.keySets,
      fun source member => ?_⟩, fun source member now => ?_, fun source member now => ?_⟩
    · rcases List.mem_append.mp member with old | new
      · exact placed.bounded.replies reply old carried found
      · rw [List.mem_singleton.mp new] at found
        cases found
    · rcases List.mem_cons.mp member with rfl | old
      · exact le_of_eq current
      · exact placed.bounded.sources source old
    · rcases List.mem_cons.mp member with rfl | old
      · exact ⟨recipient, _, AList.lookup_insert _, rfl⟩
      · obtain ⟨holder, entry, found, sender⟩ := placed.stored source old now
        refine ⟨holder, entry, ?_, sender⟩
        rw [FiniteMap.lookup_insert_if, if_neg]
        · exact found
        · rintro rfl
          rw [free] at found
          cases found
    · rcases List.mem_cons.mp member with rfl | old
      · exact ⟨session, atPeer, epoch, leaderKey⟩
      · exact placed.leads source old now
  · rw [sound.pristine none] at atPeer
    cases atPeer

section calls
variable [ByteSize PubKey] [DecidableEq PubKey] [ByteSize Blob] {config : ProofConfig PubKey} {now : Nat}

/-- The registered peers stay among the present ones. -/
theorem Sound.members (sound : s.Sound crypto roomId) {call : Call PubKey Blob} {present : List String}
    (other : ∀ other, call ≠ .initRoom other)
    (stays : ∀ peerId ∈ s.present, call ≠ .removePeer roomId peerId → peerId ∈ present)
    (enters : ∀ peerId publicKey identityKey signature,
      call = .registerPeerKey roomId peerId publicKey identityKey signature → peerId ∈ present)
    {room : Room PubKey Blob} (atRoom : (handleCall config now call s.coordinator).state.rooms.lookup roomId = some room)
    {peerId : String} (member : peerId ∈ room.peers) : peerId ∈ present := by
  have change := handleCall_lookup config now call s.coordinator roomId
  cases before : s.coordinator.rooms.lookup roomId with
  | none =>
    rw [before] at change
    rw [absent_of_absent change other] at atRoom
    cases atRoom
  | some old =>
    rw [before, atRoom] at change
    rcases call_peers change member with ⟨was, remains⟩ | ⟨publicKey, identityKey, signature, registers⟩
    · exact stays peerId ((sound.placed old before).members peerId was) remains
    · exact enters peerId publicKey identityKey signature registers

theorem Sound.leave (sound : s.Sound crypto roomId) {peerId : String}
    (taken : s.leave config roomId now peerId = some after) : after.Sound crypto roomId := by
  unfold RoomSystem.leave at taken
  split at taken
  next here =>
    cases taken
    refine sound.moved ⟨rfl, rfl, rfl, rfl, rfl, ⟨_, handleCall_lookup .., by simp⟩, fun room atRoom other member => ?_,
      fun reply member => .inl member, fun announced member => .inl member⟩
      (sound.started (.inl (List.ne_nil_of_mem here)))
    refine sound.members (by simp) (fun other was remains => ?_) (by simp) atRoom member
    refine List.mem_filter.mpr ⟨was, ?_⟩
    simp only [ne_eq, decide_eq_true_eq]
    rintro rfl
    exact remains rfl
  next => cases taken

theorem Sound.rotate (sound : s.Sound crypto roomId) : (s.rotate config roomId now).Sound crypto roomId := by
  by_cases started : s.lifetimes = 0
  · obtain rfl := sound.pristine started
    exact sound
  · exact sound.moved ⟨rfl, rfl, rfl, rfl, rfl, ⟨_, handleCall_lookup .., by simp⟩,
      fun room atRoom other member => sound.members (by simp) (fun _ was _ => was) (by simp) atRoom member,
      fun reply member => .inl member, fun announced member => .inl member⟩ started

/-- After `init_room` the room is on record: as it was, or empty and for the first time. -/
theorem Sound.initRoom (config : ProofConfig PubKey) (now : Nat) (sound : s.Sound crypto roomId)
    (lifetime : s.coordinator.rooms.lookup roomId = none → s.lifetimes = 0) :
    (∀ room, (handleCall config now (.initRoom roomId) s.coordinator).state.rooms.lookup roomId = some room →
      s.Placed room) ∧
    ((handleCall config now (.initRoom roomId) s.coordinator).reply.isOk = false → s.lifetimes ≠ 0) := by
  simp only [handleCall, E2EE.initRoom]
  split
  next room before =>
    refine ⟨sound.placed, fun _ none => ?_⟩
    rw [sound.pristine none] at before
    cases before
  next before =>
    refine ⟨fun room atRoom => ?_, by simp [Outcome.wrap, Except.map, Except.isOk, Except.toBool]⟩
    simp only [Outcome.wrap, putRoom_lookup, if_true] at atRoom
    cases atRoom
    rw [sound.pristine (lifetime before)]
    exact empty_placed rfl rfl

theorem Sound.arrive (sound : s.Sound crypto roomId) {peerId : String} {anew : Bool}
    (lifetime : s.coordinator.rooms.lookup roomId = none → s.lifetimes = 0)
    (taken : s.arrive config roomId now peerId anew = some after) : after.Sound crypto roomId := by
  unfold RoomSystem.arrive at taken
  split at taken
  · cases taken
  next absent =>
  obtain ⟨placed, started⟩ := sound.initRoom config now lifetime
  have begun : (if (handleCall config now (.initRoom roomId) s.coordinator).reply.isOk then s.lifetimes + 1
      else s.lifetimes) ≠ 0 := by
    split
    · exact Nat.succ_ne_zero _
    next refused => exact started (by simpa using refused)
  have joins : ∀ other ∈ s.present, other ∈ peerId :: s.present := fun _ => List.mem_cons_of_mem _
  simp only at taken
  split at taken
  · cases taken
    exact ⟨sound.traced.relocate .., fun room atRoom => (placed room atRoom).relocate _ joins _,
      fun none => absurd none begun⟩
  · cases taken
    exact ⟨(sound.traced.renew peerId).relocate ..,
      fun room atRoom => ((placed room atRoom).renew absent).relocate _ joins _, fun none => absurd none begun⟩

theorem Sound.serve (sound : s.Sound crypto roomId) {peerId : String} {frameId : Nat}
    (sole : ∀ session ∈ s.sessions.lookup peerId, ∀ frame ∈ session.frames.lookup frameId,
      frame.SolePublisher roomId peerId s.coordinator)
    (taken : s.serve config roomId now peerId frameId = some after) : after.Sound crypto roomId := by
  obtain ⟨session, atPeer, taken⟩ := Option.bind_eq_some_iff.mp taken
  obtain ⟨frame, atFrame, taken⟩ := Option.bind_eq_some_iff.mp taken
  obtain ⟨call, pushed, taken⟩ := Option.bind_eq_some_iff.mp taken
  split at taken
  swap
  · cases taken
  next here =>
  by_cases accepted : (replyResult (handleCall config now call s.coordinator).reply :
      Result PubKey PrivKey PairKey Key Blob) = .accepted
  · obtain ⟨work, recipient, publicKey, blob, room, rfl, passed, stored⟩ := accepted_publish pushed accepted
    have publisher := sole session atPeer _ atFrame room (by rw [passed]; rfl)
    simp only [accepted, relay, Option.some.injEq] at taken
    rw [← taken]
    exact sound.publish atPeer atFrame publisher passed stored
  · obtain ⟨named, opensNot, removesNot, registers⟩ := serves_present pushed
    obtain ⟨more, relayed, announced⟩ := relay_unaccepted { s with
      coordinator := (handleCall config now call s.coordinator).state
      replies := s.replies ++ [⟨peerId, frameId, frame,
        replyResult (handleCall config now call s.coordinator).reply⟩] } peerId frame accepted
    simp only [Option.some.injEq] at taken
    rw [relayed] at taken
    subst taken
    have somebody : s.present ≠ [] ∨ s.sessions ≠ ∅ := .inl (List.ne_nil_of_mem here.1)
    refine sound.moved ⟨rfl, rfl, rfl, rfl, rfl, ⟨call, handleCall_lookup .., opensNot⟩, fun room atRoom other member => ?_,
      fun reply member => ?_, fun epoch member => ?_⟩ (sound.started somebody)
    · refine sound.members opensNot (fun _ was _ => was) ?_ atRoom member
      intro other publicKey identityKey signature same
      rw [registers other publicKey identityKey signature same]
      exact here.1
    · refine (List.mem_append.mp member).imp_right fun new => ?_
      rw [List.mem_singleton.mp new]
      exact ⟨accepted, fun room atRoom carried found => le_of_eq (replyResult_epoch found (named ▸ atRoom))⟩
    · refine (List.mem_append.mp member).imp_right fun new room atRoom => ?_
      exact le_of_eq (replyResult_epoch (announced epoch new) (named ▸ atRoom))

variable [DecidableEq PrivKey] [DecidableEq PairKey] [DecidableEq Key] [DecidableEq Blob]

theorem Sound.step (sound : s.Sound crypto roomId) {label : Nat × Key × RoomEvent PrivKey}
    (disciplined : s.Disciplined crypto roomId label) (taken : RoomStep config crypto roomId s label after) :
    after.Sound crypto roomId := by
  obtain ⟨now, fresh, event⟩ := label
  have acts (event : RoomEvent PrivKey)
      (timely : ∀ acting ∈ s.acts crypto roomId event, ∀ session ∈ s.sessions.lookup acting.1,
        session.PublishTimely (acting.2, fresh) ∧ session.RegisterClean (acting.2, fresh) ∧
          session.OpenTimely (acting.2, fresh))
      (taken : (s.acts crypto roomId event).bind (fun acting => (s.sessions.lookup acting.1).bind fun session =>
        (session.step acting.2 fresh).bind fun next =>
          some { s with sessions := s.sessions.insert acting.1 next }) = some after) : after.Sound crypto roomId := by
    obtain ⟨⟨peerId, piece⟩, acting, taken⟩ := Option.bind_eq_some_iff.mp taken
    obtain ⟨session, atPeer, taken⟩ := Option.bind_eq_some_iff.mp taken
    obtain ⟨next, moved, same⟩ := Option.bind_eq_some_iff.mp taken
    cases same
    obtain ⟨publishes, registers, opens⟩ := timely _ acting session atPeer
    refine ⟨sound.traced.act acting atPeer moved publishes registers opens,
      fun room atRoom => (sound.placed room atRoom).act acting atPeer moved, fun none => ?_⟩
    rw [sound.pristine none] at atPeer
    cases atPeer
  cases event with
  | arrive peerId anew => exact sound.arrive disciplined taken
  | leave peerId => exact sound.leave taken
  | rotate => cases taken; exact sound.rotate
  | serve peerId frameId => exact sound.serve disciplined taken
  | announce index => exact sound.announce taken
  | start peerId => exact acts _ disciplined taken
  | refreshKeySet peerId => exact acts _ disciplined taken
  | hearKeySet peerId index => exact acts _ disciplined taken
  | hearSealed peerId index => exact acts _ disciplined taken
  | resume peerId frameId choice => exact acts _ disciplined taken

end calls

theorem empty_sound : (empty : RoomSystem PubKey PrivKey PairKey Key Blob).Sound crypto roomId := by
  refine ⟨⟨?_, ?_, ?_, ?_, ?_, ?_, ?_, ?_⟩, fun room atRoom => ?_, fun _ => rfl⟩
  case refine_9 => cases atRoom
  case refine_4 | refine_5 | refine_8 => intro _ member; cases member
  all_goals intro _ _ found; cases found

end RoomSystem

/-- A peer arrives, registers this secret's key, fetches the key set and acts on it. -/
def entrance (peerId : String) (secret : Nat) : List (Nat × Nat × RoomEvent Nat) :=
  [(0, 0, .arrive peerId true), (0, 0, .start peerId), (0, 0, .resume peerId 0 (.privateKey secret)),
   (0, 0, .serve peerId 1), (0, 0, .resume peerId 1 .proceeds), (0, 0, .serve peerId 2),
   (0, secret * 100, .resume peerId 2 .proceeds)]

def proceeding (peerId : String) (frames : List Nat) : List (Nat × Nat × RoomEvent Nat) :=
  frames.map fun frame => (0, 0, .resume peerId frame .proceeds)

/-- The peer hears a blob from a sender it does not know yet, fetches the key set and
opens the blob; `frame` is the next number for a handler of its session. -/
def opening (peerId : String) (index frame : Nat) : List (Nat × Nat × RoomEvent Nat) :=
  [(0, 0, .hearSealed peerId index), (0, 0, .serve peerId frame)] ++
    proceeding peerId [frame, frame + 1, frame + 2, frame + 3]

/-- Bob, who leads Carol, is about to publish to her when Alice registers. Nothing is
sealed yet, so the epoch stays, and Alice leads it as well: she publishes to Bob first. -/
def twoLeaders : List (Nat × Nat × RoomEvent Nat) :=
  entrance "carol" 3 ++ proceeding "carol" [3] ++ entrance "bob" 2 ++ proceeding "bob" [3, 4] ++
    entrance "alice" 1 ++ proceeding "alice" [3, 4] ++ [(0, 0, .serve "alice" 5), (0, 0, .serve "bob" 5)] ++
    proceeding "bob" [5, 6] ++ opening "bob" 0 7 ++ opening "carol" 1 4

def unprovenSymbols : ProofConfig KeySymbol := ⟨false, fun _ _ _ => false, fun _ => ""⟩

end Burble.E2EE
