import Burble.FiniteMap
import Burble.Runs

namespace Burble.Rooms

abbrev UserId := String

abbrev RoomId := String

/-- The Elixir terms in a room's summary. The keys of a map are atoms. -/
inductive Term
  | atom (name : String)
  | binary (text : String)
  | float (value : Rat)
  | tuple (items : List Term)
  | map (entries : List (String × Term))

def Term.isBinary (text : String) : Term → Bool
  | .binary other => other == text
  | _ => false

inductive VoiceState
  | connected
  | muted
  | deafened
  | priority
  deriving DecidableEq, Repr

def VoiceState.name : VoiceState → String
  | connected => "connected"
  | muted => "muted"
  | deafened => "deafened"
  | priority => "priority"

structure Participant where
  userId : UserId
  displayName : String
  voiceState : VoiceState := .connected
  isSpeaking : Bool := false
  volume : Rat := 1
  deriving DecidableEq

namespace Participant

/-- `Participant.new`, with the display name of the user info where it has one. -/
def new (userId : UserId) (displayName : Option String) : Participant :=
  { userId := userId, displayName := displayName.getD "Guest" }

/-- The map for clients. -/
def summarise (p : Participant) : Term :=
  .map [("user_id", .binary p.userId), ("display_name", .binary p.displayName),
    ("voice_state", .atom p.voiceState.name), ("is_speaking", .atom (if p.isSpeaking then "true" else "false")),
    ("volume", .float p.volume)]

end Participant

inductive RoomMode
  | «open»
  | moderated
  | presentation
  deriving DecidableEq, Repr

structure Room where
  id : RoomId
  name : String
  type : Option String
  mode : RoomMode
  maxParticipants : Nat
  participants : FiniteMap UserId Participant
  rtspMountpoint : Option String

/-- What a room tells of itself. -/
structure Summary where
  id : RoomId
  name : String
  type : Option String
  mode : RoomMode
  rtspMountpoint : Option String
  participantCount : Nat
  participants : FiniteMap UserId Term

inductive RoomError
  | alreadyJoined
  | roomFull
  | notInRoom
  | roomNotFound
  | notStarted
  deriving DecidableEq, Repr

def defaultMaxParticipants : Nat := 50

namespace Room

def summarise (room : Room) : Summary where
  id := room.id
  name := room.name
  type := room.type
  mode := room.mode
  rtspMountpoint := room.rtspMountpoint
  participantCount := room.participants.size
  participants := room.participants.mapValues Participant.summarise

def join (room : Room) (userId : UserId) (displayName : Option String) : Except RoomError Summary × Room :=
  if (room.participants.lookup userId).isSome then (.error .alreadyJoined, room)
  else if room.participants.size ≥ room.maxParticipants then (.error .roomFull, room)
  else
    let newRoom := { room with
      participants := AList.insert userId (Participant.new userId displayName) room.participants }
    (.ok newRoom.summarise, newRoom)

def leave (room : Room) (userId : UserId) : Except RoomError Unit × Room :=
  match room.participants.lookup userId with
  | none => (.error .notInRoom, room)
  | some _ => (.ok (), { room with participants := AList.erase userId room.participants })

end Room

/-- The room processes by the ids they are registered under. -/
abbrev RoomRegistry := FiniteMap RoomId Room

namespace RoomRegistry

/-- A call to the room's process. -/
def callRoom {Reply : Type} (rooms : RoomRegistry) (roomId : RoomId)
    (handle : Room → Except RoomError Reply × Room) : Except RoomError Reply × RoomRegistry :=
  match rooms.lookup roomId with
  | some room => ((handle room).1, AList.insert roomId (handle room).2 rooms)
  | none => (.error .roomNotFound, rooms)

def join (rooms : RoomRegistry) (roomId : RoomId) (userId : UserId) (displayName : Option String) :
    Except RoomError Summary × RoomRegistry :=
  rooms.callRoom roomId fun room => room.join userId displayName

def leave (rooms : RoomRegistry) (roomId : RoomId) (userId : UserId) : Except RoomError Unit × RoomRegistry :=
  rooms.callRoom roomId fun room => room.leave userId

def getState (rooms : RoomRegistry) (roomId : RoomId) : Except RoomError Summary :=
  match rooms.lookup roomId with
  | some room => .ok room.summarise
  | none => .error .roomNotFound

/-- `RoomManager.start_room`, where the supervisor may refuse another child, and does where the id is taken. -/
def startRoom (rooms : RoomRegistry) (roomId : RoomId) (name : String) (supervisorUp : Bool) :
    Except RoomError Unit × RoomRegistry :=
  match rooms.lookup roomId with
  | some _ => (.error .notStarted, rooms)
  | none =>
    if supervisorUp then
      (.ok (), AList.insert roomId ⟨roomId, name, none, .open, defaultMaxParticipants, ∅, none⟩ rooms)
    else (.error .notStarted, rooms)

def ensureRoom (rooms : RoomRegistry) (roomId : RoomId) (supervisorUp : Bool) : Except RoomError Unit × RoomRegistry :=
  match rooms.lookup roomId with
  | some _ => (.ok (), rooms)
  | none => rooms.startRoom roomId s!"Room {roomId}" supervisorUp

/-- `RoomManager.join`, which starts the room where it has to. -/
def managerJoin (rooms : RoomRegistry) (roomId : RoomId) (userId : UserId) (displayName : Option String)
    (supervisorUp : Bool) : Except RoomError Summary × RoomRegistry :=
  match rooms.ensureRoom roomId supervisorUp with
  | (.ok _, rooms) => rooms.join roomId userId displayName
  | (.error reason, rooms) => (.error reason, rooms)

/-- Whether the room has the user as a participant. -/
def Participates (rooms : RoomRegistry) (roomId : RoomId) (userId : UserId) : Prop :=
  ∃ room ∈ rooms.lookup roomId, (room.participants.lookup userId).isSome

instance (rooms : RoomRegistry) (roomId : RoomId) (userId : UserId) : Decidable (rooms.Participates roomId userId) :=
  decidable_of_iff ((rooms.lookup roomId).any fun room => (room.participants.lookup userId).isSome)
    (by simp [Participates, Option.any_eq_true])

end RoomRegistry

inductive RoomLabel
  | join (roomId : RoomId) (userId : UserId) (displayName : Option String) (supervisorUp : Bool)
  | leave (roomId : RoomId) (userId : UserId)

/-- Participants are kept under their own ids, and no more of them than there is room for. -/
structure Room.Sound (room : Room) : Prop where
  keyed : ∀ userId, ∀ p ∈ room.participants.lookup userId, p.userId = userId
  bounded : room.participants.size ≤ room.maxParticipants

def RoomRegistry.Sound (rooms : RoomRegistry) : Prop :=
  ∀ roomId, ∀ room ∈ rooms.lookup roomId, room.Sound

theorem Room.Sound.join {room : Room} (sound : room.Sound) (userId : UserId) (displayName : Option String) :
    (room.join userId displayName).2.Sound := by
  unfold Room.join
  split
  next => exact sound
  next =>
    split
    next => exact sound
    next space =>
      refine ⟨fun other p found => ?_, ?_⟩
      · rw [Option.mem_def, FiniteMap.lookup_insert_if] at found
        split at found
        next same =>
          cases found
          exact same.symm
        next => exact sound.keyed other p found
      · have grown := FiniteMap.size_insert_le room.participants userId (Participant.new userId displayName)
        dsimp only
        omega

theorem Room.Sound.leave {room : Room} (sound : room.Sound) (userId : UserId) : (room.leave userId).2.Sound := by
  unfold Room.leave
  split
  next => exact sound
  next =>
    refine ⟨fun other p found => ?_, (FiniteMap.size_erase_le _ _).trans sound.bounded⟩
    rw [Option.mem_def, FiniteMap.lookup_erase_if] at found
    split at found
    next => cases found
    next => exact sound.keyed other p found

namespace RoomRegistry.Sound
variable {rooms : RoomRegistry}

theorem insert (sound : rooms.Sound) {roomId : RoomId} {room : Room} (added : room.Sound) :
    RoomRegistry.Sound (AList.insert roomId room rooms) := by
  intro other current found
  rw [Option.mem_def, FiniteMap.lookup_insert_if] at found
  split at found
  next =>
    cases found
    exact added
  next => exact sound other current found

theorem callRoom {Reply : Type} {handle : Room → Except RoomError Reply × Room} (sound : rooms.Sound)
    (roomId : RoomId) (kept : ∀ room, room.Sound → (handle room).2.Sound) :
    RoomRegistry.Sound (rooms.callRoom roomId handle).2 := by
  unfold RoomRegistry.callRoom
  split
  next room found => exact sound.insert (kept room (sound roomId room found))
  next => exact sound

theorem startRoom (sound : rooms.Sound) (roomId : RoomId) (name : String) (supervisorUp : Bool) :
    RoomRegistry.Sound (rooms.startRoom roomId name supervisorUp).2 := by
  unfold RoomRegistry.startRoom
  split
  next => exact sound
  next =>
    split
    next => exact sound.insert ⟨fun userId p found => (by cases found), Nat.zero_le _⟩
    next => exact sound

theorem ensureRoom (sound : rooms.Sound) (roomId : RoomId) (supervisorUp : Bool) :
    RoomRegistry.Sound (rooms.ensureRoom roomId supervisorUp).2 := by
  unfold RoomRegistry.ensureRoom
  split
  next => exact sound
  next => exact sound.startRoom roomId _ _

theorem managerJoin (sound : rooms.Sound) (roomId : RoomId) (userId : UserId) (displayName : Option String)
    (supervisorUp : Bool) : RoomRegistry.Sound (rooms.managerJoin roomId userId displayName supervisorUp).2 := by
  have ensured := sound.ensureRoom roomId supervisorUp
  unfold RoomRegistry.managerJoin
  split
  next after started =>
    rw [started] at ensured
    exact ensured.callRoom roomId fun room kept => kept.join userId displayName
  next reason after refused =>
    rw [refused] at ensured
    exact ensured

end RoomRegistry.Sound

def roomStep (rooms : RoomRegistry) : RoomLabel → RoomRegistry
  | .join roomId userId displayName supervisorUp => (rooms.managerJoin roomId userId displayName supervisorUp).2
  | .leave roomId userId => (rooms.leave roomId userId).2

/-- Whatever joins and leaves there have been, every room is sound. -/
theorem rooms_sound {rooms : RoomRegistry} (reach : Reachable (fun before label after => roomStep before label = after)
    ∅ rooms) : rooms.Sound := by
  have none : RoomRegistry.Sound ∅ := fun roomId room found => by cases found
  refine reach.invariant none ?_
  rintro before label after sound rfl
  cases label with
  | join roomId userId displayName supervisorUp => exact sound.managerJoin roomId userId displayName supervisorUp
  | leave roomId userId => exact sound.callRoom roomId fun room kept => kept.leave userId

end Burble.Rooms
