import Mathlib.Data.Finset.Insert
import Burble.Media.Engine
import Burble.Rooms.Room

namespace Burble.Rooms

open Burble.Media (MediaState)

inductive Permission
  | joinRoom
  | speak
  | prioritySpeaker
  | whisper
  | muteOthers
  | deafenOthers
  | moveOthers
  | text
  | chatSend
  | pinMessages
  | manageMessages
  | manageRooms
  | manageRoles
  | manageServer
  | manageInvites
  | kick
  | ban
  | viewAuditLog
  deriving DecidableEq, Repr

namespace Moderation

inductive Error
  | insufficientPermissions
  | userNotFound
  | roomNotFound
  | invalidDuration
  deriving DecidableEq, Repr

/-- The rooms, the media engine, and the messages that it will be sent to unmute somebody. -/
structure Server where
  rooms : RoomRegistry
  media : MediaState
  unmutes : List (UserId × RoomId × Nat)

structure MuteRecord where
  userId : UserId
  roomId : RoomId
  mutedBy : UserId
  mutedAt : Nat
  expiresAt : Option Nat
  deriving DecidableEq, Repr

inductive Action
  | kick (targetId : UserId) (roomId : RoomId)
  | mute (targetId : UserId) (roomId : RoomId) (duration : Option Nat)
  | move (targetId : UserId) (fromRoomId toRoomId : RoomId)
  | timeout (targetId : UserId) (roomId : RoomId) (duration : Int)
  deriving DecidableEq

def checkPermission (actorPerms : Finset Permission) (required : Permission) : Except Error Unit :=
  if required ∈ actorPerms then .ok () else .error .insufficientPermissions

/-- The id that the check takes an element of the participants to have. -/
def participantId : Term → Term
  | .map entries =>
    match entries.lookup "id" with
    | some id => id
    | none =>
      match entries.lookup "user_id" with
      | some id => id
      | none => (entries.lookup "id").getD ((entries.lookup "user_id").getD (.atom "nil"))
  | _ => .atom "nil"

/-- A map is enumerated as the tuples of its keys and values. -/
def participantIds (summary : Summary) : List Term :=
  summary.participants.toList.map fun entry => participantId (.tuple [.binary entry.1, entry.2])

def verifyUserInRoom (rooms : RoomRegistry) (userId : UserId) (roomId : RoomId) : Except Error Unit :=
  match rooms.getState roomId with
  | .ok summary => if (participantIds summary).any (Term.isBinary userId) then .ok () else .error .userNotFound
  | .error _ => .error .roomNotFound

def scheduleUnmute (server : Server) (userId : UserId) (roomId : RoomId) (duration : Nat) : Server :=
  { server with unmutes := server.unmutes ++ [(userId, roomId, duration * 1000)] }

/-- The two checks that come before every effect. -/
def checks (server : Server) (actorPerms : Finset Permission) (required : Permission) (targetId : UserId)
    (roomId : RoomId) : Except Error Unit := do
  checkPermission actorPerms required
  verifyUserInRoom server.rooms targetId roomId

def kick (server : Server) (targetId : UserId) (roomId : RoomId) (actorPerms : Finset Permission) :
    Except Error Unit × Server :=
  match checks server actorPerms .kick targetId roomId with
  | .error error => (.error error, server)
  | .ok () =>
    (.ok (), { server with
      rooms := (server.rooms.leave roomId targetId).2
      media := server.media.removePeer roomId targetId })

def mute (server : Server) (actorId targetId : UserId) (roomId : RoomId) (duration : Option Nat)
    (actorPerms : Finset Permission) (now : Nat) : Except Error MuteRecord × Server :=
  match checks server actorPerms .muteOthers targetId roomId with
  | .error error => (.error error, server)
  | .ok () =>
    let record := ⟨targetId, roomId, actorId, now, duration.map fun duration => now + duration⟩
    let server := { server with media := server.media.setAudio roomId targetId [.muted true] }
    (.ok record, match duration with
      | some duration => scheduleUnmute server targetId roomId duration
      | none => server)

def move (server : Server) (targetId : UserId) (fromRoomId toRoomId : RoomId) (actorPerms : Finset Permission)
    (supervisorUp : Bool) : Except Error Unit × Server :=
  match checks server actorPerms .moveOthers targetId fromRoomId with
  | .error error => (.error error, server)
  | .ok () =>
    let rooms := (server.rooms.leave fromRoomId targetId).2
    (.ok (), { server with
      rooms := (rooms.managerJoin toRoomId targetId (some targetId) supervisorUp).2
      media := server.media.removePeer fromRoomId targetId })

def timeout (server : Server) (targetId : UserId) (roomId : RoomId) (duration : Int)
    (actorPerms : Finset Permission) : Except Error Unit × Server :=
  if duration > 0 then
    match checks server actorPerms .muteOthers targetId roomId with
    | .error error => (.error error, server)
    | .ok () =>
      let server := { server with media := server.media.setAudio roomId targetId [.muted true] }
      (.ok (), scheduleUnmute server targetId roomId duration.toNat)
  else (.error .invalidDuration, server)

end Moderation
end Burble.Rooms
