import Burble.Rooms.Moderation

namespace Burble.Rooms.Moderation

open Burble.Media (MediaState)

namespace Action

def required : Action → Permission
  | kick _ _ => .kick
  | mute _ _ _ => .muteOthers
  | move _ _ _ => .moveOthers
  | timeout _ _ _ => .muteOthers

def target : Action → UserId
  | kick targetId _ => targetId
  | mute targetId _ _ => targetId
  | move targetId _ _ => targetId
  | timeout targetId _ _ => targetId

/-- The room the target has to be in. -/
def room : Action → RoomId
  | kick _ roomId => roomId
  | mute _ roomId _ => roomId
  | move _ fromRoomId _ => fromRoomId
  | timeout _ roomId _ => roomId

/-- A timeout is for a positive number of seconds. -/
def WellTimed : Action → Prop
  | timeout _ _ duration => 0 < duration
  | _ => True

instance : (action : Action) → Decidable action.WellTimed
  | timeout _ _ duration => inferInstanceAs (Decidable (0 < duration))
  | kick .. | mute .. | move .. => inferInstanceAs (Decidable True)

end Action

/-- Who calls, with which permissions, when, and whether the supervisor of the rooms takes another child. -/
structure Call where
  actorId : UserId
  actorPerms : Finset Permission
  now : Nat
  supervisorUp : Bool

def perform (server : Server) (call : Call) : Action → Except Error Unit × Server
  | .kick targetId roomId => kick server targetId roomId call.actorPerms
  | .mute targetId roomId duration =>
    let muted := mute server call.actorId targetId roomId duration call.actorPerms call.now
    (muted.1.map fun _ => (), muted.2)
  | .move targetId fromRoomId toRoomId =>
    move server targetId fromRoomId toRoomId call.actorPerms call.supervisorUp
  | .timeout targetId roomId duration => timeout server targetId roomId duration call.actorPerms

/-- The actor has the permission, and the target is in the room. -/
def Entitled (server : Server) (call : Call) (action : Action) : Prop :=
  action.required ∈ call.actorPerms ∧ server.rooms.Participates action.room action.target

instance (server : Server) (call : Call) (action : Action) : Decidable (Entitled server call action) :=
  inferInstanceAs (Decidable (_ ∧ _))

/-- No record of the peer in the room's session passes the property by. -/
def PeersAre (media : MediaState) (roomId : RoomId) (peerId : UserId) (holds : Media.Peer → Prop) : Prop :=
  ∀ session ∈ media.sessions.lookup roomId, ∀ peer ∈ session.peers.lookup peerId, holds peer

/-- In the one room, and not in the other. -/
def OnlyIn (rooms : RoomRegistry) (userId : UserId) (roomId other : RoomId) : Prop :=
  rooms.Participates roomId userId ∧ (other ≠ roomId → ¬ rooms.Participates other userId)

/-- What an action is for. -/
def Done (before after : Server) (call : Call) : Action → Prop
  | .kick targetId roomId =>
    ¬ after.rooms.Participates roomId targetId ∧ PeersAre after.media roomId targetId fun _ => False
  | .mute targetId roomId _ => PeersAre after.media roomId targetId fun peer => peer.muted = true
  | .timeout targetId roomId _ => PeersAre after.media roomId targetId fun peer => peer.muted = true
  | .move targetId fromRoomId toRoomId =>
    OnlyIn after.rooms targetId toRoomId fromRoomId ∨
      (∃ reason, (before.rooms.managerJoin toRoomId targetId (some targetId) call.supervisorUp).1 = .error reason) ∧
        OnlyIn after.rooms targetId fromRoomId toRoomId

/-- An action does what it is for to a member of the room, for an actor who may; else it fails and
changes neither rooms nor engine. -/
def ActsOnMembers (server : Server) (call : Call) (action : Action) : Prop :=
  let after := perform server call action
  (Entitled server call action → action.WellTimed → after.1 = .ok () ∧ Done server after.2 call action) ∧
  (¬ Entitled server call action →
    (∃ error, after.1 = .error error) ∧ after.2.rooms = server.rooms ∧ after.2.media = server.media)

/-- A tuple has no id that the check knows of. -/
theorem participantIds_nil (summary : Summary) : ∀ id ∈ participantIds summary, id = .atom "nil" := by
  intro id member
  obtain ⟨entry, _, rfl⟩ := List.mem_map.mp member
  rfl

theorem participantIds_not_binary (summary : Summary) (userId : UserId) :
    (participantIds summary).any (Term.isBinary userId) = false := by
  rw [List.any_eq_false]
  intro id member
  rw [participantIds_nil summary id member]
  exact Bool.false_ne_true

/-- Nobody is found in a room. -/
theorem verifyUserInRoom_fails (rooms : RoomRegistry) (userId : UserId) (roomId : RoomId) :
    verifyUserInRoom rooms userId roomId =
      .error (if (rooms.lookup roomId).isSome then .userNotFound else .roomNotFound) := by
  unfold verifyUserInRoom RoomRegistry.getState
  cases rooms.lookup roomId with
  | none => rfl
  | some room => simp [participantIds_not_binary]

theorem checks_fails (server : Server) (actorPerms : Finset Permission) (required : Permission) (targetId : UserId)
    (roomId : RoomId) : ∃ error, checks server actorPerms required targetId roomId = .error error := by
  unfold checks checkPermission
  rw [verifyUserInRoom_fails]
  split
  · exact ⟨_, rfl⟩
  · exact ⟨_, rfl⟩

/-- Every action fails and changes nothing. -/
theorem perform_fails (server : Server) (call : Call) (action : Action) :
    ∃ error, perform server call action = (.error error, server) := by
  cases action with
  | kick targetId roomId =>
    obtain ⟨error, failed⟩ := checks_fails server call.actorPerms .kick targetId roomId
    exact ⟨error, by simp only [perform, kick, failed]⟩
  | mute targetId roomId duration =>
    obtain ⟨error, failed⟩ := checks_fails server call.actorPerms .muteOthers targetId roomId
    exact ⟨error, by simp only [perform, mute, failed]; rfl⟩
  | move targetId fromRoomId toRoomId =>
    obtain ⟨error, failed⟩ := checks_fails server call.actorPerms .moveOthers targetId fromRoomId
    exact ⟨error, by simp only [perform, move, failed]⟩
  | timeout targetId roomId duration =>
    obtain ⟨error, failed⟩ := checks_fails server call.actorPerms .muteOthers targetId roomId
    by_cases positive : duration > 0
    · exact ⟨error, by simp only [perform, timeout, if_pos positive, failed]⟩
    · exact ⟨.invalidDuration, by simp only [perform, timeout, if_neg positive]⟩

/-- Moderation does as it should exactly where there is nothing to do. -/
theorem acts_on_members_iff (server : Server) (call : Call) (action : Action) :
    ActsOnMembers server call action ↔ ¬ (Entitled server call action ∧ action.WellTimed) := by
  obtain ⟨error, failed⟩ := perform_fails server call action
  unfold ActsOnMembers
  rw [failed]
  constructor
  · rintro ⟨acts, _⟩ ⟨entitled, wellTimed⟩
    cases (acts entitled wellTimed).1
  · intro idle
    exact ⟨fun entitled wellTimed => absurd ⟨entitled, wellTimed⟩ idle, fun _ => ⟨⟨error, rfl⟩, rfl, rfl⟩⟩

/-- Ann and Bob are in the lobby, with their media. -/
def lobbyJoins : List RoomLabel := [.join "lobby" "ann" (some "Ann") true, .join "lobby" "bob" (some "Bob") true]

def lobby : Server where
  rooms := lobbyJoins.foldl roomStep ∅
  media := [.createSession "lobby" none none false, .addPeer "lobby" "ann" none true,
    .addPeer "lobby" "bob" none true].foldl Media.mediaStep .start
  unmutes := []

def moderator : Call := ⟨"ann", {.kick, .muteOthers, .moveOthers}, 0, true⟩

/-- Ann can neither kick nor mute, move or time out Bob. -/
theorem bob_out_of_reach :
    Run (fun before label after => roomStep before label = after) ∅ lobbyJoins lobby.rooms ∧
      ¬ ActsOnMembers lobby moderator (.kick "bob" "lobby") ∧
      ¬ ActsOnMembers lobby moderator (.mute "bob" "lobby" (some 60)) ∧
      ¬ ActsOnMembers lobby moderator (.move "bob" "lobby" "attic") ∧
      ¬ ActsOnMembers lobby moderator (.timeout "bob" "lobby" 60) := by
  have stuck : ∀ action ∈ [Action.kick "bob" "lobby", .mute "bob" "lobby" (some 60), .move "bob" "lobby" "attic",
      .timeout "bob" "lobby" 60], ¬ ActsOnMembers lobby moderator action := by
    intro action member acts
    obtain ⟨error, failed⟩ := perform_fails lobby moderator action
    have both : ∀ action ∈ [Action.kick "bob" "lobby", .mute "bob" "lobby" (some 60), .move "bob" "lobby" "attic",
        .timeout "bob" "lobby" 60], Entitled lobby moderator action ∧ action.WellTimed := by decide +kernel
    have done := acts.1 (both action member).1 (both action member).2
    rw [failed] at done
    cases done.1
  exact ⟨(Run.start.next rfl : Run _ _ [RoomLabel.join "lobby" "ann" (some "Ann") true] _).next rfl,
    stuck _ (by simp), stuck _ (by simp), stuck _ (by simp), stuck _ (by simp)⟩

end Burble.Rooms.Moderation
