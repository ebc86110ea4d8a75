import Burble.Media.ChannelRouting

namespace Burble.Media.ChannelRouting

def Leaves (roomId : RoomId) (userId : UserId) (label : Answered) : Prop := label.call = .userLeft roomId userId

def Joins (roomId : RoomId) (userId : UserId) (label : Answered) : Prop :=
  label.succeeded = true ∧ ((∃ groupId, label.call = .joinGroup roomId userId groupId) ∨
    ∃ groupId groupName memberIds, label.call = .createGroup roomId groupId groupName memberIds ∧ userId ∈ memberIds)

/-- The user has left the room, and joined no group of it since. -/
abbrev LeftSince (history : List Answered) (roomId : RoomId) (userId : UserId) : Prop :=
  Since (Leaves roomId userId) (Joins roomId userId) history

namespace Rooms

def InGroupMode (rooms : Rooms) (roomId : RoomId) (senderId : UserId) : Prop :=
  ∃ room ∈ rooms.lookup roomId, room.mode senderId = .broadcastGroup

/-- Both are in one group, by its members as well as by their own groups. -/
def ShareGroup (rooms : Rooms) (roomId : RoomId) (senderId userId : UserId) : Prop :=
  ∃ room ∈ rooms.lookup roomId, ∃ groupId, room.userGroups.lookup senderId = some groupId ∧
    room.userGroups.lookup userId = some groupId ∧ room.InGroup groupId userId

end Rooms

/-- Who is heard by whom: participants other than the sender, each once; in group mode, who is in
the sender's group, and nobody who has left. -/
structure HeardInside (rooms : Rooms) (history : List Answered) (roomId : RoomId) (senderId : UserId)
    (participants : List UserId) : Prop where
  inside : ∀ recipient ∈ rooms.getRecipients roomId senderId participants,
    recipient ∈ participants ∧ recipient ≠ senderId
  once : (rooms.getRecipients roomId senderId participants).Nodup
  grouped : rooms.InGroupMode roomId senderId →
    ∀ recipient ∈ rooms.getRecipients roomId senderId participants, rooms.ShareGroup roomId senderId recipient
  left : rooms.InGroupMode roomId senderId → ∀ userId, LeftSince history roomId userId →
    userId ∉ rooms.getRecipients roomId senderId participants

/-- Nobody whispers to himself, and in group mode the members of the group take part and have not moved on. -/
def Scoped (rooms : Rooms) (roomId : RoomId) (senderId : UserId) (participants : List UserId) : Prop :=
  ∀ room ∈ rooms.lookup roomId,
    match room.mode senderId with
    | .privateTo targetId => targetId ∈ participants → targetId ≠ senderId
    | .broadcastGroup => ∀ groupId ∈ room.userGroups.lookup senderId, ∀ userId, room.InGroup groupId userId →
        userId ≠ senderId → userId ∈ participants ∧ room.userGroups.lookup userId = some groupId
    | _ => True

/-- The user is in no group of the room. -/
def Ungrouped (rooms : Rooms) (roomId : RoomId) (userId : UserId) : Prop :=
  ∀ room ∈ rooms.lookup roomId, room.userGroups.lookup userId = none

namespace Ungrouped
variable {rooms : Rooms} {roomId other : RoomId} {userId : UserId}

theorem insert (ungrouped : Ungrouped rooms roomId userId) {updated : RoomRouting}
    (still : other = roomId → updated.userGroups.lookup userId = none) :
    Ungrouped (AList.insert other updated rooms) roomId userId := by
  intro room found
  rw [Option.mem_def, FiniteMap.lookup_insert_if] at found
  split at found
  next same =>
    cases found
    exact still same.symm
  next => exact ungrouped room found

theorem onRoom (ungrouped : Ungrouped rooms roomId userId) {change : RoomRouting → Except RoutingError RoomRouting}
    (still : ∀ room updated, other = roomId → room.userGroups.lookup userId = none → change room = .ok updated →
      (rooms.onRoom other change).1.isOk = true → updated.userGroups.lookup userId = none) :
    Ungrouped (rooms.onRoom other change).2 roomId userId := by
  unfold Rooms.onRoom at still ⊢
  cases found : rooms.lookup other with
  | none => exact ungrouped
  | some room =>
    simp only [found] at still ⊢
    cases changed : change room with
    | error reason => exact ungrouped
    | ok updated =>
      refine ungrouped.insert fun same => still room updated same (ungrouped room (same ▸ found)) changed ?_
      rw [changed]
      rfl

theorem handle (ungrouped : Ungrouped rooms roomId userId) {label : Answered}
    (answered : (rooms.handle label.call).1.isOk = label.succeeded) (apart : ¬ Joins roomId userId label) :
    Ungrouped (rooms.handle label.call).2 roomId userId := by
  obtain ⟨call, succeeded⟩ := label
  cases call with
  | initRoom otherId => exact ungrouped.insert fun _ => rfl
  | setMode otherId otherUser mode =>
    refine ungrouped.onRoom fun room updated _ none set _ => ?_
    unfold RoomRouting.setMode at set
    split at set
    · cases set
      exact none
    · cases set
  | createGroup otherId groupId groupName memberIds =>
    refine ungrouped.onRoom fun room updated same none made ok => ?_
    cases made
    rw [RoomRouting.userGroups_createGroup, if_neg, none]
    intro member
    exact apart ⟨answered.symm.trans ok, .inr ⟨groupId, groupName, memberIds, by rw [same], member⟩⟩
  | joinGroup otherId otherUser groupId =>
    refine ungrouped.onRoom fun room updated same none joined ok => ?_
    unfold RoomRouting.joinGroup at joined
    split at joined
    · cases joined
    · cases joined
      rw [FiniteMap.lookup_insert_if, if_neg, none]
      intro isUser
      exact apart ⟨answered.symm.trans ok, .inl ⟨groupId, by rw [same, isUser]⟩⟩
  | leaveGroup otherId otherUser =>
    simp only [Rooms.handle, Rooms.leaveGroup]
    cases found : rooms.lookup otherId with
    | none => exact ungrouped
    | some room =>
      dsimp only
      split
      next updated left =>
        refine ungrouped.insert fun same => ?_
        have none := ungrouped room (same ▸ found)
        unfold RoomRouting.leaveGroup at left
        split at left
        · cases left
          exact none
        · obtain ⟨group, _, rfl⟩ := Option.map_eq_some_iff.mp left
          rw [FiniteMap.lookup_erase_if, none, ite_self]
      next => exact fun room found => by cases found
  | grantPriority otherId otherUser =>
    refine ungrouped.onRoom fun room updated _ none granted _ => ?_
    cases granted
    exact none
  | revokePriority otherId otherUser =>
    refine ungrouped.onRoom fun room updated _ none revoked _ => ?_
    cases revoked
    exact none
  | userLeft otherId otherUser =>
    refine ungrouped.onRoom fun room updated _ none left _ => ?_
    cases left
    rw [RoomRouting.userLeft_eq, FiniteMap.lookup_erase_if, none, ite_self]
  | destroyRoom otherId =>
    intro room found
    rw [Rooms.handle, Option.mem_def, FiniteMap.lookup_erase_if] at found
    split at found
    · cases found
    · exact ungrouped room found

theorem userLeft (rooms : Rooms) (roomId : RoomId) (userId : UserId) :
    Ungrouped (rooms.handle (.userLeft roomId userId)).2 roomId userId := by
  intro room found
  simp only [Rooms.handle, Rooms.onRoom] at found
  cases there : rooms.lookup roomId with
  | none =>
    rw [there] at found
    rw [Option.mem_def, there] at found
    cases found
  | some before =>
    rw [there] at found
    rw [Option.mem_def, AList.lookup_insert] at found
    cases found
    rw [RoomRouting.userLeft_eq, FiniteMap.lookup_erase_if, if_pos rfl]

end Ungrouped

/-- Who has left and not joined since is in no group. -/
theorem ungrouped_of_left {history : List Answered} {rooms : Rooms} (run : Run Routes ∅ history rooms)
    {roomId : RoomId} {userId : UserId} (left : LeftSince history roomId userId) : Ungrouped rooms roomId userId := by
  induction run with
  | start =>
    obtain ⟨past, event, later, split, _⟩ := left
    simp at split
  | @next _ before label after _ taken ih =>
    obtain ⟨answered, rfl⟩ := taken
    rcases left.snoc_cases with now | ⟨earlier, apart⟩
    · rw [Leaves] at now
      rw [now]
      exact Ungrouped.userLeft before roomId userId
    · exact (ih earlier).handle answered apart

section Recipients
variable {rooms : Rooms} {history : List Answered} {roomId : RoomId} {senderId : UserId} {participants : List UserId}
  {room : RoomRouting}

/-- Everybody but the sender. -/
theorem HeardInside.of_erase (nodup : participants.Nodup)
    (recipients : rooms.getRecipients roomId senderId participants = participants.erase senderId)
    (mode : ¬ rooms.InGroupMode roomId senderId) : HeardInside rooms history roomId senderId participants := by
  refine ⟨fun recipient member => ?_, recipients ▸ nodup.erase senderId, fun grouped => absurd grouped mode,
    fun grouped => absurd grouped mode⟩
  rw [recipients, nodup.mem_erase_iff] at member
  exact ⟨member.2, member.1⟩

theorem inGroupMode_iff (found : rooms.lookup roomId = some room) :
    rooms.InGroupMode roomId senderId ↔ room.mode senderId = .broadcastGroup := by
  unfold Rooms.InGroupMode
  rw [found]
  simp

theorem heardInside_private_iff (found : rooms.lookup roomId = some room) {targetId : UserId}
    (mode : room.mode senderId = .privateTo targetId) :
    HeardInside rooms history roomId senderId participants ↔ (targetId ∈ participants → targetId ≠ senderId) := by
  have recipients : rooms.getRecipients roomId senderId participants =
      if targetId ∈ participants then [targetId] else [] := by
    simp only [Rooms.getRecipients, found, mode, RoomRouting.computeRecipients]
  have alone : ¬ rooms.InGroupMode roomId senderId := by
    rw [inGroupMode_iff found, mode]
    simp
  constructor
  · intro heard member
    exact (heard.inside targetId (by rw [recipients, if_pos member]; exact List.mem_cons_self)).2
  · intro other
    refine ⟨fun recipient member => ?_, ?_, fun grouped => absurd grouped alone, fun grouped => absurd grouped alone⟩
    · rw [recipients] at member
      split at member
      next takesPart =>
        rw [List.mem_singleton.mp member]
        exact ⟨takesPart, other takesPart⟩
      next => cases member
    · rw [recipients]
      split
      · exact List.nodup_singleton _
      · exact .nil

/-- In group mode the recipients are the other members of the sender's group. -/
theorem mem_groupRecipients (found : rooms.lookup roomId = some room) (mode : room.mode senderId = .broadcastGroup)
    (userId : UserId) : userId ∈ rooms.getRecipients roomId senderId participants ↔
      userId ≠ senderId ∧ ∃ groupId ∈ room.userGroups.lookup senderId, room.InGroup groupId userId := by
  simp only [Rooms.getRecipients, found, mode, RoomRouting.computeRecipients, RoomRouting.InGroup]
  cases room.userGroups.lookup senderId with
  | none => simp
  | some groupId =>
    simp only [Option.mem_some_iff, exists_eq_left']
    cases room.groups.lookup groupId with
    | none => simp
    | some group => simp [(MapSet.toList_nodup group.members).mem_erase_iff, MapSet.mem_toList]

theorem heardInside_group_iff (run : Run Routes ∅ history rooms) (found : rooms.lookup roomId = some room)
    (mode : room.mode senderId = .broadcastGroup) :
    HeardInside rooms history roomId senderId participants ↔
      ∀ groupId ∈ room.userGroups.lookup senderId, ∀ userId, room.InGroup groupId userId → userId ≠ senderId →
        userId ∈ participants ∧ room.userGroups.lookup userId = some groupId := by
  have recipients (userId : UserId) : userId ∈ rooms.getRecipients roomId senderId participants ↔ _ :=
    mem_groupRecipients found mode userId
  have grouped : rooms.InGroupMode roomId senderId := (inGroupMode_iff found).mpr mode
  constructor
  · intro heard groupId ofSender userId member other
    have heardBy := (recipients userId).mpr ⟨other, groupId, ofSender, member⟩
    obtain ⟨_, sameRoom, current, senderIn, userIn, _⟩ := heard.grouped grouped userId heardBy
    rw [found] at sameRoom
    cases sameRoom
    have same : current = groupId := Option.some.inj (senderIn.symm.trans ofSender)
    exact ⟨(heard.inside userId heardBy).1, same ▸ userIn⟩
  · intro within
    have fine (userId : UserId) (heardBy : userId ∈ rooms.getRecipients roomId senderId participants) :
        userId ∈ participants ∧ userId ≠ senderId ∧ ∃ groupId, room.userGroups.lookup senderId = some groupId ∧
          room.userGroups.lookup userId = some groupId ∧ room.InGroup groupId userId := by
      obtain ⟨other, groupId, ofSender, member⟩ := (recipients userId).mp heardBy
      obtain ⟨takesPart, ofUser⟩ := within groupId ofSender userId member other
      exact ⟨takesPart, other, groupId, ofSender, ofUser, member⟩
    refine ⟨fun userId heardBy => ⟨(fine userId heardBy).1, (fine userId heardBy).2.1⟩, ?_,
      fun _ userId heardBy => ⟨room, found, (fine userId heardBy).2.2⟩, fun _ userId left heardBy => ?_⟩
    · simp only [Rooms.getRecipients, found, mode, RoomRouting.computeRecipients]
      split
      · exact .nil
      · split
        · exact .nil
        · exact (MapSet.toList_nodup _).erase senderId
    · obtain ⟨_, _, groupId, _, ofUser, _⟩ := fine userId heardBy
      rw [ungrouped_of_left run left room found] at ofUser
      cases ofUser

/-- Audio stays inside exactly where nobody whispers to himself, and the members of the sender's group
take part and have not moved on. -/
theorem heard_inside_iff (run : Run Routes ∅ history rooms) (roomId : RoomId) (senderId : UserId)
    (participants : List UserId) (nodup : participants.Nodup) :
    HeardInside rooms history roomId senderId participants ↔ Scoped rooms roomId senderId participants := by
  unfold Scoped
  cases found : rooms.lookup roomId with
  | none =>
    refine iff_of_true (.of_erase nodup (by simp only [Rooms.getRecipients, found]) ?_) (by simp)
    rintro ⟨room, there, _⟩
    rw [found] at there
    cases there
  | some room =>
    simp only [Option.mem_some_iff, forall_eq']
    cases mode : room.mode senderId with
    | broadcastAll =>
      refine iff_of_true (.of_erase nodup ?_ ?_) trivial
      · simp only [Rooms.getRecipients, found, mode, RoomRouting.computeRecipients]
      · rw [inGroupMode_iff found, mode]
        simp
    | priority =>
      refine iff_of_true (.of_erase nodup ?_ ?_) trivial
      · simp only [Rooms.getRecipients, found, mode, RoomRouting.computeRecipients]
      · rw [inGroupMode_iff found, mode]
        simp
    | privateTo targetId => exact heardInside_private_iff found mode
    | broadcastGroup => exact heardInside_group_iff run found mode

end Recipients

/-- The red team talks among itself, and Carol leaves. -/
def redTeam : List Answered :=
  [⟨.initRoom "arena", true⟩, ⟨.createGroup "arena" "group_0a" "red" ["ann", "bob", "carol"], true⟩,
    ⟨.setMode "arena" "ann" (some .broadcastGroup), true⟩]

def carolLeaves : List Answered := redTeam ++ [⟨.userLeft "arena" "carol", true⟩]

def annWhispers : List Answered := redTeam ++ [⟨.setMode "arena" "ann" (some (.privateTo "ann")), true⟩]

theorem redTeam_heard_iff : ∃ rooms, Run Routes ∅ redTeam rooms ∧
    (HeardInside rooms redTeam "arena" "ann" ["ann", "bob", "carol"] ↔
      Scoped rooms "arena" "ann" ["ann", "bob", "carol"]) := by
  have run : Run Routes ∅ redTeam _ := ((Run.start.next ⟨rfl, rfl⟩).next ⟨rfl, rfl⟩).next ⟨rfl, rfl⟩
  exact ⟨_, run, heard_inside_iff run "arena" "ann" ["ann", "bob", "carol"] (by decide)⟩

/-- Carol hears Ann without taking part, and after she has left, and Ann hears herself. -/
theorem outsiders_hear :
    (∃ rooms, Run Routes ∅ redTeam rooms ∧ ¬ HeardInside rooms redTeam "arena" "ann" ["ann", "bob"]) ∧
    (∃ rooms, Run Routes ∅ carolLeaves rooms ∧ ¬ HeardInside rooms carolLeaves "arena" "ann" ["ann", "bob", "carol"]) ∧
    ∃ rooms, Run Routes ∅ annWhispers rooms ∧ ¬ HeardInside rooms annWhispers "arena" "ann" ["ann", "bob"] := by
  refine ⟨⟨_, ((Run.start.next ⟨rfl, rfl⟩).next ⟨rfl, rfl⟩).next ⟨rfl, rfl⟩, fun heard => ?_⟩,
    ⟨_, (((Run.start.next ⟨rfl, rfl⟩).next ⟨rfl, rfl⟩).next ⟨rfl, rfl⟩).next ⟨rfl, rfl⟩, fun heard => ?_⟩,
    _, (((Run.start.next ⟨rfl, rfl⟩).next ⟨rfl, rfl⟩).next ⟨rfl, rfl⟩).next ⟨rfl, rfl⟩, fun heard => ?_⟩
  · exact absurd (heard.inside "carol" (by decide)).1 (by decide)
  · refine heard.left ⟨_, rfl, by decide⟩ "carol" ?_ (by decide)
    exact ⟨redTeam, ⟨.userLeft "arena" "carol", true⟩, [], rfl, rfl, by simp⟩
  · exact (heard.inside "ann" (by decide)).2 rfl

end Burble.Media.ChannelRouting
