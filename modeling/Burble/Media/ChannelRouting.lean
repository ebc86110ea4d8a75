import Burble.FiniteMap
import Burble.Runs

namespace Burble.Media.ChannelRouting

abbrev UserId := String

abbrev RoomId := String

abbrev GroupId := String

inductive RoutingMode
  | broadcastAll
  | broadcastGroup
  | privateTo (targetId : UserId)
  | priority
  deriving DecidableEq, Repr

structure Group where
  id : GroupId
  name : String
  members : MapSet UserId

structure RoomRouting where
  roomId : RoomId
  modes : FiniteMap UserId RoutingMode
  groups : FiniteMap GroupId Group
  userGroups : FiniteMap UserId GroupId
  priorityUsers : MapSet UserId

inductive RoutingError
  | roomNotFound
  | invalidMode
  | priorityNotPermitted
  | groupNotFound
  deriving DecidableEq, Repr

namespace RoomRouting

def init (roomId : RoomId) : RoomRouting := ⟨roomId, ∅, ∅, ∅, ∅⟩

/-- Any term may be asked for as a mode; what is no mode is `none`. -/
def validateMode (room : RoomRouting) (userId : UserId) : Option RoutingMode → Except RoutingError RoutingMode
  | some .priority => if userId ∈ room.priorityUsers then .ok .priority else .error .priorityNotPermitted
  | some mode => .ok mode
  | none => .error .invalidMode

def setMode (room : RoomRouting) (userId : UserId) (mode : Option RoutingMode) : Except RoutingError RoomRouting :=
  match room.validateMode userId mode with
  | .ok mode => .ok { room with modes := AList.insert userId mode room.modes }
  | .error reason => .error reason

/-- With the id that has been drawn for the group. -/
def createGroup (room : RoomRouting) (groupId : GroupId) (groupName : String) (memberIds : List UserId) : RoomRouting :=
  { room with
    groups := AList.insert groupId ⟨groupId, groupName, .new memberIds⟩ room.groups
    userGroups := memberIds.foldl (fun groups uid => AList.insert uid groupId groups) room.userGroups }

def joinGroup (room : RoomRouting) (userId : UserId) (groupId : GroupId) : Except RoutingError RoomRouting :=
  match room.groups.lookup groupId with
  | none => .error .groupNotFound
  | some group =>
    .ok { room with
      groups := AList.insert groupId { group with members := group.members.put userId } room.groups
      userGroups := AList.insert userId groupId room.userGroups }

/-- Nothing comes of it where the user's group does not exist: the update of `nil` raises. -/
def leaveGroup (room : RoomRouting) (userId : UserId) : Option RoomRouting :=
  match room.userGroups.lookup userId with
  | none => some room
  | some groupId =>
    (room.groups.lookup groupId).map fun group =>
      { room with
        groups := AList.insert groupId { group with members := group.members.delete userId } room.groups
        userGroups := AList.erase userId room.userGroups }

def grantPriority (room : RoomRouting) (userId : UserId) : RoomRouting :=
  { room with priorityUsers := room.priorityUsers.put userId }

def revokePriority (room : RoomRouting) (userId : UserId) : RoomRouting :=
  { room with priorityUsers := room.priorityUsers.delete userId }

def updateGroupMembership (room : RoomRouting) (userId : UserId) : RoomRouting :=
  match room.userGroups.lookup userId with
  | none => room
  | some groupId =>
    match room.groups.lookup groupId with
    | none => room
    | some group =>
      { room with groups := AList.insert groupId { group with members := group.members.delete userId } room.groups }

def userLeft (room : RoomRouting) (userId : UserId) : RoomRouting :=
  { room with
    modes := AList.erase userId room.modes
    userGroups := AList.erase userId room.userGroups
    priorityUsers := room.priorityUsers.delete userId }.updateGroupMembership userId

def mode (room : RoomRouting) (userId : UserId) : RoutingMode := (room.modes.lookup userId).getD .broadcastAll

def computeRecipients (room : RoomRouting) (senderId : UserId) (allParticipants : List UserId) :
    RoutingMode → List UserId
  | .broadcastAll => allParticipants.erase senderId
  | .broadcastGroup =>
    match room.userGroups.lookup senderId with
    | none => []
    | some groupId =>
      match room.groups.lookup groupId with
      | none => []
      | some group => group.members.toList.erase senderId
  | .privateTo targetId => if targetId ∈ allParticipants then [targetId] else []
  | .priority => allParticipants.erase senderId

end RoomRouting

/-- The routing state of the server. -/
abbrev Rooms := FiniteMap RoomId RoomRouting

inductive RoutingCall
  | initRoom (roomId : RoomId)
  | setMode (roomId : RoomId) (userId : UserId) (mode : Option RoutingMode)
  | createGroup (roomId : RoomId) (groupId : GroupId) (groupName : String) (memberIds : List UserId)
  | joinGroup (roomId : RoomId) (userId : UserId) (groupId : GroupId)
  | leaveGroup (roomId : RoomId) (userId : UserId)
  | grantPriority (roomId : RoomId) (userId : UserId)
  | revokePriority (roomId : RoomId) (userId : UserId)
  | userLeft (roomId : RoomId) (userId : UserId)
  | destroyRoom (roomId : RoomId)
  deriving DecidableEq

namespace Rooms

/-- Change the routing of a room, or fail and leave it. -/
def onRoom (rooms : Rooms) (roomId : RoomId) (change : RoomRouting → Except RoutingError RoomRouting) :
    Except RoutingError Unit × Rooms :=
  match rooms.lookup roomId with
  | none => (.error .roomNotFound, rooms)
  | some room =>
    match change room with
    | .ok updated => (.ok (), AList.insert roomId updated rooms)
    | .error reason => (.error reason, rooms)

/-- The server restarts without rooms when a call raises. -/
def leaveGroup (rooms : Rooms) (roomId : RoomId) (userId : UserId) : Except RoutingError Unit × Rooms :=
  match rooms.lookup roomId with
  | none => (.error .roomNotFound, rooms)
  | some room =>
    match room.leaveGroup userId with
    | some updated => (.ok (), AList.insert roomId updated rooms)
    | none => (.ok (), ∅)

def handle (rooms : Rooms) : RoutingCall → Except RoutingError Unit × Rooms
  | .initRoom roomId => (.ok (), AList.insert roomId (.init roomId) rooms)
  | .setMode roomId userId mode => rooms.onRoom roomId fun room => room.setMode userId mode
  | .createGroup roomId groupId groupName memberIds =>
    rooms.onRoom roomId fun room => .ok (room.createGroup groupId groupName memberIds)
  | .joinGroup roomId userId groupId => rooms.onRoom roomId fun room => room.joinGroup userId groupId
  | .leaveGroup roomId userId => rooms.leaveGroup roomId userId
  | .grantPriority roomId userId => rooms.onRoom roomId fun room => .ok (room.grantPriority userId)
  | .revokePriority roomId userId => rooms.onRoom roomId fun room => .ok (room.revokePriority userId)
  | .userLeft roomId userId => rooms.onRoom roomId fun room => .ok (room.userLeft userId)
  | .destroyRoom roomId => (.ok (), AList.erase roomId rooms)

def getRecipients (rooms : Rooms) (roomId : RoomId) (senderId : UserId) (allParticipants : List UserId) : List UserId :=
  match rooms.lookup roomId with
  | none => allParticipants.erase senderId
  | some room => room.computeRecipients senderId allParticipants (room.mode senderId)

end Rooms

/-- A call with whether it succeeded. -/
structure Answered where
  call : RoutingCall
  succeeded : Bool
  deriving DecidableEq

def Routes (before : Rooms) (label : Answered) (after : Rooms) : Prop :=
  (before.handle label.call).1.isOk = label.succeeded ∧ (before.handle label.call).2 = after

end Burble.Media.ChannelRouting

namespace Burble.Media.ChannelRouting

namespace RoomRouting

def InGroup (room : RoomRouting) (groupId : GroupId) (userId : UserId) : Prop :=
  ∃ group ∈ room.groups.lookup groupId, userId ∈ group.members

/-- The members of the groups and the groups of the users are one relation, and only who may has
priority. -/
structure Consistent (room : RoomRouting) : Prop where
  groups : ∀ userId groupId, room.InGroup groupId userId ↔ room.userGroups.lookup userId = some groupId
  priority : ∀ userId, room.modes.lookup userId = some .priority → userId ∈ room.priorityUsers

/-- No member is in another group, and nobody else is in the one that is made. -/
def Separate (room : RoomRouting) (groupId : GroupId) (memberIds : List UserId) : Prop :=
  (∀ userId ∈ memberIds, ∀ current ∈ room.userGroups.lookup userId, current = groupId) ∧
    ∀ userId, userId ∉ memberIds → room.userGroups.lookup userId ≠ some groupId

variable {room : RoomRouting} {userId : UserId} {groupId : GroupId}

theorem init_consistent (roomId : RoomId) : (init roomId).Consistent := by
  refine ⟨fun userId groupId => ⟨?_, fun found => ?_⟩, fun userId found => ?_⟩
  · rintro ⟨group, found, _⟩
    cases found
  · cases found
  · cases found

theorem inGroup_insert (group : Group) {after : RoomRouting} (groups : after.groups = AList.insert groupId group room.groups)
    (other : GroupId) (userId : UserId) :
    after.InGroup other userId ↔ if other = groupId then userId ∈ group.members else room.InGroup other userId := by
  unfold InGroup
  rw [groups, FiniteMap.lookup_insert_if]
  split <;> simp

theorem inGroup_iff_of_lookup {group : Group} (found : room.groups.lookup groupId = some group) :
    room.InGroup groupId userId ↔ userId ∈ group.members := by
  unfold InGroup
  rw [found]
  simp

theorem Consistent.setMode (consistent : room.Consistent) {mode : Option RoutingMode} {updated : RoomRouting}
    (set : room.setMode userId mode = .ok updated) : updated.Consistent := by
  unfold RoomRouting.setMode at set
  split at set
  next valid validated =>
    cases set
    refine ⟨consistent.groups, fun other found => ?_⟩
    dsimp only at found
    rw [FiniteMap.lookup_insert_if] at found
    split at found
    next same =>
      cases found
      unfold validateMode at validated
      split at validated
      · split at validated
        next permitted => exact same ▸ permitted
        next => cases validated
      · cases validated
        contradiction
      · cases validated
    next => exact consistent.priority other found
  next => cases set

theorem userGroups_createGroup (groupId : GroupId) (groupName : String) (memberIds : List UserId) (userId : UserId) :
    (room.createGroup groupId groupName memberIds).userGroups.lookup userId =
      if userId ∈ memberIds then some groupId else room.userGroups.lookup userId := by
  have folded (groups : FiniteMap UserId GroupId) :
      (memberIds.foldl (fun groups uid => AList.insert uid groupId groups) groups).lookup userId =
        if userId ∈ memberIds then some groupId else groups.lookup userId := by
    induction memberIds generalizing groups with
    | nil => simp
    | cons first rest ih =>
      rw [List.foldl_cons, ih, FiniteMap.lookup_insert_if]
      by_cases later : userId ∈ rest
      · simp [later]
      · by_cases same : userId = first <;> simp [later, same]
  exact folded room.userGroups

theorem Consistent.createGroup_iff (consistent : room.Consistent) (groupId : GroupId) (groupName : String)
    (memberIds : List UserId) :
    room.Separate groupId memberIds ↔ (room.createGroup groupId groupName memberIds).Consistent := by
  have inGroup : ∀ other userId, (room.createGroup groupId groupName memberIds).InGroup other userId ↔
      if other = groupId then userId ∈ MapSet.new memberIds else room.InGroup other userId :=
    inGroup_insert ⟨groupId, groupName, .new memberIds⟩ rfl
  constructor
  · rintro ⟨others, outsiders⟩
    refine ⟨fun userId other => ?_, consistent.priority⟩
    rw [inGroup, userGroups_createGroup]
    by_cases member : userId ∈ memberIds
    · rw [if_pos member]
      by_cases made : other = groupId
      · simp [made, member]
      · rw [if_neg made, consistent.groups]
        refine iff_of_false (fun current => made (others userId member other current)) ?_
        exact fun same => made (Option.some.inj same).symm
    · rw [if_neg member]
      by_cases made : other = groupId
      · simpa [made, member] using outsiders userId member
      · rw [if_neg made, consistent.groups]
  · intro after
    refine ⟨fun userId member current found => ?_, fun userId outside found => ?_⟩
    · by_contra made
      have still := (after.groups userId current).mp ((inGroup current userId).mpr (by
        rw [if_neg made]
        exact (consistent.groups userId current).mpr found))
      rw [userGroups_createGroup, if_pos member] at still
      exact made (Option.some.inj still).symm
    · have within := (after.groups userId groupId).mpr (by rw [userGroups_createGroup, if_neg outside, found])
      rw [inGroup, if_pos rfl] at within
      exact outside (MapSet.mem_new.mp within)

theorem Consistent.joinGroup_iff (consistent : room.Consistent) {updated : RoomRouting}
    (joined : room.joinGroup userId groupId = .ok updated) :
    (∀ current ∈ room.userGroups.lookup userId, current = groupId) ↔ updated.Consistent := by
  unfold RoomRouting.joinGroup at joined
  split at joined
  next => cases joined
  next group found =>
    cases joined
    have inGroup : ∀ other u, RoomRouting.InGroup { room with
        groups := AList.insert groupId { group with members := group.members.put userId } room.groups
        userGroups := AList.insert userId groupId room.userGroups } other u ↔
          if other = groupId then u ∈ group.members.put userId else room.InGroup other u :=
      inGroup_insert { group with members := group.members.put userId } rfl
    constructor
    · intro only
      refine ⟨fun u other => ?_, consistent.priority⟩
      rw [inGroup, FiniteMap.lookup_insert_if]
      by_cases same : u = userId
      · subst same
        rw [if_pos rfl]
        by_cases here : other = groupId
        · simp [here]
        · rw [if_neg here, consistent.groups]
          refine iff_of_false (fun current => here (only other current)) ?_
          exact fun equal => here (Option.some.inj equal).symm
      · rw [if_neg same]
        by_cases here : other = groupId
        · rw [if_pos here, MapSet.mem_put, or_iff_right same, ← inGroup_iff_of_lookup found, consistent.groups, here]
        · rw [if_neg here, consistent.groups]
    · intro after current was
      by_contra here
      have still := (after.groups userId current).mp ((inGroup current userId).mpr (by
        rw [if_neg here]
        exact (consistent.groups userId current).mpr was))
      rw [FiniteMap.lookup_insert_if, if_pos rfl] at still
      exact here (Option.some.inj still).symm

/-- A user leaves his group: the one operation that forgets neither side. -/
theorem Consistent.leaveGroup (consistent : room.Consistent) (userId : UserId) :
    ∃ updated, room.leaveGroup userId = some updated ∧ updated.Consistent := by
  unfold RoomRouting.leaveGroup
  split
  next => exact ⟨room, rfl, consistent⟩
  next groupId was =>
    obtain ⟨group, found, _⟩ := (consistent.groups userId groupId).mpr was
    have found : room.groups.lookup groupId = some group := found
    have inGroup : ∀ other u, RoomRouting.InGroup { room with
        groups := AList.insert groupId { group with members := group.members.delete userId } room.groups
        userGroups := AList.erase userId room.userGroups } other u ↔
          if other = groupId then u ∈ group.members.delete userId else room.InGroup other u :=
      inGroup_insert { group with members := group.members.delete userId } rfl
    rw [found, Option.map_some]
    refine ⟨_, rfl, fun u other => ?_, consistent.priority⟩
    rw [inGroup, FiniteMap.lookup_erase_if]
    by_cases same : u = userId
    · subst same
      rw [if_pos rfl]
      by_cases here : other = groupId
      · simp [here]
      · rw [if_neg here, consistent.groups, was]
        exact iff_of_false (fun equal => here (Option.some.inj equal).symm) (by simp)
    · rw [if_neg same]
      by_cases here : other = groupId
      · rw [if_pos here, MapSet.mem_delete, and_iff_right same, ← inGroup_iff_of_lookup found, consistent.groups, here]
      · rw [if_neg here, consistent.groups]

theorem Consistent.grantPriority (consistent : room.Consistent) (userId : UserId) :
    (room.grantPriority userId).Consistent :=
  ⟨consistent.groups, fun other found => MapSet.mem_put.mpr (.inr (consistent.priority other found))⟩

theorem Consistent.revokePriority_iff (consistent : room.Consistent) (userId : UserId) :
    room.modes.lookup userId ≠ some .priority ↔ (room.revokePriority userId).Consistent := by
  constructor
  · intro other
    refine ⟨consistent.groups, fun u found => MapSet.mem_delete.mpr ⟨?_, consistent.priority u found⟩⟩
    rintro rfl
    exact other found
  · intro after found
    exact (MapSet.mem_delete.mp (after.priority userId found)).1 rfl

/-- Nobody is taken out of a group by leaving the room: his group has been forgotten by then. -/
theorem userLeft_eq (room : RoomRouting) (userId : UserId) : room.userLeft userId =
    { room with
      modes := AList.erase userId room.modes
      userGroups := AList.erase userId room.userGroups
      priorityUsers := room.priorityUsers.delete userId } := by
  simp [userLeft, updateGroupMembership]

theorem Consistent.userLeft_iff (consistent : room.Consistent) (userId : UserId) :
    room.userGroups.lookup userId = none ↔ (room.userLeft userId).Consistent := by
  rw [userLeft_eq]
  constructor
  · intro ungrouped
    refine ⟨fun u other => (consistent.groups u other).trans ?_, fun u found => ?_⟩
    · rw [FiniteMap.lookup_erase_if]
      split
      next same => rw [same, ungrouped]
      next => rfl
    · rw [FiniteMap.lookup_erase_if] at found
      split at found
      next => cases found
      next different => exact MapSet.mem_delete.mpr ⟨different, consistent.priority u found⟩
  · intro after
    by_contra grouped
    obtain ⟨groupId, was⟩ := Option.ne_none_iff_exists'.mp grouped
    have still := (after.groups userId groupId).mp ((consistent.groups userId groupId).mpr was)
    rw [FiniteMap.lookup_erase_if, if_pos rfl] at still
    cases still

end RoomRouting

/-- Every room's groups partition its users, and its priority speakers are permitted. -/
def Partitioned (rooms : Rooms) : Prop := ∀ roomId, ∀ room ∈ rooms.lookup roomId, room.Consistent

/-- Users enter groups from none, and leave the room in none; priority is revoked from who does not use it. -/
def Careful (rooms : Rooms) (label : Answered) : Prop :=
  match label.call with
  | .createGroup roomId groupId _ memberIds => ∀ room ∈ rooms.lookup roomId, room.Separate groupId memberIds
  | .joinGroup roomId userId groupId => ∀ room ∈ rooms.lookup roomId, (room.groups.lookup groupId).isSome = true →
      ∀ current ∈ room.userGroups.lookup userId, current = groupId
  | .userLeft roomId userId => ∀ room ∈ rooms.lookup roomId, room.userGroups.lookup userId = none
  | .revokePriority roomId userId => ∀ room ∈ rooms.lookup roomId, room.modes.lookup userId ≠ some .priority
  | _ => True

namespace Partitioned
variable {rooms : Rooms} {roomId : RoomId}

theorem insert_iff (partitioned : Partitioned rooms) {updated : RoomRouting} :
    Partitioned (AList.insert roomId updated rooms) ↔ updated.Consistent := by
  constructor
  · exact fun after => after roomId updated (AList.lookup_insert _)
  · intro consistent other current found
    rw [Option.mem_def, FiniteMap.lookup_insert_if] at found
    split at found
    next =>
      cases found
      exact consistent
    next => exact partitioned other current found

/-- A change keeps the partition if it keeps it in the room it is made in. -/
theorem onRoom_iff (partitioned : Partitioned rooms) {roomId : RoomId} {change : RoomRouting → Except RoutingError RoomRouting}
    {guard : RoomRouting → Prop} (fails : ∀ room reason, change room = .error reason → guard room)
    (each : ∀ room updated, room.Consistent → change room = .ok updated → (guard room ↔ updated.Consistent)) :
    (∀ room ∈ rooms.lookup roomId, guard room) ↔ Partitioned (rooms.onRoom roomId change).2 := by
  unfold Rooms.onRoom
  cases found : rooms.lookup roomId with
  | none => exact iff_of_true (by simp) partitioned
  | some room =>
    simp only [Option.mem_some_iff, forall_eq']
    cases changed : change room with
    | error reason => exact iff_of_true (fails room reason changed) partitioned
    | ok updated => exact (each room updated (partitioned roomId room found) changed).trans partitioned.insert_iff.symm

theorem onRoom (partitioned : Partitioned rooms) {change : RoomRouting → Except RoutingError RoomRouting}
    (each : ∀ room updated, room.Consistent → change room = .ok updated → updated.Consistent) :
    Partitioned (rooms.onRoom roomId change).2 :=
  (partitioned.onRoom_iff (fun _ _ _ => trivial) fun room updated consistent changed =>
    iff_of_true trivial (each room updated consistent changed)).mp fun _ _ => trivial

/-- A call keeps the partition exactly when it is careful. -/
theorem handle_iff (partitioned : Partitioned rooms) (label : Answered) :
    Careful rooms label ↔ Partitioned (rooms.handle label.call).2 := by
  obtain ⟨call, succeeded⟩ := label
  cases call with
  | initRoom roomId => exact iff_of_true trivial (partitioned.insert_iff.mpr (RoomRouting.init_consistent roomId))
  | setMode roomId userId mode =>
    refine iff_of_true trivial (partitioned.onRoom fun room updated consistent set => ?_)
    exact consistent.setMode set
  | createGroup roomId groupId groupName memberIds =>
    refine partitioned.onRoom_iff (fun room reason failed => by cases failed) ?_
    rintro room _ consistent ⟨⟩
    exact consistent.createGroup_iff groupId groupName memberIds
  | joinGroup roomId userId groupId =>
    refine partitioned.onRoom_iff (fun room reason failed there => ?_) ?_
    · obtain ⟨group, found⟩ := Option.isSome_iff_exists.mp there
      simp [RoomRouting.joinGroup, found] at failed
    · intro room updated consistent joined
      refine Iff.trans ⟨fun guarded => guarded ?_, fun only _ => only⟩ (consistent.joinGroup_iff joined)
      by_contra missing
      simp [RoomRouting.joinGroup, Option.not_isSome_iff_eq_none.mp missing] at joined
  | leaveGroup roomId userId =>
    refine iff_of_true trivial ?_
    simp only [Rooms.handle, Rooms.leaveGroup]
    cases found : rooms.lookup roomId with
    | none => exact partitioned
    | some room =>
      obtain ⟨updated, left, consistent⟩ := (partitioned roomId room found).leaveGroup userId
      simp only [left]
      exact partitioned.insert_iff.mpr consistent
  | grantPriority roomId userId =>
    refine iff_of_true trivial (partitioned.onRoom ?_)
    rintro room _ consistent ⟨⟩
    exact consistent.grantPriority userId
  | revokePriority roomId userId =>
    refine partitioned.onRoom_iff (fun room reason failed => by cases failed) ?_
    rintro room _ consistent ⟨⟩
    exact consistent.revokePriority_iff userId
  | userLeft roomId userId =>
    refine partitioned.onRoom_iff (fun room reason failed => by cases failed) ?_
    rintro room _ consistent ⟨⟩
    exact consistent.userLeft_iff userId
  | destroyRoom roomId =>
    refine iff_of_true trivial fun other room found => ?_
    rw [Rooms.handle, Option.mem_def, FiniteMap.lookup_erase_if] at found
    split at found
    · cases found
    · exact partitioned other room found

end Partitioned

/-- The groups partition the users throughout a run exactly when each of its calls is careful. -/
theorem groups_partitioned_iff (labels : List Answered) (last : Rooms) :
    Run (fun before label after => Routes before label after ∧ Partitioned after) ∅ labels last ↔
      Run (Guarded Careful Routes) ∅ labels last := by
  have none : Partitioned ∅ := fun roomId room found => by cases found
  refine Run.within_iff_guarded (fun _ => True) ⟨trivial, none⟩ (fun _ _ => trivial) ?_
  rintro before label _ - partitioned ⟨_, rfl⟩
  exact partitioned.handle_iff label

/-- Ann's team, in a room of its own. -/
def annsTeam : List Answered := [⟨.initRoom "arena", true⟩, ⟨.createGroup "arena" "group_0a" "red" ["ann"], true⟩]

/-- Ann joins another team, or leaves the room, or loses a priority that she is using: the groups
or the permissions are wrong after each. -/
theorem ann_in_two_teams :
    (∃ rooms, Run Routes ∅ (annsTeam ++ [⟨.createGroup "arena" "group_0b" "blue" ["ann"], true⟩]) rooms ∧
      ¬ Partitioned rooms) ∧
    (∃ rooms, Run Routes ∅ (annsTeam ++ [⟨.userLeft "arena" "ann", true⟩]) rooms ∧ ¬ Partitioned rooms) ∧
    ∃ rooms, Run Routes ∅ [⟨.initRoom "arena", true⟩, ⟨.grantPriority "arena" "ann", true⟩,
      ⟨.setMode "arena" "ann" (some .priority), true⟩, ⟨.revokePriority "arena" "ann", true⟩] rooms ∧
      ¬ Partitioned rooms := by
  refine ⟨⟨_, ((Run.start.next ⟨rfl, rfl⟩).next ⟨rfl, rfl⟩).next ⟨rfl, rfl⟩, fun partitioned => ?_⟩,
    ⟨_, ((Run.start.next ⟨rfl, rfl⟩).next ⟨rfl, rfl⟩).next ⟨rfl, rfl⟩, fun partitioned => ?_⟩,
    _, (((Run.start.next ⟨rfl, rfl⟩).next ⟨rfl, rfl⟩).next ⟨rfl, rfl⟩).next ⟨rfl, rfl⟩, fun partitioned => ?_⟩
  · have red := ((partitioned "arena" _ rfl).groups "ann" "group_0a").mp ⟨_, rfl, by decide⟩
    exact absurd red (by decide)
  · have red := ((partitioned "arena" _ rfl).groups "ann" "group_0a").mp ⟨_, rfl, by decide⟩
    exact absurd red (by decide)
  · exact absurd ((partitioned "arena" _ rfl).priority "ann" rfl) (by decide)

end Burble.Media.ChannelRouting
