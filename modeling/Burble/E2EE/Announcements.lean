import Burble.E2EE.RoomChannel

namespace Burble.E2EE
variable {PubKey Blob : Type}

/-- The payload names the room's epoch and the keys of the peers registered in it. -/
def Announcement.Describes (payload : Announcement PubKey) (room : Room PubKey Blob) : Prop :=
  payload.epoch = room.epoch ∧ payload.publicKeys = room.peers.mapValues Peer.publicKey

namespace Task

/-- What a registration has in hand, if it is the last one served, is what the room is at. -/
def Current (room : Room PubKey Blob) : Task PubKey → Prop
  | .registered _ epoch _ => epoch = room.epoch
  | .prepared _ payload | .announcing _ payload _ => payload.Describes room
  | _ => True

/-- The registration in hand will still be announced to this channel. -/
def Owes (member : Nat) : Task PubKey → Prop
  | .registered .. | .prepared .. => True
  | .announcing _ _ audience => member ∈ audience
  | _ => False

end Task

namespace RoomChannels
variable {s after : RoomChannels PubKey Blob} {roomId : String}

/-- No registration is between its call and the end of its broadcast. -/
def Quiescent (s : RoomChannels PubKey Blob) : Prop :=
  ∀ id channel, s.channels.lookup id = some channel → channel.task.serial? = none

/-- At rest, the last key set sent to each channel that was there before the epoch began
is the room's. -/
def Announced (roomId : String) (s : RoomChannels PubKey Blob) : Prop :=
  s.Quiescent → ∀ room, s.coordinator.rooms.lookup roomId = some room →
    ∀ id channel, s.channels.lookup id = some channel → channel.sinceEpoch = true →
      ∃ serial payload, channel.heard = some (serial, payload) ∧ payload.Describes room

/-- No broadcast reaches a channel after that of a registration served later, rotations
find no subscribers, and a channel that terminates is the only one left. -/
def Ordered (s : RoomChannels PubKey Blob) (label : Nat × ChannelEvent PubKey Blob) : Prop :=
  match label.2 with
  | .deliver id member =>
    ∀ channel ∈ s.channels.lookup id, ∀ serial ∈ channel.task.serial?,
      ∀ other ∈ s.channels.lookup member, ∀ last ∈ other.heard, last.1 < serial
  | .rotate => s.subscribers = []
  | .terminate id => ∀ other ∈ s.channels.keys, other = id
  | _ => True

instance (s : RoomChannels PubKey Blob) (label : Nat × ChannelEvent PubKey Blob) : Decidable (s.Ordered label) :=
  match label with
  | (_, .deliver id member) =>
    inferInstanceAs (Decidable (∀ channel ∈ s.channels.lookup id, ∀ serial ∈ channel.task.serial?,
      ∀ other ∈ s.channels.lookup member, ∀ last ∈ other.heard, last.1 < serial))
  | (_, .rotate) => inferInstanceAs (Decidable (s.subscribers = []))
  | (_, .terminate id) => inferInstanceAs (Decidable (∀ other ∈ s.channels.keys, other = id))
  | (_, .join ..) | (_, .subscribe _) | (_, .registerKey ..) | (_, .fetchKeys _) | (_, .broadcast _)
  | (_, .publishSealed ..) =>
    inferInstanceAs (Decidable True)

/-- The last registration served has reached a channel, or will. -/
def Informed (s : RoomChannels PubKey Blob) (room : Room PubKey Blob) (id : Nat) (channel : Channel PubKey) : Prop :=
  (∃ payload, channel.heard = some (s.served, payload) ∧ payload.Describes room) ∨
    ∃ other busy, s.channels.lookup other = some busy ∧ busy.task.serial? = some s.served ∧ busy.task.Owes id

/-- Every channel is subscribed to a room on record, and the last registration served is
the one that decides what channels have heard. -/
structure Sound (roomId : String) (s : RoomChannels PubKey Blob) : Prop where
  onRecord : s.channels ≠ ∅ → ∃ room, s.coordinator.rooms.lookup roomId = some room
  serials : ∀ id channel serial, s.channels.lookup id = some channel → channel.task.serial? = some serial →
    serial ≤ s.served
  current : ∀ room, s.coordinator.rooms.lookup roomId = some room → ∀ id channel,
    s.channels.lookup id = some channel → channel.task.serial? = some s.served → channel.task.Current room
  subscribed : ∀ id channel, s.channels.lookup id = some channel → channel.sinceEpoch = true →
    channel.task.subscribed = true
  informed : ∀ room, s.coordinator.rooms.lookup roomId = some room → ∀ id channel,
    s.channels.lookup id = some channel → channel.sinceEpoch = true → s.Informed room id channel

theorem quiescent_of_entries (rest : ∀ entry ∈ s.channels.entries, entry.2.task.serial? = none) : s.Quiescent :=
  fun id channel atId => rest ⟨id, channel⟩ (AList.mem_lookup_iff.mp atId)

theorem Sound.announced (sound : s.Sound roomId) : s.Announced roomId := by
  intro rest room atRoom id channel atId since
  rcases sound.informed room atRoom id channel atId since with ⟨payload, heard, describes⟩ | pending
  · exact ⟨s.served, payload, heard, describes⟩
  · obtain ⟨other, busy, atOther, serial, -⟩ := pending
    rw [rest other busy atOther] at serial
    cases serial

theorem put_lookup (s : RoomChannels PubKey Blob) (id other : Nat) (channel : Channel PubKey) :
    (s.put id channel).channels.lookup other = if other = id then some channel else s.channels.lookup other :=
  FiniteMap.lookup_insert_if ..

theorem lookup_nonempty {id : Nat} {channel : Channel PubKey} (atId : s.channels.lookup id = some channel) :
    s.channels ≠ ∅ := by
  rintro empty
  rw [empty, AList.lookup_empty] at atId
  cases atId

/-- A channel after the coordinator has moved is the same but for `sinceEpoch`, which it
has from before or by being subscribed when the epoch began. -/
theorem moveTo_lookup {coordinator : State PubKey Blob} {id : Nat} {channel : Channel PubKey}
    (atId : (s.moveTo roomId coordinator).channels.lookup id = some channel) :
    ∃ old, s.channels.lookup id = some old ∧ channel = { old with sinceEpoch := channel.sinceEpoch } ∧
      (channel.sinceEpoch = true → old.sinceEpoch = true ∨ old.task.subscribed = true) := by
  unfold moveTo at atId
  split at atId
  · exact ⟨channel, atId, rfl, .inl⟩
  · rw [FiniteMap.lookup_mapValues] at atId
    obtain ⟨old, found, rfl⟩ := Option.map_eq_some_iff.mp atId
    exact ⟨old, found, rfl, .inr⟩

theorem moveTo_of_lookup (roomId : String) (coordinator : State PubKey Blob) {id : Nat} {channel : Channel PubKey}
    (atId : s.channels.lookup id = some channel) :
    ∃ since, (s.moveTo roomId coordinator).channels.lookup id = some { channel with sinceEpoch := since } := by
  unfold moveTo
  split
  · exact ⟨channel.sinceEpoch, atId⟩
  · refine ⟨channel.task.subscribed, ?_⟩
    rw [FiniteMap.lookup_mapValues, atId]
    rfl

theorem moveTo_coordinator (s : RoomChannels PubKey Blob) (roomId : String) (coordinator : State PubKey Blob) :
    (s.moveTo roomId coordinator).coordinator = coordinator ∧ (s.moveTo roomId coordinator).served = s.served := by
  unfold moveTo
  split <;> exact ⟨rfl, rfl⟩

theorem moveTo_channels {other : RoomChannels PubKey Blob} (channels : other.channels = s.channels)
    (coordinator : other.coordinator = s.coordinator) (moved : State PubKey Blob) :
    (other.moveTo roomId moved).channels = (s.moveTo roomId moved).channels := by
  unfold moveTo
  rw [coordinator]
  split <;> simp only [channels]

theorem moveTo_empty {coordinator : State PubKey Blob} (nobody : s.channels = ∅) :
    (s.moveTo roomId coordinator).channels = ∅ := by
  refine FiniteMap.eq_empty_of_lookup fun id => ?_
  by_contra present
  obtain ⟨channel, atId⟩ := Option.ne_none_iff_exists'.mp present
  obtain ⟨old, found, -⟩ := moveTo_lookup atId
  rw [nobody, AList.lookup_empty] at found
  cases found

/-- With nobody in the room every obligation is met. -/
theorem Sound.of_empty (nobody : s.channels = ∅) : s.Sound roomId := by
  have absent {id : Nat} {channel : Channel PubKey} (atId : s.channels.lookup id = some channel) : False :=
    lookup_nonempty atId nobody
  exact ⟨fun some => absurd nobody some, fun _ _ _ atId => (absent atId).elim,
    fun _ _ _ _ atId => (absent atId).elim, fun _ _ atId => (absent atId).elim,
    fun _ _ _ _ atId => (absent atId).elim⟩

theorem put_lookup_map {id : Nat} {channel : Channel PubKey} (next : Channel PubKey)
    (atId : s.channels.lookup id = some channel) (other : Nat) :
    (s.put id next).channels.lookup other =
      (s.channels.lookup other).map fun old => if other = id then next else old := by
  rw [put_lookup]
  split
  next same => rw [same, atId]; simp
  next => simp

theorem deliver_lookup {id : Nat} {channel : Channel PubKey} (member serial : Nat) (payload : Announcement PubKey)
    (task : Task PubKey) (atId : s.channels.lookup id = some channel) (other : Nat) :
    ((s.put id { channel with task }).hear member serial payload).channels.lookup other =
      (s.channels.lookup other).map fun old =>
        { old with
          task := if other = id then task else old.task
          heard := if other = member then some (serial, payload) else old.heard } := by
  have before := put_lookup_map { channel with task } atId
  unfold hear
  split
  next reached atMember =>
    rw [before] at atMember
    obtain ⟨old, atOld, rfl⟩ := Option.map_eq_some_iff.mp atMember
    rw [put_lookup]
    split
    next same =>
      subst same
      rw [atOld]
      simp only [Option.map_some]
      split
      next here =>
        subst here
        rw [atId] at atOld
        cases atOld
        rfl
      next => rfl
    next different =>
      rw [before]
      cases atOther : s.channels.lookup other with
      | none => rfl
      | some found =>
        simp only [Option.map_some]
        split
        next here =>
          subst here
          rw [atId] at atOther
          cases atOther
          rfl
        next => rfl
  next gone =>
    rw [before] at gone ⊢
    cases atOther : s.channels.lookup other with
    | none => rfl
    | some found =>
      have away : other ≠ member := by
        rintro rfl
        rw [atOther] at gone
        cases gone
      simp only [Option.map_some, away, if_false]
      split
      next here =>
        subst here
        rw [atId] at atOther
        cases atOther
        rfl
      next => rfl

/-- A channel goes on with the registration it has in hand, or with none. -/
theorem Sound.put (sound : s.Sound roomId) {id : Nat} {channel : Channel PubKey} {task : Task PubKey}
    (atId : s.channels.lookup id = some channel) (sub : channel.task.subscribed = true → task.subscribed = true)
    (serial : ∀ serial, task.serial? = some serial → channel.task.serial? = some serial)
    (current : ∀ room, s.coordinator.rooms.lookup roomId = some room → task.serial? = some s.served →
      channel.task.Current room → task.Current room)
    (owes : channel.task.serial? = some s.served → ∀ member other, s.channels.lookup member = some other →
      other.task.subscribed = true → channel.task.Owes member →
      task.serial? = some s.served ∧ task.Owes member) : (s.put id { channel with task }).Sound roomId := by
  have before := put_lookup_map { channel with task } atId
  refine ⟨fun _ => sound.onRecord (lookup_nonempty atId), fun other next n found has => ?_,
    fun room atRoom other next found has => ?_, fun other next found since => ?_,
    fun room atRoom other next found since => ?_⟩
  all_goals
    rw [before] at found
    obtain ⟨old, atOther, rfl⟩ := Option.map_eq_some_iff.mp found
  · split at has
    · exact sound.serials id channel n atId (serial n has)
    · exact sound.serials other old n atOther has
  · by_cases here : other = id
    · rw [if_pos here] at has ⊢
      exact current room atRoom has (sound.current room atRoom id channel atId (serial _ has))
    · rw [if_neg here] at has ⊢
      exact sound.current room atRoom other old atOther has
  · by_cases here : other = id
    · rw [if_pos here] at since ⊢
      exact sub (sound.subscribed id channel atId since)
    · rw [if_neg here] at since ⊢
      exact sound.subscribed other old atOther since
  · have sinceOld : old.sinceEpoch = true := by
      split at since
      next same => subst same; rw [atId] at atOther; cases atOther; exact since
      next => exact since
    rcases sound.informed room atRoom other old atOther sinceOld with ⟨payload, heard, describes⟩ | pending
    · refine .inl ⟨payload, ?_, describes⟩
      split
      next same => subst same; rw [atId] at atOther; cases atOther; exact heard
      next => exact heard
    · obtain ⟨busyId, busy, atBusy, latest, owed⟩ := pending
      refine .inr ⟨busyId, if busyId = id then { channel with task } else busy, ?_, ?_⟩
      · rw [before, atBusy]; rfl
      · split
        next same =>
          subst same
          rw [atId] at atBusy
          cases atBusy
          exact owes latest other old atOther (sound.subscribed other old atOther sinceOld) owed
        next => exact ⟨latest, owed⟩

theorem registerPeerKey_epoch [ByteSize PubKey] [DecidableEq PubKey] {config : ProofConfig PubKey} {now : Nat}
    {peerId : String} {publicKey : PubKey} {identityKey signature : Option (List UInt8)}
    {state : State PubKey Blob} {epoch peers : Nat}
    (replied : (registerPeerKey config now roomId peerId publicKey identityKey signature state).reply =
      .ok (epoch, peers)) :
    ∃ room, (registerPeerKey config now roomId peerId publicKey identityKey signature state).state.rooms.lookup
      roomId = some room ∧ epoch = room.epoch := by
  unfold registerPeerKey at replied ⊢
  split at replied
  · cases replied
  next room proven checked =>
    split at replied
    next known =>
      cases replied
      simp only [if_pos known]
      exact ⟨room, (registerChecks_ok checked).1, rfl⟩
    next changed =>
      cases replied
      simp only [if_neg changed, putRoom_lookup]
      exact ⟨_, rfl, rfl⟩

/-- A publish moves neither the epoch nor the peers. -/
theorem publishSealed_room [ByteSize Blob] {state : State PubKey Blob} {room : Room PubKey Blob}
    (sender recipient : String) (epoch : Nat) (blob : Blob) (atRoom : state.rooms.lookup roomId = some room) :
    ∃ stored, (E2EE.publishSealed roomId sender recipient epoch blob state).state.rooms.lookup roomId = some stored ∧
      stored.epoch = room.epoch ∧ stored.peers = room.peers := by
  unfold E2EE.publishSealed
  split
  · exact ⟨room, atRoom, rfl, rfl⟩
  next other passed =>
    obtain ⟨atOther, -⟩ := publishChecks_ok passed
    rw [atRoom] at atOther
    cases atOther
    rw [putRoom_lookup, if_pos rfl]
    exact ⟨_, rfl, rfl, rfl⟩

theorem publicKeySet_eq {state : State PubKey Blob} {room : Room PubKey Blob}
    (atRoom : state.rooms.lookup roomId = some room) :
    publicKeySet roomId state = room.peers.mapValues Peer.publicKey := by
  simp only [publicKeySet, keySet, atRoom]

theorem initE2EERoom_present {state : State PubKey Blob} {room : Room PubKey Blob} (now : Nat)
    (atRoom : state.rooms.lookup roomId = some room) : initE2EERoom now roomId state = state := by
  simp only [initE2EERoom, initRoom, atRoom]

theorem initE2EERoom_onRecord (roomId : String) (state : State PubKey Blob) (now : Nat) :
    ∃ room, (initE2EERoom now roomId state).rooms.lookup roomId = some room := by
  cases atRoom : state.rooms.lookup roomId with
  | none =>
    simp only [initE2EERoom, initRoom, atRoom, putRoom_lookup, if_true]
    exact ⟨_, rfl⟩
  | some room => exact ⟨room, by rw [initE2EERoom_present now atRoom]; exact atRoom⟩

namespace Sound

theorem join (sound : s.Sound roomId) {now id : Nat} {userId : String}
    (taken : s.join roomId now id userId = some after) : after.Sound roomId := by
  unfold RoomChannels.join at taken
  split at taken
  · cases taken
  cases taken
  obtain ⟨coordinator, served⟩ := moveTo_coordinator s roomId (initE2EERoom now roomId s.coordinator)
  -- nobody was there, or the room is on record and stays as it is
  have others : (s.moveTo roomId (initE2EERoom now roomId s.coordinator)).Sound roomId := by
    by_cases nobody : s.channels = ∅
    · exact .of_empty (moveTo_empty nobody)
    · obtain ⟨room, atRoom⟩ := sound.onRecord nobody
      rw [initE2EERoom_present now atRoom]
      unfold moveTo
      rw [if_pos rfl]
      exact sound
  have bystander {other : Nat} {channel : Channel PubKey} (task : channel.task ≠ .joining)
      (found : ((s.moveTo roomId (initE2EERoom now roomId s.coordinator)).put id
        ⟨userId, .joining, none, false⟩).channels.lookup other = some channel) :
      (s.moveTo roomId (initE2EERoom now roomId s.coordinator)).channels.lookup other = some channel := by
    rw [put_lookup] at found
    split at found
    · cases found; exact absurd rfl task
    · exact found
  refine ⟨fun _ => ?_, fun other channel n found has => ?_, fun room atRoom other channel found has => ?_,
    fun other channel found since => ?_, fun room atRoom other channel found since => ?_⟩
  · obtain ⟨room, atRoom⟩ := initE2EERoom_onRecord roomId s.coordinator now
    exact ⟨room, (congrArg (fun state => state.rooms.lookup roomId) coordinator).trans atRoom⟩
  · exact others.serials other channel n (bystander (by rintro same; rw [same] at has; cases has) found) has
  · exact others.current room atRoom other channel (bystander (by rintro same; rw [same] at has; cases has) found) has
  · have old : (s.moveTo roomId (initE2EERoom now roomId s.coordinator)).channels.lookup other = some channel := by
      rw [put_lookup] at found
      split at found
      · cases found; cases since
      · exact found
    exact others.subscribed other channel old since
  · have old : (s.moveTo roomId (initE2EERoom now roomId s.coordinator)).channels.lookup other = some channel := by
      rw [put_lookup] at found
      split at found
      · cases found; cases since
      · exact found
    rcases others.informed room atRoom other channel old since with heard | ⟨busyId, busy, atBusy, latest, owed⟩
    · exact .inl heard
    · have fresh : busyId ≠ id := by
        rintro rfl
        have absent : s.channels.lookup busyId = none := AList.lookup_eq_none.mpr ‹_›
        obtain ⟨before, found, -⟩ := moveTo_lookup atBusy
        rw [absent] at found
        cases found
      exact .inr ⟨busyId, busy, by rw [put_lookup, if_neg fresh]; exact atBusy, latest, owed⟩

theorem subscribe (sound : s.Sound roomId) {id : Nat} (taken : s.subscribe id = some after) :
    after.Sound roomId := by
  unfold RoomChannels.subscribe at taken
  split at taken
  next channel atId =>
    split at taken
    next joining =>
      cases taken
      refine sound.put atId (fun _ => rfl) (by simp [Task.serial?]) (by simp [Task.serial?]) ?_
      simp [joining, Task.serial?]
    · cases taken
  · cases taken

theorem fetchKeys (sound : s.Sound roomId) {id : Nat} (taken : s.fetchKeys roomId id = some after) :
    after.Sound roomId := by
  unfold RoomChannels.fetchKeys at taken
  split at taken
  next channel atId =>
    split at taken
    next serial epoch peers busy =>
      cases taken
      refine sound.put atId (fun _ => rfl) (fun n has => busy ▸ has) (fun room atRoom _ current => ?_) ?_
      · rw [busy] at current
        exact ⟨current, publicKeySet_eq atRoom⟩
      · rw [busy]
        exact fun latest member _ _ _ _ => ⟨latest, trivial⟩
    · cases taken
  · cases taken

theorem broadcast (sound : s.Sound roomId) {id : Nat} (taken : s.broadcast id = some after) :
    after.Sound roomId := by
  unfold RoomChannels.broadcast at taken
  split at taken
  next channel atId =>
    split at taken
    next serial payload busy =>
      cases taken
      have announced : ∃ listener rest, s.subscribers = listener :: rest := by
        refine List.exists_cons_of_ne_nil (List.ne_nil_of_mem (a := id) ?_)
        refine List.mem_map.mpr ⟨⟨id, channel⟩, List.mem_filter.mpr ⟨AList.mem_lookup_iff.mp atId, ?_⟩, rfl⟩
        simp only [busy, Task.subscribed]
      obtain ⟨listener, rest, audience⟩ := announced
      have task : Task.announce serial payload s.subscribers = .announcing serial payload s.subscribers := by
        rw [audience]; rfl
      rw [task]
      refine sound.put atId (fun _ => rfl) (fun n has => busy ▸ has) (fun room atRoom _ current => ?_) ?_
      · rw [busy] at current
        exact current
      rw [busy]
      refine fun latest member other atOther listening _ => ⟨latest, ?_⟩
      exact List.mem_map.mpr ⟨⟨member, other⟩, List.mem_filter.mpr ⟨AList.mem_lookup_iff.mp atOther, listening⟩, rfl⟩
    · cases taken
  · cases taken

theorem deliver (sound : s.Sound roomId) {now id member : Nat} (ordered : s.Ordered (now, .deliver id member))
    (taken : s.deliver id member = some after) : after.Sound roomId := by
  unfold RoomChannels.deliver at taken
  split at taken
  swap
  · cases taken
  next channel atId =>
  split at taken
  swap
  · cases taken
  next serial payload audience busy =>
  split at taken
  swap
  · cases taken
  next listening =>
  cases taken
  have mapped := deliver_lookup member serial payload
    (.announce serial payload (audience.erase member)) atId
  have known : channel.task.serial? = some serial := by rw [busy]; rfl
  have describes {room : Room PubKey Blob} (atRoom : s.coordinator.rooms.lookup roomId = some room)
      (latest : serial = s.served) : payload.Describes room := by
    have current := sound.current room atRoom id channel atId (by rw [known, latest])
    rwa [busy] at current
  have same : ((s.put id { channel with task := .announce serial payload (audience.erase member) }).hear member serial
      payload).coordinator = s.coordinator ∧
      ((s.put id { channel with task := .announce serial payload (audience.erase member) }).hear member serial
        payload).served = s.served := by
    unfold hear
    split <;> exact ⟨rfl, rfl⟩
  generalize (s.put id { channel with task := .announce serial payload (audience.erase member) }).hear member serial
    payload = after at mapped same ⊢
  have goesOn {n : Nat} (has : (Task.announce serial payload (audience.erase member)).serial? = some n) :
      n = serial ∧ Task.announce serial payload (audience.erase member) =
        .announcing serial payload (audience.erase member) := by
    unfold Task.announce at has ⊢
    split at has
    · cases has
    · cases has; exact ⟨rfl, rfl⟩
  refine ⟨fun _ => ?_, fun other next n found has => ?_, fun room atRoom other next found has => ?_,
    fun other next found since => ?_, fun room atRoom other next found since => ?_⟩
  · rw [same.1]
    exact sound.onRecord (lookup_nonempty atId)
  all_goals
    rw [mapped] at found
    obtain ⟨old, atOther, rfl⟩ := Option.map_eq_some_iff.mp found
  · rw [same.2]
    by_cases here : other = id
    · simp only [if_pos here] at has
      obtain ⟨rfl, -⟩ := goesOn has
      exact sound.serials id channel n atId known
    · simp only [if_neg here] at has
      exact sound.serials other old n atOther has
  · rw [same.1] at atRoom
    rw [same.2] at has
    by_cases here : other = id
    · simp only [if_pos here] at has ⊢
      obtain ⟨latest, task⟩ := goesOn has
      rw [task]
      exact describes atRoom latest.symm
    · simp only [if_neg here] at has ⊢
      exact sound.current room atRoom other old atOther has
  · by_cases here : other = id
    · simp only [if_pos here]
      unfold Task.announce
      split <;> rfl
    · simp only [if_neg here]
      exact sound.subscribed other old atOther since
  · rw [same.1] at atRoom
    -- whoever is not sent to now is still in the audience
    have left (unreached : other ≠ member) (listens : other ∈ audience) :
        Task.announce serial payload (audience.erase member) = .announcing serial payload (audience.erase member) ∧
          other ∈ audience.erase member := by
      have remains := (List.mem_erase_of_ne unreached).mpr listens
      refine ⟨?_, remains⟩
      unfold Task.announce
      split
      next empty => rw [empty] at remains; cases remains
      next => rfl
    rcases sound.informed room atRoom other old atOther since with ⟨known', heard, fits⟩ | pending
    · by_cases reached : other = member
      · subst reached
        have earlier := ordered channel atId serial known old atOther (s.served, known') heard
        have bound := sound.serials id channel serial atId known
        have absurdity : s.served < serial := earlier
        omega
      · exact .inl ⟨known', by simp only [if_neg reached, same.2, heard], fits⟩
    · obtain ⟨busyId, holder, atHolder, latest, owed⟩ := pending
      by_cases here : busyId = id
      · subst here
        rw [atId] at atHolder
        cases atHolder
        rw [known] at latest
        rw [busy] at owed
        by_cases reached : other = member
        · exact .inl ⟨payload, by simp only [if_pos reached, same.2, Option.some.inj latest],
            describes atRoom (Option.some.inj latest)⟩
        · obtain ⟨task, remains⟩ := left reached owed
          refine .inr ⟨busyId, _, by rw [mapped, atId]; rfl, ?_, ?_⟩
          · simp only [if_true, task, Task.serial?, same.2, latest]
          · simp only [if_true, task, Task.Owes]
            exact remains
      · refine .inr ⟨busyId, _, by rw [mapped, atHolder]; rfl, ?_, ?_⟩
        · simp only [if_neg here, latest, same.2]
        · simp only [if_neg here]
          exact owed

end Sound

/-- A registration that is served counts, and is in hand from then on. -/
theorem registerKey_served [ByteSize PubKey] [DecidableEq PubKey] {config : ProofConfig PubKey} {now id : Nat}
    {publicKey : PubKey} {identityKey signature : Option (List UInt8)}
    (taken : s.registerKey config roomId now id publicKey identityKey signature = some after) :
    after = s ∨ ∃ channel room peers, s.channels.lookup id = some channel ∧ channel.task = .idle ∧
      after.coordinator.rooms.lookup roomId = some room ∧ after.served = s.served + 1 ∧
      after.channels = ((s.put id { channel with task := .registered (s.served + 1) room.epoch peers }).moveTo roomId
        after.coordinator).channels := by
  unfold RoomChannels.registerKey at taken
  split at taken
  swap
  · cases taken
  next channel atId =>
  split at taken
  swap
  · cases taken
  next idle =>
  simp only at taken
  split at taken
  · cases taken; exact .inl rfl
  next epoch peers replied =>
  cases taken
  obtain ⟨room, atRoom, rfl⟩ := registerPeerKey_epoch replied
  obtain ⟨coordinator, served⟩ := moveTo_coordinator
    (({ s with served := s.served + 1 } : RoomChannels PubKey Blob).put id
      { channel with task := .registered (s.served + 1) room.epoch peers }) roomId
    (registerPeerKey config now roomId channel.userId publicKey identityKey signature s.coordinator).state
  refine .inr ⟨channel, room, peers, atId, idle, by rw [coordinator]; exact atRoom, by rw [served]; rfl, ?_⟩
  rw [coordinator]
  refine moveTo_channels ?_ ?_ _ <;> rfl

namespace Sound

theorem registerKey [ByteSize PubKey] [DecidableEq PubKey] {config : ProofConfig PubKey} (sound : s.Sound roomId)
    {now id : Nat} {publicKey : PubKey} {identityKey signature : Option (List UInt8)}
    (taken : s.registerKey config roomId now id publicKey identityKey signature = some after) :
    after.Sound roomId := by
  rcases registerKey_served taken with rfl | ⟨channel, room, peers, atId, idle, atRoom, served, channels⟩
  · exact sound
  have origin {other : Nat} {next : Channel PubKey} (found : after.channels.lookup other = some next) :
      ∃ old, s.channels.lookup other = some old ∧
        next.task = (if other = id then .registered (s.served + 1) room.epoch peers else old.task) ∧
        (next.sinceEpoch = true → old.task.subscribed = true) := by
    rw [channels] at found
    obtain ⟨before, atBefore, shape, since⟩ := moveTo_lookup found
    rw [put_lookup_map _ atId] at atBefore
    obtain ⟨old, atOther, rfl⟩ := Option.map_eq_some_iff.mp atBefore
    refine ⟨old, atOther, by rw [shape]; split <;> rfl, fun flagged => ?_⟩
    by_cases here : other = id
    · subst here
      rw [atId] at atOther
      cases atOther
      rw [idle]
      rfl
    · rw [if_neg here] at since
      exact (since flagged).elim (sound.subscribed other old atOther) fun sub => sub
  have held : ∃ busy, after.channels.lookup id = some busy ∧
      busy.task = .registered (s.served + 1) room.epoch peers := by
    have before := put_lookup_map { channel with task := .registered (s.served + 1) room.epoch peers } atId id
    rw [atId, Option.map_some, if_pos rfl] at before
    obtain ⟨since, found⟩ := moveTo_of_lookup roomId after.coordinator before
    exact ⟨_, channels ▸ found, rfl⟩
  refine ⟨fun _ => ⟨room, atRoom⟩, fun other next n found has => ?_, fun room' atRoom' other next found has => ?_,
    fun other next found since => ?_, fun _ _ _ _ _ _ => ?_⟩
  · obtain ⟨old, atOther, task, -⟩ := origin found
    rw [task] at has
    split at has
    · cases has; exact le_of_eq served.symm
    · have bound := sound.serials other old n atOther has
      omega
  · obtain ⟨old, atOther, task, -⟩ := origin found
    rw [atRoom] at atRoom'
    cases atRoom'
    rw [task] at has ⊢
    by_cases here : other = id
    · rw [if_pos here]
      rfl
    · rw [if_neg here] at has
      have bound := sound.serials other old _ atOther has
      omega
  · obtain ⟨old, atOther, task, subscribed⟩ := origin found
    rw [task]
    split
    · rfl
    · exact subscribed since
  · obtain ⟨busy, found, task⟩ := held
    exact .inr ⟨id, busy, found, by rw [task, served]; rfl, by rw [task]; trivial⟩

theorem publishSealed [ByteSize Blob] (sound : s.Sound roomId) {id epoch : Nat} {recipient : String} {blob : Blob}
    (taken : s.publishSealed roomId id recipient epoch blob = some after) : after.Sound roomId := by
  unfold RoomChannels.publishSealed at taken
  split at taken
  swap
  · cases taken
  next channel atId =>
  split at taken
  swap
  · cases taken
  cases taken
  obtain ⟨room, atRoom⟩ := sound.onRecord (lookup_nonempty atId)
  obtain ⟨stored, atStored, epochEq, peersEq⟩ := publishSealed_room channel.userId recipient epoch blob atRoom
  generalize (E2EE.publishSealed roomId channel.userId recipient epoch blob s.coordinator).state = moved at atStored ⊢
  have unmoved : s.moveTo roomId moved = { s with coordinator := moved } := by
    unfold moveTo
    rw [if_pos (by simp only [epochOf, atStored, atRoom, Option.map_some, epochEq])]
  have describes {payload : Announcement PubKey} (fits : payload.Describes room) : payload.Describes stored :=
    ⟨fits.1.trans epochEq.symm, fits.2.trans (by rw [peersEq])⟩
  rw [unmoved]
  refine ⟨fun _ => ⟨stored, atStored⟩, sound.serials, fun other atOther => ?_, sound.subscribed,
    fun other atOther => ?_⟩
  all_goals
    rw [atStored] at atOther
    cases atOther
  · intro otherId busy found has
    have current := sound.current room atRoom otherId busy found has
    cases task : busy.task
    all_goals rw [task] at current
    case registered => exact current.trans epochEq.symm
    case prepared => exact describes current
    case announcing => exact describes current
    all_goals trivial
  · intro otherId listener found since
    rcases sound.informed room atRoom otherId listener found since with ⟨payload, heard, fits⟩ | pending
    · exact .inl ⟨payload, heard, describes fits⟩
    · exact .inr pending

theorem rotate (sound : s.Sound roomId) {now : Nat} (ordered : s.Ordered (now, .rotate)) :
    (s.rotate roomId now).Sound roomId := by
  have unsubscribed {id : Nat} {channel : Channel PubKey} (atId : s.channels.lookup id = some channel) :
      channel.task = .joining := by
    by_contra busy
    have listens : id ∈ s.subscribers := by
      refine List.mem_map.mpr ⟨⟨id, channel⟩, List.mem_filter.mpr ⟨AList.mem_lookup_iff.mp atId, ?_⟩, rfl⟩
      cases task : channel.task
      case joining => exact absurd task busy
      all_goals rfl
    rw [show s.subscribers = [] from ordered] at listens
    cases listens
  have joining {id : Nat} {channel : Channel PubKey}
      (found : (s.rotate roomId now).channels.lookup id = some channel) : channel.task = .joining := by
    obtain ⟨old, atId, shape, -⟩ := moveTo_lookup found
    rw [shape]
    exact (unsubscribed atId : old.task = .joining)
  refine ⟨fun present => ?_, fun id channel serial found has => ?_, fun room _ id channel found _ => ?_,
    fun id channel found since => ?_, fun room _ id channel found since => ?_⟩
  · have somebody : s.channels ≠ ∅ := fun nobody => present (moveTo_empty nobody)
    obtain ⟨room, atRoom⟩ := sound.onRecord somebody
    refine ⟨E2EE.rotate now room, ?_⟩
    rw [RoomChannels.rotate, (moveTo_coordinator ..).1]
    simp only [requestRotation, fetchRoom, atRoom, putRoom_lookup, if_true]
  · rw [joining found] at has; cases has
  · rw [joining found]; trivial
  all_goals
    obtain ⟨old, atId, -, flagged⟩ := moveTo_lookup found
    rcases flagged since with before | sub
    · have sub := sound.subscribed id old atId before
      rw [unsubscribed atId] at sub
      cases sub
    · rw [unsubscribed atId] at sub
      cases sub

theorem terminate {now id : Nat} (ordered : s.Ordered (now, .terminate id))
    (taken : s.terminate roomId now id = some after) : after.Sound roomId := by
  unfold RoomChannels.terminate at taken
  split at taken
  swap
  · cases taken
  next channel atId =>
  split at taken
  swap
  · cases taken
  cases taken
  refine .of_empty (moveTo_empty (FiniteMap.eq_empty_of_lookup fun other => ?_))
  rw [FiniteMap.lookup_erase_if]
  split
  · rfl
  next different =>
    refine AList.lookup_eq_none.mpr fun present => ?_
    exact different (ordered other (AList.mem_keys.mp present))

theorem step [ByteSize PubKey] [DecidableEq PubKey] [ByteSize Blob] {config : ProofConfig PubKey} (sound : s.Sound roomId)
    {label : Nat × ChannelEvent PubKey Blob} (ordered : s.Ordered label) (taken : ChannelStep config roomId s label after) :
    after.Sound roomId := by
  obtain ⟨now, event⟩ := label
  cases event with
  | join id userId => exact sound.join taken
  | subscribe id => exact sound.subscribe taken
  | registerKey id publicKey identityKey signature => exact sound.registerKey taken
  | fetchKeys id => exact sound.fetchKeys taken
  | broadcast id => exact sound.broadcast taken
  | deliver id member => exact sound.deliver ordered taken
  | publishSealed id recipient epoch blob => exact sound.publishSealed taken
  | rotate => cases taken; exact sound.rotate ordered
  | terminate id => exact terminate ordered taken

end Sound
end RoomChannels

/-- While nobody leaves others behind, no rotation is requested over their heads and no
broadcast is overtaken, every channel has heard what the room is at. -/
theorem announced_of_ordered [ByteSize PubKey] [DecidableEq PubKey] [ByteSize Blob] {config : ProofConfig PubKey} {roomId : String}
    {labels : List (Nat × ChannelEvent PubKey Blob)} {last : RoomChannels PubKey Blob}
    (run : Run (Guarded RoomChannels.Ordered (ChannelStep config roomId)) .empty labels last) :
    last.Announced roomId := by
  have sound : last.Sound roomId := run.invariant (.of_empty rfl) fun sound taken => sound.step taken.1 taken.2
  exact sound.announced

/-- The channel joins, registers a key and announces the key set to these channels. -/
def arrival (id : Nat) (userId : String) (key : UInt8) (listeners : List Nat) :
    List (Nat × ChannelEvent (List UInt8) (List UInt8)) :=
  [(0, .join id userId), (0, .subscribe id), (0, .registerKey id (List.replicate 32 key) none none),
   (0, .fetchKeys id), (0, .broadcast id)] ++ listeners.map fun member => (0, .deliver id member)

/-- Alice and Bob meet, and Bob leaves. -/
def departure : List (Nat × ChannelEvent (List UInt8) (List UInt8)) :=
  arrival 1 "alice" 1 [1] ++ arrival 2 "bob" 2 [2, 1] ++ [(0, .terminate 2)]

/-- Alice is left at epoch 0 with Bob in her key set. -/
theorem departure_unannounced : ¬ ∀ labels (last : RoomChannels (List UInt8) (List UInt8)),
    Run (ChannelStep unproven "r") .empty labels last → last.Announced "r" := by
  intro always
  have announced := always departure _ (play_run (by rfl))
  obtain ⟨serial, payload, heard, epoch, -⟩ := announced (RoomChannels.quiescent_of_entries (by decide)) _ rfl 1 _ rfl rfl
  cases heard
  cases epoch

/-- Alice has published to Bob by the time Carol comes, so Carol's key begins an epoch. -/
def thirdArrival : List (Nat × ChannelEvent (List UInt8) (List UInt8)) :=
  arrival 1 "alice" 1 [1] ++ arrival 2 "bob" 2 [2, 1] ++ [(0, .publishSealed 1 "bob" 0 [7])] ++
    arrival 3 "carol" 3 [3, 1, 2]

theorem announced_of_ordered_arrival :
    ∃ last ∈ play (fun s : RoomChannels (List UInt8) (List UInt8) => fun label =>
        if s.Ordered label then s.step unproven "r" label else none) thirdArrival .empty,
      (last.channels.lookup 1).map Channel.sinceEpoch = some true ∧ last.Announced "r" := by
  obtain ⟨last, played⟩ : ∃ last, last ∈ play (fun s : RoomChannels (List UInt8) (List UInt8) => fun label =>
      if s.Ordered label then s.step unproven "r" label else none) thirdArrival .empty :=
    Option.isSome_iff_exists.mp (by rfl)
  exact ⟨last, played, by cases played; rfl, announced_of_ordered (play_run_guarded played)⟩

end Burble.E2EE
