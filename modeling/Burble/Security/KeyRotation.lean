import Burble.Runs
import Burble.E2EE.Coordinator

namespace Burble.Security

open E2EE (ProofConfig Call)

/-- The clocks a rotation reads: the coordinator's, the time it took and the wall clock. -/
structure Clock where
  now : Nat
  elapsedUs : Nat
  utcNow : Nat
  deriving DecidableEq

/-- Per-room rotation tracking state. -/
structure RoomRotation where
  roomId : String
  rotationCount : Nat
  lastRotationAt : Option Nat
  lastRotationLatencyUs : Option Nat
  active : Bool
  deriving DecidableEq

def RoomRotation.new (roomId : String) : RoomRotation := ⟨roomId, 0, none, none, true⟩

abbrev Rooms := FiniteMap String RoomRotation

/-- Rotations and errors. -/
structure Delta where
  rotations : Nat
  errors : Nat
  deriving DecidableEq

/-- The scheduler process, enabled. -/
structure KeyRotation where
  rooms : Rooms
  totalRotations : Nat
  totalErrors : Nat

inductive Message
  | trackRoom (roomId : String)
  | untrackRoom (roomId : String)
  | roomCreated (roomId : String)
  | roomDestroyed (roomId : String)
  | e2eeRoomInit (roomId : String)
  | e2eeRoomDestroy (roomId : String)
  | other
  deriving DecidableEq

namespace KeyRotation

def track (rotation : KeyRotation) (roomId : String) : KeyRotation :=
  if roomId ∈ rotation.rooms then rotation
  else { rotation with rooms := rotation.rooms.insert roomId (.new roomId) }

def untrack (rotation : KeyRotation) (roomId : String) : KeyRotation :=
  { rotation with rooms := rotation.rooms.erase roomId }

def handle (rotation : KeyRotation) : Message → KeyRotation
  | .trackRoom roomId | .roomCreated roomId | .e2eeRoomInit roomId => rotation.track roomId
  | .untrackRoom roomId | .e2eeRoomDestroy roomId => rotation.untrack roomId
  | .roomDestroyed roomId => if roomId ∈ rotation.rooms then rotation.untrack roomId else rotation
  | .other => rotation

def count (rotation : KeyRotation) (delta : Delta) : KeyRotation :=
  { rotation with
    totalRotations := rotation.totalRotations + delta.rotations
    totalErrors := rotation.totalErrors + delta.errors }

end KeyRotation

section Rotation
variable {PubKey Blob : Type}

/-- What a rotation of one room returns, the room state it makes and what it counts. -/
structure Performed (PubKey Blob : Type) where
  result : Except E2EE.Error Nat
  room : RoomRotation
  delta : Delta
  coordinator : E2EE.State PubKey Blob

def performRotation (clock : Clock) (roomId : String) (room : RoomRotation) (coordinator : E2EE.State PubKey Blob) :
    Performed PubKey Blob :=
  let outcome := E2EE.requestRotation clock.now roomId coordinator
  match outcome.reply with
  | .ok epoch =>
    ⟨.ok epoch,
      { room with
        rotationCount := room.rotationCount + 1
        lastRotationAt := some clock.utcNow
        lastRotationLatencyUs := some clock.elapsedUs },
      ⟨1, 0⟩, outcome.state⟩
  | .error .noRoom => ⟨.error .noRoom, { room with active := false }, ⟨0, 1⟩, outcome.state⟩
  | .error reason => ⟨.error reason, room, ⟨0, 1⟩, outcome.state⟩

/-- A sweep over the tracked rooms: those it has not come to, and the accumulator. -/
structure Sweep where
  pending : List (String × RoomRotation)
  rooms : Rooms
  delta : Delta

/-- The scheduler and the coordinator, with the rooms that have had their turn in the last sweep
and those that a rotation has found missing since they came under tracking. -/
structure World (PubKey Blob : Type) where
  rotation : KeyRotation
  sweep : Option Sweep
  coordinator : E2EE.State PubKey Blob
  turns : List String
  missed : List String

inductive Label (PubKey Blob : Type)
  | deliver (message : Message)
  | rotateNow (roomId : String) (clock : Clock)
  | rotateTick
  | turn (clock : Clock)
  | sweepDone
  | call (call : Call PubKey Blob) (now : Nat)

namespace World

def init : World PubKey Blob := ⟨⟨∅, 0, 0⟩, none, E2EE.init, [], []⟩

/-- A room that is no longer tracked starts afresh. -/
def forget (missed : List String) (rooms : Rooms) : List String := missed.filter fun roomId => decide (roomId ∈ rooms)

def note (missed : List String) (roomId : String) (result : Except E2EE.Error Nat) : List String :=
  match result with
  | .error .noRoom => roomId :: missed
  | _ => missed

/-- `rotate_now`: active or not. -/
def rotateNow (w : World PubKey Blob) (roomId : String) (clock : Clock) : World PubKey Blob :=
  match w.rotation.rooms.lookup roomId with
  | none => w
  | some room =>
    let performed := performRotation clock roomId room w.coordinator
    { w with
      rotation := { w.rotation with rooms := w.rotation.rooms.insert roomId performed.room }.count performed.delta
      coordinator := performed.coordinator
      missed := note w.missed roomId performed.result }

/-- One round of `rotate_all_rooms`. -/
def turn (w : World PubKey Blob) (sweep : Sweep) (roomId : String) (room : RoomRotation)
    (rest : List (String × RoomRotation)) (clock : Clock) : World PubKey Blob :=
  if room.active then
    let performed := performRotation clock roomId room w.coordinator
    { w with
      sweep := some
        { pending := rest
          rooms := sweep.rooms.insert roomId performed.room
          delta := ⟨sweep.delta.rotations + performed.delta.rotations, sweep.delta.errors + performed.delta.errors⟩ }
      coordinator := performed.coordinator
      turns := w.turns ++ [roomId]
      missed := note w.missed roomId performed.result }
  else
    { w with
      sweep := some { sweep with pending := rest, rooms := sweep.rooms.insert roomId room }
      turns := w.turns ++ [roomId] }

variable [ByteSize PubKey] [DecidableEq PubKey] [ByteSize Blob]

/-- The scheduler takes its messages one at a time; the coordinator serves other calls at any time,
also between two rooms of a sweep. -/
def next (config : ProofConfig PubKey) (w : World PubKey Blob) : Label PubKey Blob → Option (World PubKey Blob)
  | .deliver message =>
    let rotation := w.rotation.handle message
    if w.sweep.isNone then some { w with rotation, missed := forget w.missed rotation.rooms } else none
  | .rotateNow roomId clock => if w.sweep.isNone then some (w.rotateNow roomId clock) else none
  | .rotateTick =>
    if w.sweep.isNone then some { w with sweep := some ⟨w.rotation.rooms.toList, ∅, ⟨0, 0⟩⟩, turns := [] } else none
  | .turn clock =>
    match w.sweep with
    | some sweep =>
      match sweep.pending with
      | (roomId, room) :: rest => some (w.turn sweep roomId room rest clock)
      | [] => none
    | none => none
  | .sweepDone =>
    match w.sweep with
    | some sweep =>
      if sweep.pending = [] then
        some { w with rotation := { w.rotation with rooms := sweep.rooms }.count sweep.delta, sweep := none }
      else none
    | none => none
  | .call call now => some { w with coordinator := (E2EE.handleCall config now call w.coordinator).state }

def Step (config : ProofConfig PubKey) (w : World PubKey Blob) (label : Label PubKey Blob) (after : World PubKey Blob) : Prop :=
  w.next config label = some after

end World
end Rotation
end Burble.Security

namespace Burble.Security

open E2EE (ProofConfig)

variable {PubKey Blob : Type}

section Rotation
variable {clock : Clock} {roomId : String} {room : RoomRotation} {coordinator : E2EE.State PubKey Blob}

theorem performRotation_found {known : E2EE.Room PubKey Blob} (found : coordinator.rooms.lookup roomId = some known) :
    performRotation clock roomId room coordinator =
      ⟨.ok (known.epoch + 1),
        { room with
          rotationCount := room.rotationCount + 1
          lastRotationAt := some clock.utcNow
          lastRotationLatencyUs := some clock.elapsedUs },
        ⟨1, 0⟩, coordinator.putRoom roomId (E2EE.rotate clock.now known)⟩ := by
  simp only [performRotation, E2EE.requestRotation, E2EE.fetchRoom, found]

theorem performRotation_missing (missing : coordinator.rooms.lookup roomId = none) :
    performRotation clock roomId room coordinator =
      ⟨.error .noRoom, { room with active := false }, ⟨0, 1⟩, coordinator⟩ := by
  simp only [performRotation, E2EE.requestRotation, E2EE.fetchRoom, missing]

/-- The tracked rooms that are inactive are those that have been found missing. -/
def Consistent (missed : List String) (room : String × RoomRotation) : Prop :=
  room.2.active = false ↔ room.1 ∈ missed

theorem Consistent.congr {missed changed : List String} {room : String × RoomRotation}
    (consistent : Consistent missed room) (same : room.1 ∈ changed ↔ room.1 ∈ missed) : Consistent changed room :=
  consistent.trans same.symm

/-- A rotation leaves its room consistent, and the others as they are. -/
theorem Consistent.performed {missed : List String} (consistent : Consistent missed (roomId, room)) (clock : Clock)
    (coordinator : E2EE.State PubKey Blob) :
    let performed := performRotation clock roomId room coordinator
    Consistent (World.note missed roomId performed.result) (roomId, performed.room) ∧
      ∀ other, other ≠ roomId → (other ∈ World.note missed roomId performed.result ↔ other ∈ missed) := by
  cases found : coordinator.rooms.lookup roomId with
  | some known =>
    simp only [performRotation_found found]
    exact ⟨consistent, fun _ _ => Iff.rfl⟩
  | none =>
    simp only [performRotation_missing found]
    exact ⟨iff_of_true rfl List.mem_cons_self, fun other different => by simp [World.note, different]⟩

end Rotation

theorem KeyRotation.handle_lookup {rotation : KeyRotation} {message : Message} {roomId : String} {room : RoomRotation}
    (found : (rotation.handle message).rooms.lookup roomId = some room) :
    rotation.rooms.lookup roomId = some room ∨ (roomId ∉ rotation.rooms ∧ room.active = true) := by
  have tracked (target : String) (found : (rotation.track target).rooms.lookup roomId = some room) :
      rotation.rooms.lookup roomId = some room ∨ (roomId ∉ rotation.rooms ∧ room.active = true) := by
    rw [KeyRotation.track] at found
    by_cases known : target ∈ rotation.rooms
    · rw [if_pos known] at found
      exact .inl found
    · simp only [if_neg known, FiniteMap.lookup_insert_if] at found
      split at found
      next same =>
        cases found
        exact .inr ⟨same ▸ known, rfl⟩
      next => exact .inl found
  have untracked (target : String) (found : (rotation.untrack target).rooms.lookup roomId = some room) :
      rotation.rooms.lookup roomId = some room := by
    simp only [KeyRotation.untrack, FiniteMap.lookup_erase_if] at found
    split at found
    · cases found
    · exact found
  cases message with
  | trackRoom target => exact tracked target found
  | roomCreated target => exact tracked target found
  | e2eeRoomInit target => exact tracked target found
  | untrackRoom target => exact .inl (untracked target found)
  | e2eeRoomDestroy target => exact .inl (untracked target found)
  | roomDestroyed target =>
    simp only [KeyRotation.handle] at found
    split at found
    · exact .inl (untracked target found)
    · exact .inl found
  | other => exact .inl found

namespace World

/-- The room a sweep comes to next. -/
def atTurn (w : World PubKey Blob) : Option String := w.sweep.bind fun sweep => sweep.pending.head?.map Prod.fst

/-- What is asked of a tick: each tracked room has one turn, and a room that exists in the coordinator
at its turn is advanced by one epoch. -/
def Advances (w : World PubKey Blob) : Label PubKey Blob → World PubKey Blob → Prop
  | .turn _, after => ∀ roomId ∈ w.atTurn, ∀ known, w.coordinator.rooms.lookup roomId = some known →
      ∃ later, after.coordinator.rooms.lookup roomId = some later ∧ later.epoch = known.epoch + 1
  | .sweepDone, _ => w.turns = w.rotation.rooms.keys
  | _, _ => True

/-- A room that exists at its turn has not been found missing by a rotation since it came under tracking. -/
def NeverMissed (w : World PubKey Blob) : Label PubKey Blob → Prop
  | .turn _ => ∀ roomId ∈ w.atTurn, roomId ∈ w.coordinator.rooms → roomId ∉ w.missed
  | _ => True

/-- The flags are right, before, in and after a sweep, and a sweep has what is tracked before it. -/
structure Sound (w : World PubKey Blob) : Prop where
  missed : ∀ roomId ∈ w.missed, roomId ∈ w.rotation.rooms
  tracked : w.sweep = none → ∀ room ∈ w.rotation.rooms.toList, Consistent w.missed room
  pending : ∀ sweep ∈ w.sweep, ∀ room ∈ sweep.pending, Consistent w.missed room
  visited : ∀ sweep ∈ w.sweep, ∀ room ∈ sweep.rooms.toList, Consistent w.missed room
  turns : ∀ sweep ∈ w.sweep, w.turns ++ sweep.pending.map Prod.fst = w.rotation.rooms.keys
  stored : ∀ sweep ∈ w.sweep, ∀ roomId ∈ w.turns, roomId ∈ sweep.rooms

theorem Sound.start : (init : World PubKey Blob).Sound where
  missed _ member := absurd member List.not_mem_nil
  tracked _ _ member := absurd member List.not_mem_nil
  pending _ there := by cases there
  visited _ there := by cases there
  turns _ there := by cases there
  stored _ there := by cases there

variable {w after : World PubKey Blob}

theorem Sound.deliver (sound : w.Sound) (idle : w.sweep = none) (message : Message) :
    { w with
      rotation := w.rotation.handle message
      missed := forget w.missed (w.rotation.handle message).rooms : World PubKey Blob }.Sound := by
  have kept (roomId : String) (there : roomId ∈ (w.rotation.handle message).rooms) :
      roomId ∈ forget w.missed (w.rotation.handle message).rooms ↔ roomId ∈ w.missed := by
    simp [forget, there]
  constructor
  · intro roomId member
    exact of_decide_eq_true (List.mem_filter.mp member).2
  · rintro - ⟨roomId, room⟩ member
    have found := FiniteMap.mem_toList.mp member
    have there : roomId ∈ (w.rotation.handle message).rooms := AList.lookup_isSome.mp (by rw [found]; rfl)
    refine Consistent.congr ?_ (kept roomId there)
    rcases KeyRotation.handle_lookup found with before | ⟨isNew, active⟩
    · exact sound.tracked idle _ (FiniteMap.mem_toList.mpr before)
    · exact iff_of_false (by simp [active]) fun among => isNew (sound.missed roomId among)
  all_goals
    intro sweep there
    cases idle.symm.trans there

theorem note_subset {missed : List String} {rooms : Rooms} {roomId : String} {result : Except E2EE.Error Nat}
    (within : ∀ other ∈ missed, other ∈ rooms) (tracked : roomId ∈ rooms) :
    ∀ other ∈ note missed roomId result, other ∈ rooms := by
  intro other member
  simp only [note] at member
  split at member
  · rcases List.mem_cons.mp member with rfl | before
    · exact tracked
    · exact within other before
  · exact within other member

/-- Where the entry of a room is replaced by a consistent one, and nothing is said of the others. -/
theorem consistent_insert {missed changed : List String} {rooms : Rooms} {roomId : String} {room : RoomRotation}
    (consistent : ∀ entry ∈ rooms.toList, Consistent missed entry) (here : Consistent changed (roomId, room))
    (others : ∀ other, other ≠ roomId → (other ∈ changed ↔ other ∈ missed)) :
    ∀ entry ∈ FiniteMap.toList (rooms.insert roomId room), Consistent changed entry := by
  rintro ⟨other, entry⟩ member
  have found := FiniteMap.mem_toList.mp member
  rw [FiniteMap.lookup_insert_if] at found
  split at found
  next same =>
    cases found
    exact same ▸ here
  next different =>
    exact (consistent _ (FiniteMap.mem_toList.mpr found)).congr (others other different)

theorem Sound.rotateNow (sound : w.Sound) (idle : w.sweep = none) (roomId : String) (clock : Clock) :
    (w.rotateNow roomId clock).Sound := by
  unfold World.rotateNow
  cases found : w.rotation.rooms.lookup roomId with
  | none => exact sound
  | some room =>
    have there : roomId ∈ w.rotation.rooms := AList.lookup_isSome.mp (by rw [found]; rfl)
    have before := sound.tracked idle (roomId, room) (FiniteMap.mem_toList.mpr found)
    have performed := before.performed clock w.coordinator
    constructor
    · intro other member
      exact (AList.mem_insert _).mpr (.inr (note_subset sound.missed there other member))
    · intro _
      exact consistent_insert (sound.tracked idle) performed.1 performed.2
    all_goals
      intro sweep there
      cases idle.symm.trans there

theorem Sound.rotateTick (sound : w.Sound) (idle : w.sweep = none) :
    { w with sweep := some ⟨w.rotation.rooms.toList, ∅, ⟨0, 0⟩⟩, turns := [] : World PubKey Blob }.Sound := by
  constructor
  · exact sound.missed
  · rintro ⟨⟩
  · rintro _ ⟨⟩
    exact sound.tracked idle
  · rintro _ ⟨⟩ _ member
    cases member
  · rintro _ ⟨⟩
    simp [FiniteMap.toList, AList.keys, List.keys]
  · rintro _ ⟨⟩ _ member
    cases member

theorem atTurn_of_pending {sweep : Sweep} {roomId : String} {room : RoomRotation}
    {rest : List (String × RoomRotation)} (sweeping : w.sweep = some sweep) (pending : sweep.pending = (roomId, room) :: rest) :
    w.atTurn = some roomId := by
  rw [atTurn, sweeping, Option.bind_some, pending]
  rfl

/-- A turn keeps the flags right, and it advances a room that exists if and only if no rotation has
found the room missing before. -/
theorem Sound.turn (sound : w.Sound) {sweep : Sweep} {roomId : String} {room : RoomRotation}
    {rest : List (String × RoomRotation)} (sweeping : w.sweep = some sweep)
    (pending : sweep.pending = (roomId, room) :: rest) (clock : Clock) :
    (w.turn sweep roomId room rest clock).Sound ∧
      (w.NeverMissed (.turn clock) ↔ w.Advances (.turn clock) (w.turn sweep roomId room rest clock)) := by
  have isNext := atTurn_of_pending sweeping pending
  have turns := sound.turns sweep sweeping
  rw [pending, List.map_cons] at turns
  have consistent : Consistent w.missed (roomId, room) := sound.pending sweep sweeping _ (by rw [pending]; exact List.mem_cons_self)
  have tracked : roomId ∈ w.rotation.rooms := AList.mem_keys.mpr (by rw [← turns]; simp)
  have distinct : ∀ other ∈ rest, other.1 ≠ roomId := by
    have nodup : w.rotation.rooms.keys.Nodup := w.rotation.rooms.nodupKeys
    rw [← turns] at nodup
    have later := (List.nodup_cons.mp (List.nodup_append.mp nodup).2.1).1
    rintro other member rfl
    exact later (List.mem_map.mpr ⟨other, member, rfl⟩)
  have waiting (other : String × RoomRotation) (member : other ∈ rest) : Consistent w.missed other :=
    sound.pending sweep sweeping other (by rw [pending]; exact List.mem_cons_of_mem _ member)
  have ordered : (w.turns ++ [roomId]) ++ rest.map Prod.fst = w.rotation.rooms.keys := by
    rw [List.append_assoc, List.singleton_append]
    exact turns
  have stored (added : RoomRotation) : ∀ other ∈ w.turns ++ [roomId], other ∈ sweep.rooms.insert roomId added := by
    intro other member
    rcases List.mem_append.mp member with before | now
    · exact (AList.mem_insert _).mpr (.inr (sound.stored sweep sweeping other before))
    · exact (AList.mem_insert _).mpr (.inl (List.mem_singleton.mp now))
  unfold World.turn
  by_cases active : room.active = true
  · rw [if_pos active]
    have performed := consistent.performed clock w.coordinator
    refine ⟨⟨note_subset sound.missed tracked, fun idle => (by cases idle), ?_, ?_, ?_, ?_⟩, ?_⟩
    · rintro _ ⟨⟩ other member
      exact (waiting other member).congr (performed.2 other.1 (distinct other member))
    · rintro _ ⟨⟩
      exact consistent_insert (sound.visited sweep sweeping) performed.1 performed.2
    · rintro _ ⟨⟩
      exact ordered
    · rintro _ ⟨⟩
      exact stored _
    · have fresh : roomId ∉ w.missed := fun among => by
        have inactive := consistent.mpr among
        rw [active] at inactive
        cases inactive
      refine iff_of_true (fun other same _ => ?_) fun other same known found => ?_
      · cases isNext.symm.trans same
        exact fresh
      · cases isNext.symm.trans same
        rw [performRotation_found found]
        exact ⟨_, AList.lookup_insert _, rfl⟩
  · rw [if_neg active]
    refine ⟨⟨sound.missed, fun idle => (by cases idle), ?_, ?_, ?_, ?_⟩, ?_⟩
    · rintro _ ⟨⟩
      exact waiting
    · rintro _ ⟨⟩
      exact consistent_insert (sound.visited sweep sweeping) consistent fun _ _ => Iff.rfl
    · rintro _ ⟨⟩
      exact ordered
    · rintro _ ⟨⟩
      exact stored _
    · have missing : roomId ∈ w.missed := consistent.mp (by simpa using active)
      constructor
      · intro never other same known found
        cases isNext.symm.trans same
        exact absurd missing (never roomId isNext (AList.lookup_isSome.mp (by rw [found]; rfl)))
      · intro advances other same there
        cases isNext.symm.trans same
        obtain ⟨known, found⟩ := Option.isSome_iff_exists.mp (AList.lookup_isSome.mpr there)
        obtain ⟨later, same, advanced⟩ := advances roomId isNext known found
        cases found.symm.trans same
        omega

theorem Sound.sweepDone (sound : w.Sound) {sweep : Sweep} (sweeping : w.sweep = some sweep)
    (finished : sweep.pending = []) :
    { w with rotation := { w.rotation with rooms := sweep.rooms }.count sweep.delta, sweep := none : World PubKey Blob }.Sound ∧
      w.turns = w.rotation.rooms.keys := by
  have turns := sound.turns sweep sweeping
  rw [finished, List.map_nil, List.append_nil] at turns
  refine ⟨⟨fun roomId member => ?_, fun _ => sound.visited sweep sweeping, ?_, ?_, ?_, ?_⟩, turns⟩
  · refine sound.stored sweep sweeping roomId ?_
    rw [turns]
    exact AList.mem_keys.mp (sound.missed roomId member)
  all_goals
    intro other there
    cases there

variable [ByteSize PubKey] [DecidableEq PubKey] [ByteSize Blob] {config : ProofConfig PubKey} {label : Label PubKey Blob}

theorem Sound.next (sound : w.Sound) (taken : w.Step config label after) :
    after.Sound ∧ (w.NeverMissed label ↔ w.Advances label after) := by
  cases label with
  | deliver message =>
    obtain ⟨idle, ⟨⟩⟩ := Option.ite_none_right_eq_some.mp taken
    exact ⟨sound.deliver (Option.isNone_iff_eq_none.mp idle) message, Iff.rfl⟩
  | rotateNow roomId clock =>
    obtain ⟨idle, ⟨⟩⟩ := Option.ite_none_right_eq_some.mp taken
    exact ⟨sound.rotateNow (Option.isNone_iff_eq_none.mp idle) roomId clock, Iff.rfl⟩
  | rotateTick =>
    obtain ⟨idle, ⟨⟩⟩ := Option.ite_none_right_eq_some.mp taken
    exact ⟨sound.rotateTick (Option.isNone_iff_eq_none.mp idle), Iff.rfl⟩
  | turn clock =>
    simp only [Step, World.next] at taken
    split at taken
    next sweep sweeping =>
      split at taken
      next roomId room rest pending =>
        cases taken
        exact sound.turn sweeping pending clock
      next => cases taken
    next => cases taken
  | sweepDone =>
    simp only [Step, World.next] at taken
    split at taken
    next sweep sweeping =>
      obtain ⟨finished, ⟨⟩⟩ := Option.ite_none_right_eq_some.mp taken
      have done := sound.sweepDone sweeping finished
      exact ⟨done.1, iff_of_true trivial done.2⟩
    next => cases taken
  | call call now =>
    cases taken
    exact ⟨⟨sound.missed, sound.tracked, sound.pending, sound.visited, sound.turns, sound.stored⟩, Iff.rfl⟩

/-- Every tracked room that exists keeps rotating exactly as long as no rotation comes to an existing
room that an earlier one has found missing. -/
theorem advances_iff_neverMissed {labels : List (Label PubKey Blob)} {last : World PubKey Blob} :
    Run (fun before label after => before.Step config label after ∧ before.Advances label after) init labels last ↔
      Run (Guarded NeverMissed (Step config)) init labels last := by
  have both : Run (Guarded NeverMissed (Step config)) init labels last ↔
      Run (fun before label after => before.Step config label after ∧ before.Advances label after ∧ True) init labels last :=
    Run.guarded_iff Sound ⟨Sound.start, trivial⟩ (fun sound taken => (sound.next taken).1) fun sound _ taken => by
      rw [and_true]
      exact (sound.next taken).2
  simpa only [and_true] using both.symm

end World

section Sample
open World

/-- A room is tracked before it exists in the coordinator, and a tick comes between. -/
def lateRoom : List (Label (List UInt8) (List UInt8)) :=
  [.deliver (.roomCreated "r"), .rotateTick, .turn ⟨0, 0, 0⟩, .sweepDone, .call (.initRoom "r") 1,
    .deliver (.e2eeRoomInit "r"), .rotateTick]

theorem lateRoom_not_rotated : ∃ before after : World (List UInt8) (List UInt8),
    Run (Step E2EE.unproven) init lateRoom before ∧ before.Step E2EE.unproven (.turn ⟨2, 0, 2⟩) after ∧
      ¬ before.Advances (.turn ⟨2, 0, 2⟩) after := by
  refine ⟨_, _, play_run rfl, rfl, fun advances => ?_⟩
  obtain ⟨later, found, advanced⟩ := advances "r" rfl _ rfl
  cases found
  cases advanced

end Sample
end Burble.Security
