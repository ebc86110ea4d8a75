import Burble.E2EE.SealedStore

namespace Burble.E2EE
variable {PubKey Blob : Type}

/-- The epoch a reply states for the room it is about. -/
def announcedEpoch : Value PubKey Blob → Option Nat
  | .epoch epoch => some epoch
  | .registered epoch _ => some epoch
  | .keySet keys => some keys.epoch
  | .sealed entry => some entry.epoch
  | .status status => some status.epoch
  | .done => none

/-- Read backwards, a room on record was on record with an epoch no larger. -/
def Continues (roomId : String) (before after : State PubKey Blob) : Prop :=
  ∀ room, after.rooms.lookup roomId = some room →
    ∃ old, before.rooms.lookup roomId = some old ∧ old.epoch ≤ room.epoch

theorem Continues.refl (roomId : String) (state : State PubKey Blob) : Continues roomId state state :=
  fun room found => ⟨room, found, le_rfl⟩

theorem Continues.trans {roomId : String} {first second third : State PubKey Blob}
    (front : Continues roomId first second) (back : Continues roomId second third) :
    Continues roomId first third := by
  intro room found
  obtain ⟨middle, atMiddle, le⟩ := back room found
  obtain ⟨old, atOld, le'⟩ := front middle atMiddle
  exact ⟨old, atOld, le'.trans le⟩

variable [ByteSize PubKey] [DecidableEq PubKey] [ByteSize Blob]
variable (config : ProofConfig PubKey) (calls : List (Nat × Call PubKey Blob))

/-- The coordinator before the call at a position of the run. -/
def stateAt (position : Nat) : State PubKey Blob := serve config (calls.take position) init

/-- The call at a position of the run with the reply it got. -/
def exchangeAt (position : Nat) : Option (Call PubKey Blob × Except Error (Value PubKey Blob)) :=
  calls[position]?.map fun label =>
    (label.2, (handleCall config label.1 label.2 (stateAt config calls position)).reply)

/-- The reply at this position states this epoch for the room. -/
def AnnouncedAt (roomId : String) (position epoch : Nat) : Prop :=
  ∃ call value, exchangeAt config calls position = some (call, .ok value) ∧ call.room = roomId ∧
    announcedEpoch value = some epoch

/-- A peer of the room is removed at this position. -/
def RemovedAt (roomId : String) (position : Nat) : Prop :=
  ∃ peerId value, exchangeAt config calls position = some (.removePeer roomId peerId, .ok value)

/-- The room is put on record at this position. -/
def InitialisedAt (roomId : String) (position : Nat) : Prop :=
  ∃ value, exchangeAt config calls position = some (.initRoom roomId, .ok value)

/-- Epochs announced before a removal are below those announced by it or after it. -/
def EpochsIncrease (roomId : String) : Prop :=
  ∀ earlier removal later before after, earlier < removal → removal ≤ later →
    AnnouncedAt config calls roomId earlier before → RemovedAt config calls roomId removal →
    AnnouncedAt config calls roomId later after → before < after

variable {config calls}

theorem exchangeAt_some {position : Nat} {call : Call PubKey Blob} {reply : Except Error (Value PubKey Blob)}
    (found : exchangeAt config calls position = some (call, reply)) :
    ∃ now, calls[position]? = some (now, call) ∧
      reply = (handleCall config now call (stateAt config calls position)).reply ∧
      CoordStep config (stateAt config calls position) (now, call) (stateAt config calls (position + 1)) := by
  obtain ⟨⟨now, sent⟩, atPosition, same⟩ := Option.map_eq_some_iff.mp found
  cases same
  refine ⟨now, atPosition, rfl, ?_⟩
  simp [CoordStep, stateAt, serve, List.take_add_one, atPosition]

/-- Every position is one step of the coordinator or past the end of the run. -/
theorem stateAt_step (config : ProofConfig PubKey) (calls : List (Nat × Call PubKey Blob)) (position : Nat) :
    stateAt config calls (position + 1) = stateAt config calls position ∨
      ∃ label, calls[position]? = some label ∧
        CoordStep config (stateAt config calls position) label (stateAt config calls (position + 1)) := by
  cases found : calls[position]? with
  | none => exact Or.inl (by simp [stateAt, List.take_add_one, found])
  | some label =>
    exact Or.inr ⟨label, rfl, by simp [CoordStep, stateAt, serve, List.take_add_one, found]⟩

/-- Only a successful `initRoom` puts a room on record. -/
theorem CoordStep.continues_or_created {before after : State PubKey Blob} {now : Nat} {call : Call PubKey Blob}
    (taken : CoordStep config before (now, call) after) (roomId : String) :
    Continues roomId before after ∨
      call = .initRoom roomId ∧ (handleCall config now call before).reply = .ok (.epoch 0) := by
  have change := taken.roomChange roomId
  simp only at change
  generalize beforeEq : before.rooms.lookup roomId = start at change
  generalize afterEq : after.rooms.lookup roomId = final at change
  cases change with
  | same => exact Or.inl fun room found => ⟨room, by rw [beforeEq, ← afterEq, found], le_rfl⟩
  | created => exact Or.inr ⟨rfl, by simp [handleCall, initRoom, beforeEq, Outcome.wrap, Except.map]⟩
  | destroyed | emptied => exact Or.inl fun room found => by rw [afterEq] at found; cases found
  | gathered old | published old =>
    exact Or.inl fun room found => ⟨old, beforeEq, by rw [afterEq] at found; cases found; exact le_rfl⟩
  | rekeyed old | left old | rotated old =>
    exact Or.inl fun room found => ⟨old, beforeEq, by
      rw [afterEq] at found; cases found; exact Nat.le_succ old.epoch⟩

/-- With no room on record only `initRoom` succeeds. -/
theorem handleCall_absent {now : Nat} {call : Call PubKey Blob} {state : State PubKey Blob}
    {value : Value PubKey Blob} (absent : state.rooms.lookup call.room = none)
    (replied : (handleCall config now call state).reply = .ok value) : ∃ roomId, call = .initRoom roomId := by
  cases call with
  | initRoom roomId => exact ⟨roomId, rfl⟩
  | _ =>
    simp only [Call.room] at absent
    simp [handleCall, Outcome.wrap, destroyRoom, registerPeerKey, registerChecks, removePeer, fetchRoom,
      requestRotation, keySet, publishSealed, publishChecks, sealedFor, roomStatus, absent, bind, Except.bind,
      Except.map] at replied

/-- An announced epoch is the one the room has afterwards, if it is still there, and
not below the one it had before. -/
theorem announced_epoch {now : Nat} {call : Call PubKey Blob} {state : State PubKey Blob}
    {value : Value PubKey Blob} {epoch : Nat} (replied : (handleCall config now call state).reply = .ok value)
    (announced : announcedEpoch value = some epoch) :
    (∀ room, (handleCall config now call state).state.rooms.lookup call.room = some room → epoch = room.epoch) ∧
      ∀ old, state.rooms.lookup call.room = some old → old.epoch ≤ epoch := by
  cases call with
  | initRoom roomId =>
    simp only [handleCall, Outcome.wrap, initRoom, Call.room] at replied ⊢
    split at replied
    · cases replied
    next absent =>
      cases replied
      cases announced
      simp [absent]
  | destroyRoom roomId =>
    simp only [handleCall, Outcome.wrap, destroyRoom] at replied
    split at replied
    · cases replied
    · cases replied
      cases announced
  | registerPeerKey roomId peerId publicKey identityKey signature =>
    simp only [handleCall, Outcome.wrap, registerPeerKey, Call.room] at replied ⊢
    split at replied
    · cases replied
    next room proven passed =>
      obtain ⟨atRoom, _, _⟩ := registerChecks_ok passed
      split at replied
      next same =>
        cases replied
        cases announced
        simp [same, atRoom]
      next different =>
        cases replied
        cases announced
        simp only [different, if_false, putRoom_lookup, if_true, atRoom, Option.some.injEq, forall_eq', true_and]
        unfold maybeRotate
        split
        · exact Nat.le_succ room.epoch
        · exact le_rfl
  | removePeer roomId peerId =>
    simp only [handleCall, Outcome.wrap, removePeer, Call.room] at replied ⊢
    split at replied
    · cases replied
    next room fetched =>
      have atRoom := fetchRoom_ok.mp fetched
      simp only [maybeRotate_force] at replied ⊢
      split at replied
      next last =>
        cases replied
        cases announced
        simp [last, atRoom, rotate]
      next others =>
        cases replied
        cases announced
        simp [others, atRoom, rotate]
  | requestRotation roomId =>
    simp only [handleCall, Outcome.wrap, requestRotation, Call.room] at replied ⊢
    split at replied
    · cases replied
    next room fetched =>
      cases replied
      cases announced
      simp [fetchRoom_ok.mp fetched, rotate]
  | keySet roomId =>
    simp only [handleCall, keySet, Call.room] at replied ⊢
    split at replied
    · cases replied
    next room atRoom =>
      cases replied
      cases announced
      simp [atRoom]
  | publishSealed roomId sender recipient epoch blob =>
    simp only [handleCall, Outcome.wrap, publishSealed] at replied
    split at replied
    · cases replied
    · cases replied
      cases announced
  | sealedFor roomId peerId =>
    simp only [handleCall, sealedFor, Call.room] at replied ⊢
    split at replied
    · cases replied
    next room atRoom =>
      split at replied
      · split at replied
        · cases replied
          cases announced
          simp [atRoom]
        · cases replied
      · cases replied
  | roomStatus roomId =>
    simp only [handleCall, roomStatus, Call.room] at replied ⊢
    split at replied
    · cases replied
    next room atRoom =>
      cases replied
      cases announced
      simp [atRoom]

theorem removed_epoch {now : Nat} {roomId peerId : String} {state : State PubKey Blob}
    {value : Value PubKey Blob}
    (replied : (handleCall config now (.removePeer roomId peerId) state).reply = .ok value) :
    ∃ old, state.rooms.lookup roomId = some old ∧ value = .epoch (old.epoch + 1) ∧
      ∀ room, (handleCall config now (.removePeer roomId peerId) state).state.rooms.lookup roomId = some room →
        room.epoch = old.epoch + 1 := by
  simp only [handleCall, Outcome.wrap, removePeer] at replied ⊢
  split at replied
  · cases replied
  next room fetched =>
    have atRoom := fetchRoom_ok.mp fetched
    refine ⟨room, atRoom, ?_⟩
    simp only [maybeRotate_force] at replied ⊢
    split at replied
    next last =>
      cases replied
      exact ⟨rfl, by simp [last]⟩
    next others =>
      cases replied
      exact ⟨rfl, by simp [others, rotate]⟩

/-- A room on record was put there by some earlier `initRoom`. -/
theorem initialised_before {roomId : String} {room : Room PubKey Blob} {position : Nat}
    (found : (stateAt config calls position).rooms.lookup roomId = some room) :
    ∃ earlier < position, InitialisedAt config calls roomId earlier := by
  induction position generalizing room with
  | zero => simp [stateAt, serve, init] at found
  | succ position ih =>
    rcases stateAt_step config calls position with same | ⟨⟨now, call⟩, atPosition, taken⟩
    · obtain ⟨earlier, before, initialised⟩ := ih (same ▸ found)
      exact ⟨earlier, Nat.lt_succ_of_lt before, initialised⟩
    · rcases taken.continues_or_created roomId with continues | ⟨rfl, replied⟩
      · obtain ⟨old, atOld, _⟩ := continues room found
        obtain ⟨earlier, before, initialised⟩ := ih atOld
        exact ⟨earlier, Nat.lt_succ_of_lt before, initialised⟩
      · exact ⟨position, Nat.lt_succ_self position, .epoch 0, by simp [exchangeAt, atPosition, replied]⟩

/-- Between two positions with no `initRoom` of the room in between, the room is one lifetime. -/
theorem continues_between (config : ProofConfig PubKey) (calls : List (Nat × Call PubKey Blob)) (roomId : String)
    {first last : Nat} (ordered : first ≤ last)
    (quiet : ∀ position, first ≤ position → position < last → ¬ InitialisedAt config calls roomId position) :
    Continues roomId (stateAt config calls first) (stateAt config calls last) := by
  induction last, ordered using Nat.le_induction with
  | base => exact .refl roomId _
  | succ last ordered ih =>
    have front := ih fun position lower upper => quiet position lower (Nat.lt_succ_of_lt upper)
    rcases stateAt_step config calls last with same | ⟨⟨now, call⟩, atPosition, taken⟩
    · rwa [same]
    · rcases taken.continues_or_created roomId with continues | ⟨rfl, replied⟩
      · exact front.trans continues
      · exact absurd ⟨.epoch 0, by simp [exchangeAt, atPosition, replied]⟩
          (quiet last ordered (Nat.lt_succ_self last))

/-- An announcement needs a room: one on record before the call, or one it creates. -/
theorem AnnouncedAt.initialised {roomId : String} {position epoch : Nat}
    (announced : AnnouncedAt config calls roomId position epoch) :
    ∃ earlier ≤ position, InitialisedAt config calls roomId earlier := by
  obtain ⟨call, value, found, rfl, stated⟩ := announced
  obtain ⟨now, atPosition, replied, taken⟩ := exchangeAt_some found
  cases present : (stateAt config calls position).rooms.lookup call.room with
  | none =>
    obtain ⟨roomId, rfl⟩ := handleCall_absent present replied.symm
    exact ⟨position, le_rfl, value, found⟩
  | some room =>
    obtain ⟨earlier, before, initialised⟩ := initialised_before present
    exact ⟨earlier, before.le, initialised⟩

/-- Where every room id is initialised at most once, epochs announced for it increase
across removals. -/
theorem epochs_increase_of_single_lifetime (roomId : String)
    (once : ∀ first second, InitialisedAt config calls roomId first → InitialisedAt config calls roomId second →
      first = second) : EpochsIncrease config calls roomId := by
  intro earlier removal later before after beforeRemoval removalLater announced removed announcedLater
  obtain ⟨created, createdBefore, initialised⟩ := announced.initialised
  have quiet : ∀ position, earlier + 1 ≤ position → ¬ InitialisedAt config calls roomId position := by
    intro position lower again
    have same := once _ _ initialised again
    omega
  obtain ⟨peerId, removalValue, removalFound⟩ := removed
  obtain ⟨removalNow, _, removalReplied, removalTaken⟩ := exchangeAt_some removalFound
  obtain ⟨leaving, atLeaving, removalEpoch, leavingEpoch⟩ := removed_epoch removalReplied.symm
  -- from the earlier announcement up to the removal the room is one lifetime
  have upTo := continues_between config calls roomId beforeRemoval
    fun position lower _ => quiet position lower
  obtain ⟨call, value, found, rfl, stated⟩ := announced
  obtain ⟨now, _, replied, taken⟩ := exchangeAt_some found
  obtain ⟨start, atStart, startLe⟩ := upTo leaving atLeaving
  have startEpoch : before = start.epoch := by
    rw [taken] at atStart
    exact (announced_epoch replied.symm stated).1 start atStart
  obtain ⟨laterCall, laterValue, laterFound, laterRoom, laterStated⟩ := announcedLater
  obtain ⟨laterNow, _, laterReplied, laterTaken⟩ := exchangeAt_some laterFound
  rcases removalLater.eq_or_lt with rfl | strict
  · have same := Option.some.inj (removalFound.symm.trans laterFound)
    simp only [Prod.mk.injEq, Except.ok.injEq] at same
    rw [← same.2, removalEpoch] at laterStated
    cases laterStated
    omega
  · have onward := continues_between config calls call.room strict
      fun position lower _ => quiet position (by omega)
    have present : (stateAt config calls later).rooms.lookup laterCall.room ≠ none := by
      intro absent
      obtain ⟨other, rfl⟩ := handleCall_absent absent laterReplied.symm
      cases laterRoom
      exact quiet later (by omega) ⟨laterValue, laterFound⟩
    obtain ⟨room, atRoom⟩ := Option.ne_none_iff_exists'.mp present
    rw [laterRoom] at atRoom
    obtain ⟨next, atNext, nextLe⟩ := onward room atRoom
    have nextEpoch := leavingEpoch next (by rw [← removalTaken]; exact atNext)
    have lower := (announced_epoch laterReplied.symm laterStated).2 room (by rw [laterRoom]; exact atRoom)
    omega

/-- One peer comes, leaves and comes back: the room starts over at epoch 0. -/
def rejoinedRoom : List (Nat × Call (List UInt8) (List UInt8)) :=
  [(0, .initRoom "r"), (1, .registerPeerKey "r" "alice" (List.replicate 32 1) none none),
   (2, .requestRotation "r"), (3, .removePeer "r" "alice"), (4, .initRoom "r"),
   (5, .registerPeerKey "r" "alice" (List.replicate 32 2) none none)]

/-- Epoch 1 is announced, the room empties, and its next lifetime announces epoch 0. -/
theorem epochs_repeat_after_rejoin : ¬ EpochsIncrease unproven rejoinedRoom "r" := by
  intro increasing
  have below := increasing 2 3 5 1 0 (by decide) (by decide) ⟨.requestRotation "r", .epoch 1, rfl, rfl, rfl⟩
    ⟨"alice", .epoch 2, rfl⟩ ⟨_, .registered 0 1, rfl, rfl, rfl⟩
  omega

theorem epochs_increase_of_single_lifetime_meeting :
    EpochsIncrease unproven (sealedMeeting ++ [(4, .removePeer "r" "bob"), (5, .keySet "r")]) "r" := by
  refine epochs_increase_of_single_lifetime "r" fun first second one two => ?_
  obtain ⟨value, found⟩ := one
  obtain ⟨value', found'⟩ := two
  have only : ∀ position value, exchangeAt unproven
      (sealedMeeting ++ [(4, .removePeer "r" "bob"), (5, .keySet "r")]) position = some (.initRoom "r", .ok value) →
      position = 0 := by
    intro position value found
    obtain ⟨now, atPosition, _⟩ := exchangeAt_some found
    match position, atPosition with
    | 0, _ => rfl
    | 1, h | 2, h | 3, h | 4, h | 5, h => simp [sealedMeeting] at h
    | _ + 6, h => simp [sealedMeeting] at h
  rw [only first value found, only second value' found']

end Burble.E2EE
