import Burble.Rooms.Moderation

namespace Burble.Media

/-- A message that the engine's process is sent when it is due, with the place of its mute among all changes. -/
structure Timer where
  userId : PeerId
  room : RoomId
  due : Nat
  place : Nat
  deriving DecidableEq

/-- A mute that has been imposed, with its place among all changes and the time at which it runs out. -/
structure Mute where
  userId : PeerId
  room : RoomId
  place : Nat
  expires : Option Nat
  deriving DecidableEq

/-- The engine with the timers of its process, the time in milliseconds, and the mutes that nobody has lifted. -/
structure TimedEngine where
  media : MediaState
  starts : Nat
  timers : List Timer
  now : Nat
  mutes : List Mute
  placed : Nat

/-- A mute or a timeout that has passed its checks, with its duration in seconds; any other call of the engine; and a
timer whose message the engine handles, which may be at any time from when it is due. -/
inductive TimedLabel
  | mute (userId : PeerId) (room : RoomId) (duration : Option Nat)
  | engine (label : MediaLabel)
  | wait (ms : Nat)
  | autoUnmute (timer : Timer)
  deriving DecidableEq

/-- What the options say of the peer's mute: of a key that is there twice the last value counts. -/
def mutedOpt (audioOpts : List AudioOpt) : Option Bool :=
  audioOpts.foldl (fun found opt => match opt with
    | .muted value => some value
    | .e2eeEnabled _ => found) none

/-- The mutes that there are after a call: of a peer that is added or removed, and of one that is unmuted, there are none. -/
def mutesAfter (mutes : List Mute) (place : Nat) : MediaLabel → List Mute
  | .setAudio room peerId audioOpts =>
    match mutedOpt audioOpts with
    | some true => mutes ++ [⟨peerId, room, place, none⟩]
    | some false => mutes.filter fun mute => ¬ (mute.room = room ∧ mute.userId = peerId)
    | none => mutes
  | .addPeer room peerId _ _ | .removePeer room peerId =>
    mutes.filter fun mute => ¬ (mute.room = room ∧ mute.userId = peerId)
  | .destroySession room => mutes.filter fun mute => mute.room ≠ room
  | _ => mutes

namespace TimedEngine

def start : TimedEngine := ⟨.start, 1, [], 0, [], 0⟩

def scheduleUnmute (engine : TimedEngine) (userId : PeerId) (room : RoomId) (durationSeconds : Nat) : TimedEngine :=
  { engine with timers := engine.timers ++ [⟨userId, room, engine.now + durationSeconds * 1000, engine.placed⟩] }

def mute (engine : TimedEngine) (userId : PeerId) (room : RoomId) (duration : Option Nat) : TimedEngine :=
  let muted : TimedEngine := { engine with
    media := engine.media.setAudio room userId [.muted true]
    mutes := engine.mutes ++ [⟨userId, room, engine.placed, duration.map fun duration => engine.now + duration * 1000⟩] }
  let scheduled := match duration with
    | some duration => muted.scheduleUnmute userId room duration
    | none => muted
  { scheduled with placed := engine.placed + 1 }

/-- Where the engine exits it is started again, and the timers of the process that was are lost with it. -/
def autoUnmute (engine : TimedEngine) (timer : Timer) : TimedEngine :=
  let media := mediaStep engine.media (.autoUnmute timer.userId timer.room)
  if (engine.media.sessions.lookup timer.room).isSome then
    { engine with media, starts := engine.starts + 1, timers := [], mutes := [] }
  else { engine with media, timers := engine.timers.erase timer }

def next (engine : TimedEngine) : TimedLabel → Option TimedEngine
  | .mute userId room duration => some (engine.mute userId room duration)
  | .engine (.autoUnmute ..) => none
  | .engine label => some { engine with
      media := mediaStep engine.media label
      mutes := mutesAfter engine.mutes engine.placed label
      placed := engine.placed + 1 }
  | .wait ms => some { engine with now := engine.now + ms }
  | .autoUnmute timer =>
    if timer ∈ engine.timers ∧ timer.due ≤ engine.now then some (engine.autoUnmute timer) else none

/-- The engine's record of a peer. -/
def record (engine : TimedEngine) (room : RoomId) (peerId : PeerId) : Option Peer :=
  (engine.media.sessions.lookup room).bind fun session => session.peers.lookup peerId

/-- A mute of the timer's peer that was imposed after the timer's own and has not run out. -/
def StandsLater (engine : TimedEngine) (timer : Timer) : Prop :=
  ∃ mute ∈ engine.mutes, mute.userId = timer.userId ∧ mute.room = timer.room ∧ timer.place < mute.place ∧
    ∀ time ∈ mute.expires, engine.now < time

end TimedEngine

section Moderation
open Rooms
variable {engine : TimedEngine} {server : Moderation.Server} {actorId targetId : UserId} {roomId : Rooms.RoomId}
  {actorPerms : Finset Permission}

/-- What a mute or a timeout that has passed its checks makes of the engine and of the messages it will be sent. -/
def Agrees (engine : TimedEngine) (server after : Moderation.Server) (targetId : UserId) (roomId : Rooms.RoomId)
    (duration : Option Nat) : Prop :=
  after.media = (engine.mute targetId roomId duration).media ∧
    (engine.mute targetId roomId duration).timers = engine.timers ++ ((after.unmutes.drop server.unmutes.length).map
      fun unmute => ⟨unmute.1, unmute.2.1, engine.now + unmute.2.2, engine.placed⟩)

theorem agrees_of_scheduled {after : Moderation.Server} {duration : Option Nat} (same : engine.media = server.media)
    (media : after.media = server.media.setAudio roomId targetId [.muted true])
    (unmutes : after.unmutes = server.unmutes ++ (duration.toList.map fun duration => (targetId, roomId, duration * 1000))) :
    Agrees engine server after targetId roomId duration := by
  rw [Agrees, media, unmutes, List.drop_left, ← same]
  cases duration with
  | none => exact ⟨rfl, (List.append_nil _).symm⟩
  | some duration => exact ⟨rfl, rfl⟩

theorem moderation_mute {duration : Option Nat} {now : Nat} {record : Moderation.MuteRecord}
    (same : engine.media = server.media)
    (done : (Moderation.mute server actorId targetId roomId duration actorPerms now).1 = .ok record) :
    Agrees engine server (Moderation.mute server actorId targetId roomId duration actorPerms now).2 targetId roomId
      duration := by
  rw [Moderation.mute] at done ⊢
  split at done
  · cases done
  · cases duration with
    | none => exact agrees_of_scheduled same rfl (List.append_nil _).symm
    | some duration => exact agrees_of_scheduled same rfl rfl

theorem moderation_timeout {duration : Int} (same : engine.media = server.media)
    (done : (Moderation.timeout server targetId roomId duration actorPerms).1 = .ok ()) :
    Agrees engine server (Moderation.timeout server targetId roomId duration actorPerms).2 targetId roomId
      (some duration.toNat) := by
  rw [Moderation.timeout] at done ⊢
  split at done
  next positive =>
    rw [if_pos positive]
    split at done
    · cases done
    · exact agrees_of_scheduled same rfl rfl
  next => cases done

end Moderation

abbrev Ticks (before : TimedEngine) (label : TimedLabel) (after : TimedEngine) : Prop := before.next label = some after

/-- A timer ends the mute of its own peer and nothing else. -/
structure EndsItsMute (before : TimedEngine) (timer : Timer) (after : TimedEngine) : Prop where
  running : after.starts = before.starts
  sessions : ∀ room, room ≠ timer.room → after.media.sessions.lookup room = before.media.sessions.lookup room
  session : (after.media.sessions.lookup timer.room).isSome = (before.media.sessions.lookup timer.room).isSome
  peers : ∀ peerId, peerId ≠ timer.userId → after.record timer.room peerId = before.record timer.room peerId
  lifted : ¬ before.StandsLater timer → after.media.isMuted timer.room timer.userId = false
  stands : before.StandsLater timer →
    after.media.isMuted timer.room timer.userId = before.media.isMuted timer.room timer.userId

def Scheduled (before : TimedEngine) (label : TimedLabel) (after : TimedEngine) : Prop :=
  match label with
  | .autoUnmute timer => EndsItsMute before timer after
  | _ => True

/-- The room of a timer is gone when its message is handled. -/
def RoomGone (engine : TimedEngine) : TimedLabel → Prop
  | .autoUnmute timer => engine.media.sessions.lookup timer.room = none
  | _ => True

section Steps
variable {before after : TimedEngine} {timer : Timer}

/-- Without a session nothing is left to end, and with one the engine exits. -/
theorem endsItsMute_iff (taken : Ticks before (.autoUnmute timer) after) :
    EndsItsMute before timer after ↔ before.media.sessions.lookup timer.room = none := by
  rw [Ticks, TimedEngine.next] at taken
  obtain ⟨_, same⟩ := Option.ite_none_right_eq_some.mp taken
  cases same
  constructor
  · intro ends
    have running := ends.running
    rw [TimedEngine.autoUnmute] at running
    split at running
    · exact absurd running (Nat.succ_ne_self _)
    next gone => exact Option.not_isSome_iff_eq_none.mp gone
  · intro gone
    have quiet : mediaStep before.media (.autoUnmute timer.userId timer.room) = before.media := by
      rw [mediaStep, MediaState.autoUnmute, gone]
      rfl
    have unmuted : before.media.isMuted timer.room timer.userId = false := by
      rw [MediaState.isMuted, gone]
      rfl
    have same : before.autoUnmute timer = { before with timers := before.timers.erase timer } := by
      rw [TimedEngine.autoUnmute, quiet, gone]
      rfl
    rw [same]
    exact ⟨rfl, fun _ _ => rfl, rfl, fun _ _ => rfl, fun _ => unmuted, fun _ => rfl⟩

theorem scheduled_iff {label : TimedLabel} (taken : Ticks before label after) :
    Scheduled before label after ↔ RoomGone before label := by
  cases label with
  | autoUnmute timer => exact endsItsMute_iff taken
  | mute | engine | wait => exact Iff.rfl

end Steps

/-- Every timer of a run ends its mute and nothing else exactly when, each time, its room is gone. -/
theorem timed_mutes_iff (labels : List TimedLabel) (last : TimedEngine) :
    Run (fun before label after => Ticks before label after ∧ Scheduled before label after) .start labels last ↔
      Run (Guarded RoomGone Ticks) .start labels last := by
  constructor
  · exact Run.mono fun taken => ⟨(scheduled_iff taken.1).mp taken.2, taken.1⟩
  · exact Run.mono fun taken => ⟨taken.2, (scheduled_iff taken.2).mpr taken.1⟩

/-- Ann is muted in the lobby for a second, with Bob in the attic. -/
def annTimed : List TimedLabel :=
  [.engine (.createSession "lobby" none none false), .engine (.createSession "attic" none none false),
    .engine (.addPeer "lobby" "ann" none true), .engine (.addPeer "attic" "bob" none true),
    .mute "ann" "lobby" (some 1), .wait 1000]

/-- The engine as it is when her second is over. -/
def annDue : TimedEngine := annTimed.foldl (fun engine label => (engine.next label).getD engine) .start

/-- The message for Ann ends the engine, and with it all sessions. -/
theorem timed_mute_ends_engine : Run Ticks .start annTimed annDue ∧ ∃ after,
    Ticks annDue (.autoUnmute ⟨"ann", "lobby", 1000, 4⟩) after ∧ annDue.starts = 1 ∧ after.starts = 2 ∧
    (annDue.record "attic" "bob").isSome = true ∧ after.record "attic" "bob" = none ∧
    ¬ Scheduled annDue (.autoUnmute ⟨"ann", "lobby", 1000, 4⟩) after := by
  have muted : Run Ticks .start annTimed annDue := play_run rfl
  have due : Ticks annDue (.autoUnmute ⟨"ann", "lobby", 1000, 4⟩) (annDue.autoUnmute ⟨"ann", "lobby", 1000, 4⟩) := by
    rw [Ticks, TimedEngine.next]
    exact if_pos (by decide +kernel)
  refine ⟨muted, _, due, rfl, rfl, rfl, rfl, fun scheduled => ?_⟩
  exact absurd scheduled.running (by decide +kernel)

end Burble.Media
