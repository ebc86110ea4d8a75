import Burble.FiniteMap
import Burble.Runs

namespace Burble.Transport

inductive StreamType
  | speaker
  | screen
  | cctv
  | other (name : String)
  deriving DecidableEq

inductive Codec
  | opus
  | vp8
  | h264
  | other
  deriving DecidableEq

structure MountOpts where
  levelId : Option String
  cameraId : Option String
  codec : Option Codec
  deriving DecidableEq

structure Mountpoint (Pid : Type) where
  path : String
  subscribers : MapSet Pid
  sdp : String
  packetCount : Nat

/-- The mountpoints of the server and the limits of its configuration. -/
structure Rtsp (Pid : Type) where
  mountpoints : FiniteMap String (Mountpoint Pid)
  maxMountpoints : Nat
  maxSubscribersPerMount : Nat

inductive Request (Pid : Type)
  | registerMountpoint (roomId : String) (streamType : StreamType) (opts : MountOpts)
  | removeMountpoint (path : String)
  | subscribe (path : String) (pid : Pid)
  | unsubscribe (path : String) (pid : Pid)
  | listMountpoints
  | getSdp (path : String)
  | injectRtp (path : String) (packet : List UInt8)
  | down (pid : Pid)
  deriving DecidableEq

inductive Reply
  | ok
  | mounted (path : String)
  | notFound
  | maxMountpointsReached
  | maxSubscribersReached
  | listing (mounts : List (String × Nat × Nat))
  | sdp (text : String)
  | noreply
  deriving DecidableEq

/-- A message to a subscriber. -/
inductive Notice
  | rtp (path : String) (packet : List UInt8)
  | teardown (path : String)
  deriving DecidableEq

section Paths

/-- A camera's path needs its level and its name, which `Keyword.fetch!` raises without. -/
def buildMountpointPath (roomId : String) (streamType : StreamType) (opts : MountOpts) : Option String :=
  match streamType with
  | .speaker => some s!"/live/room-{roomId}/speaker"
  | .screen => some s!"/live/room-{roomId}/screen"
  | .cctv => do
    let levelId ← opts.levelId
    let cameraId ← opts.cameraId
    return s!"/live/idaptik/{levelId}/cctv/{cameraId}"
  | .other name => some s!"/live/room-{roomId}/{name}"

def mediaLine (streamType : StreamType) (codec : Codec) : String :=
  match streamType, codec with
  | .speaker, .opus => "m=audio 0 RTP/AVP 111\r\na=rtpmap:111 opus/48000/2"
  | .screen, .vp8 => "m=video 0 RTP/AVP 96\r\na=rtpmap:96 VP8/90000"
  | .screen, .h264 => "m=video 0 RTP/AVP 96\r\na=rtpmap:96 H264/90000"
  | .cctv, _ => "m=video 0 RTP/AVP 96\r\na=rtpmap:96 H264/90000"
  | _, _ => "m=audio 0 RTP/AVP 111\r\na=rtpmap:111 opus/48000/2"

def generateSdp (path : String) (streamType : StreamType) (opts : MountOpts) : String :=
  let line := mediaLine streamType (opts.codec.getD .opus)
  s!"v=0\r\no=burble 0 0 IN IP4 0.0.0.0\r\ns={path}\r\nc=IN IP4 0.0.0.0\r\nt=0 0\r\n{line}\r\na=control:{path}\r\n"

end Paths

namespace Rtsp
variable {Pid : Type} [DecidableEq Pid]

def notices (subscribers : MapSet Pid) (notice : Notice) : List (Pid × Notice) :=
  subscribers.toList.map fun pid => (pid, notice)

/-- A request handled: what is answered and sent, and the state after it. Nothing is left where the server exits, which
the update of a path does under a mountpoint that is not there. -/
def handle (server : Rtsp Pid) : Request Pid → Option (Reply × List (Pid × Notice) × Rtsp Pid)
  | .registerMountpoint roomId streamType opts => do
    let path ← buildMountpointPath roomId streamType opts
    if server.mountpoints.size ≥ server.maxMountpoints then return (.maxMountpointsReached, [], server)
    else
      let mount := ⟨path, ∅, generateSdp path streamType opts, 0⟩
      return (.mounted path, [], { server with mountpoints := AList.insert path mount server.mountpoints })
  | .removeMountpoint path =>
    match server.mountpoints.lookup path with
    | none => some (.notFound, [], server)
    | some mount => some (.ok, notices mount.subscribers (.teardown path),
        { server with mountpoints := AList.erase path server.mountpoints })
  | .subscribe path pid =>
    match server.mountpoints.lookup path with
    | none => some (.notFound, [], server)
    | some mount =>
      if mount.subscribers.size ≥ server.maxSubscribersPerMount then some (.maxSubscribersReached, [], server)
      else some (.ok, [], { server with
        mountpoints := AList.insert path { mount with subscribers := mount.subscribers.put pid } server.mountpoints })
  | .unsubscribe path pid =>
    match server.mountpoints.lookup path with
    | none => none
    | some mount => some (.ok, [], { server with
        mountpoints := AList.insert path { mount with subscribers := mount.subscribers.delete pid } server.mountpoints })
  | .listMountpoints =>
    some (.listing (server.mountpoints.toList.map fun (path, mount) => (path, mount.subscribers.size, mount.packetCount)),
      [], server)
  | .getSdp path =>
    match server.mountpoints.lookup path with
    | none => some (.notFound, [], server)
    | some mount => some (.sdp mount.sdp, [], server)
  | .injectRtp path packet =>
    match server.mountpoints.lookup path with
    | none => some (.noreply, [], server)
    | some mount => some (.noreply, notices mount.subscribers (.rtp path packet), { server with
        mountpoints := AList.insert path { mount with packetCount := mount.packetCount + 1 } server.mountpoints })
  | .down pid =>
    some (.noreply, [], { server with
      mountpoints := server.mountpoints.mapValues fun mount =>
        { mount with subscribers := mount.subscribers.delete pid } })

/-- A server as it starts. -/
def init (maxMountpoints maxSubscribersPerMount : Nat) : Rtsp Pid := ⟨∅, maxMountpoints, maxSubscribersPerMount⟩

end Rtsp

end Burble.Transport

namespace Burble.Transport

variable {Pid : Type}

/-- The server with the number of its starts, and what it has been asked and has answered, where it has. -/
structure Served (Pid : Type) where
  server : Rtsp Pid
  starts : Nat
  history : List (Request Pid × Option Reply)

namespace Served
variable [DecidableEq Pid]

def start (maxMountpoints maxSubscribersPerMount : Nat) : Served Pid :=
  ⟨.init maxMountpoints maxSubscribersPerMount, 1, []⟩

/-- A server that has exited is started again. -/
def serve (served : Served Pid) (request : Request Pid) : Served Pid :=
  match served.server.handle request with
  | some (reply, _, after) => ⟨after, served.starts, served.history ++ [(request, some reply)]⟩
  | none => ⟨.init served.server.maxMountpoints served.server.maxSubscribersPerMount, served.starts + 1,
      served.history ++ [(request, none)]⟩

end Served

/-- The mountpoint a request is about. -/
def Request.path : Request Pid → Option String
  | registerMountpoint roomId streamType opts => buildMountpointPath roomId streamType opts
  | removeMountpoint path | subscribe path _ | unsubscribe path _ | getSdp path | injectRtp path _ => some path
  | listMountpoints | down _ => none

def Request.IsCall : Request Pid → Prop
  | down _ => False
  | _ => True

def Rtsp.Subscribed (server : Rtsp Pid) (path : String) (pid : Pid) : Prop :=
  ∃ mount ∈ server.mountpoints.lookup path, pid ∈ mount.subscribers

/-- A process subscribes to a mountpoint. -/
def Subscribes (path : String) (pid : Pid) (event : Request Pid × Option Reply) : Prop :=
  event = (.subscribe path pid, some .ok)

/-- The mountpoint is removed, or the process unsubscribes or dies. -/
def Leaves (path : String) (pid : Pid) (event : Request Pid × Option Reply) : Prop :=
  event.1 = .removeMountpoint path ∨ event.1 = .unsubscribe path pid ∨ event.1 = .down pid

/-- The subscribers of each mountpoint are those who have subscribed and have not left since, and not too many. -/
structure Exact (served : Served Pid) : Prop where
  subscribers : ∀ path pid, served.server.Subscribed path pid ↔
    Since (Subscribes path pid) (Leaves path pid) served.history
  bounded : ∀ path mount, served.server.mountpoints.lookup path = some mount →
    mount.subscribers.size ≤ served.server.maxSubscribersPerMount

/-- The server survives a request, and a call changes no other mountpoint than its own. -/
structure Survives (before : Served Pid) (request : Request Pid) (after : Served Pid) : Prop where
  running : after.starts = before.starts
  others : request.IsCall → ∀ path, request.path ≠ some path →
    after.server.mountpoints.lookup path = before.server.mountpoints.lookup path

/-- A camera is registered with its level and its name, a path that is live only where nobody has subscribed to it or no
more mountpoints are taken, and who unsubscribes does so from a mountpoint that is there. -/
def Rtsp.Orderly (server : Rtsp Pid) (request : Request Pid) : Prop :=
  match request with
  | .registerMountpoint .. => ∃ path, request.path = some path ∧ ∀ pid, server.Subscribed path pid →
      server.maxMountpoints ≤ server.mountpoints.size
  | .unsubscribe path _ => (server.mountpoints.lookup path).isSome = true
  | _ => True

abbrev Serves [DecidableEq Pid] (before : Served Pid) (request : Request Pid) (after : Served Pid) : Prop := before.serve request = after

namespace Rtsp
variable {server after : Rtsp Pid} {path : String} {pid : Pid}

theorem subscribed_insert {mount : Mountpoint Pid} (changed : after.mountpoints = AList.insert path mount server.mountpoints)
    (other : String) (pid : Pid) : after.Subscribed other pid ↔
      if other = path then pid ∈ mount.subscribers else server.Subscribed other pid := by
  unfold Subscribed
  rw [changed, FiniteMap.lookup_insert_if]
  split <;> simp

theorem subscribed_of_lookup {mount : Mountpoint Pid} (found : server.mountpoints.lookup path = some mount) :
    server.Subscribed path pid ↔ pid ∈ mount.subscribers := by
  unfold Subscribed
  rw [found]
  simp

theorem not_subscribed_of_lookup (missing : server.mountpoints.lookup path = none) : ¬ server.Subscribed path pid := by
  rintro ⟨mount, found, _⟩
  rw [missing] at found
  cases found

end Rtsp

section Handling
variable {server after : Rtsp Pid} {request : Request Pid} {reply : Reply} {path : String}

/-- What a request does that the server survives: those are subscribed who subscribe by it, and who were and do not leave
by it, there are not too many of them, and no other mountpoint has changed. -/
structure Handled (server : Rtsp Pid) (request : Request Pid) (reply : Reply) (after : Rtsp Pid) : Prop where
  moves : ∀ path pid, after.Subscribed path pid ↔ Subscribes path pid (request, some reply) ∨
    server.Subscribed path pid ∧ ¬ Leaves path pid (request, some reply)
  limit : after.maxSubscribersPerMount = server.maxSubscribersPerMount
  bounded : (∀ path mount, server.mountpoints.lookup path = some mount →
      mount.subscribers.size ≤ server.maxSubscribersPerMount) →
    ∀ path mount, after.mountpoints.lookup path = some mount → mount.subscribers.size ≤ server.maxSubscribersPerMount
  others : request.IsCall → ∀ path, request.path ≠ some path →
    after.mountpoints.lookup path = server.mountpoints.lookup path

theorem Handled.same (calm : ∀ path pid, ¬ Subscribes path pid (request, some reply) ∧
    (server.Subscribed path pid → ¬ Leaves path pid (request, some reply))) : Handled server request reply server where
  moves path pid := ⟨fun there => .inr ⟨there, (calm path pid).2 there⟩,
    fun either => either.elim (fun now => absurd now (calm path pid).1) And.left⟩
  limit := rfl
  bounded few := few
  others _ _ _ := rfl

/-- A request that makes a new record for its own mountpoint. -/
theorem Handled.insert {mount : Mountpoint Pid} (own : request.path = some path)
    (here : ∀ pid, pid ∈ mount.subscribers ↔ Subscribes path pid (request, some reply) ∨
      server.Subscribed path pid ∧ ¬ Leaves path pid (request, some reply))
    (elsewhere : ∀ other, other ≠ path → ∀ pid, ¬ Subscribes other pid (request, some reply) ∧
      ¬ Leaves other pid (request, some reply))
    (few : (∀ path mount, server.mountpoints.lookup path = some mount →
      mount.subscribers.size ≤ server.maxSubscribersPerMount) → mount.subscribers.size ≤ server.maxSubscribersPerMount) :
    Handled server request reply { server with mountpoints := AList.insert path mount server.mountpoints } where
  moves other pid := by
    rw [Rtsp.subscribed_insert rfl]
    split
    next same => exact same ▸ here pid
    next different =>
      obtain ⟨quiet, stays⟩ := elsewhere other different pid
      exact ⟨fun there => .inr ⟨there, stays⟩, fun either => either.elim (fun now => absurd now quiet) And.left⟩
  limit := rfl
  bounded before other found there := by
    rw [FiniteMap.lookup_insert_if] at there
    split at there
    · cases there
      exact few before
    · exact before other found there
  others _ other away := by
    rw [FiniteMap.lookup_insert_if, if_neg]
    rintro rfl
    exact away own

variable [DecidableEq Pid]

omit [DecidableEq Pid] in
theorem handled_remove (path : String) :
    Handled server (.removeMountpoint path) .ok { server with mountpoints := AList.erase path server.mountpoints } where
  moves other pid := by
    have subscribed : Rtsp.Subscribed { server with mountpoints := AList.erase path server.mountpoints } other pid ↔
        other ≠ path ∧ server.Subscribed other pid := by
      unfold Rtsp.Subscribed
      rw [FiniteMap.lookup_erase_if]
      split
      next same => simp [same]
      next different => simp [different]
    rw [subscribed]
    simp [Subscribes, Leaves, and_comm, eq_comm]
  limit := rfl
  bounded few other mount there := by
    rw [FiniteMap.lookup_erase_if] at there
    split at there
    · cases there
    · exact few other mount there
  others _ other away := by
    rw [FiniteMap.lookup_erase_if, if_neg]
    rintro rfl
    exact away rfl

theorem handled_down (pid : Pid) : Handled server (.down pid) .noreply { server with
    mountpoints := server.mountpoints.mapValues fun mount => { mount with subscribers := mount.subscribers.delete pid } } where
  moves path other := by
    unfold Rtsp.Subscribed
    rw [FiniteMap.lookup_mapValues]
    cases server.mountpoints.lookup path with
    | none => simp [Subscribes]
    | some mount => simp [Subscribes, Leaves, and_comm, eq_comm]
  limit := rfl
  bounded few path mount there := by
    rw [FiniteMap.lookup_mapValues] at there
    obtain ⟨before, found, rfl⟩ := Option.map_eq_some_iff.mp there
    exact (FiniteMap.size_erase_le _ _).trans (few path before found)
  others isCall := isCall.elim

theorem handled_subscribe {pid : Pid} {mount : Mountpoint Pid} (found : server.mountpoints.lookup path = some mount)
    (few : mount.subscribers.size < server.maxSubscribersPerMount) : Handled server (.subscribe path pid) .ok { server with
      mountpoints := AList.insert path { mount with subscribers := mount.subscribers.put pid } server.mountpoints } := by
  refine .insert rfl (fun other => ?_) (fun other different who => ?_) fun _ => ?_
  · rw [Rtsp.subscribed_of_lookup found]
    simp [Subscribes, Leaves, eq_comm]
  · simp [Subscribes, Leaves, different.symm]
  · exact (FiniteMap.size_insert_le _ _ _).trans few

theorem handled_unsubscribe {pid : Pid} {mount : Mountpoint Pid} (found : server.mountpoints.lookup path = some mount) :
    Handled server (.unsubscribe path pid) .ok { server with
      mountpoints := AList.insert path { mount with subscribers := mount.subscribers.delete pid } server.mountpoints } := by
  refine .insert rfl (fun other => ?_) (fun other different who => ?_) fun bounded => ?_
  · rw [Rtsp.subscribed_of_lookup found]
    simp [Subscribes, Leaves, and_comm, eq_comm]
  · simp [Subscribes, Leaves, different.symm]
  · exact (FiniteMap.size_erase_le _ _).trans (bounded path mount found)

/-- Whatever is asked in order does what it is to do. -/
theorem handled_of_orderly {sent : List (Pid × Notice)} (orderly : server.Orderly request)
    (done : server.handle request = some (reply, sent, after)) : Handled server request reply after := by
  cases request with
  | registerMountpoint roomId streamType opts =>
    obtain ⟨path, own, empty⟩ := orderly
    rw [Rtsp.handle, show buildMountpointPath roomId streamType opts = some path from own, Option.bind_eq_bind,
      Option.bind_some] at done
    split at done
    · cases done
      exact .same fun _ _ => ⟨by simp [Subscribes], fun _ => by simp [Leaves]⟩
    next room =>
      cases done
      refine .insert own (fun pid => ?_) (fun _ _ _ => by simp [Subscribes, Leaves]) fun _ => Nat.zero_le _
      have nobody : ¬ server.Subscribed path pid := fun there => room (empty pid there)
      simp [Subscribes, nobody]
  | removeMountpoint path =>
    rw [Rtsp.handle] at done
    split at done
    next missing =>
      cases done
      refine .same fun other pid => ⟨by simp [Subscribes], fun there leaves => ?_⟩
      rcases leaves with ⟨⟨⟩⟩ | ⟨⟨⟩⟩ | ⟨⟨⟩⟩
      exact Rtsp.not_subscribed_of_lookup missing there
    next =>
      cases done
      exact handled_remove path
  | subscribe path pid =>
    rw [Rtsp.handle] at done
    split at done
    · cases done
      exact .same fun _ _ => ⟨by simp [Subscribes], fun _ => by simp [Leaves]⟩
    next mount found =>
      split at done
      · cases done
        exact .same fun _ _ => ⟨by simp [Subscribes], fun _ => by simp [Leaves]⟩
      next few =>
        cases done
        exact handled_subscribe found (not_le.mp few)
  | unsubscribe path pid =>
    rw [Rtsp.handle] at done
    split at done
    · cases done
    next mount found =>
      cases done
      exact handled_unsubscribe found
  | listMountpoints =>
    cases done
    exact .same fun _ _ => ⟨by simp [Subscribes], fun _ => by simp [Leaves]⟩
  | getSdp path =>
    rw [Rtsp.handle] at done
    split at done
    all_goals
      cases done
      exact .same fun _ _ => ⟨by simp [Subscribes], fun _ => by simp [Leaves]⟩
  | injectRtp path packet =>
    rw [Rtsp.handle] at done
    split at done
    · cases done
      exact .same fun _ _ => ⟨by simp [Subscribes], fun _ => by simp [Leaves]⟩
    next mount found =>
      cases done
      refine .insert rfl (fun pid => ?_) (fun _ _ _ => by simp [Subscribes, Leaves]) fun bounded => bounded path mount found
      rw [Rtsp.subscribed_of_lookup found]
      simp [Subscribes, Leaves]
  | down pid =>
    cases done
    exact handled_down pid

/-- And it is survived. -/
theorem handle_of_orderly (orderly : server.Orderly request) : ∃ reply sent after,
    server.handle request = some (reply, sent, after) := by
  cases request with
  | registerMountpoint roomId streamType opts =>
    obtain ⟨path, own, _⟩ := orderly
    rw [Rtsp.handle, show buildMountpointPath roomId streamType opts = some path from own, Option.bind_eq_bind,
      Option.bind_some]
    split
    · exact ⟨_, _, _, rfl⟩
    · exact ⟨_, _, _, rfl⟩
  | removeMountpoint path =>
    rw [Rtsp.handle]
    split
    · exact ⟨_, _, _, rfl⟩
    · exact ⟨_, _, _, rfl⟩
  | subscribe path pid =>
    rw [Rtsp.handle]
    split
    · exact ⟨_, _, _, rfl⟩
    · split
      · exact ⟨_, _, _, rfl⟩
      · exact ⟨_, _, _, rfl⟩
  | unsubscribe path pid =>
    obtain ⟨mount, found⟩ := Option.isSome_iff_exists.mp orderly
    rw [Rtsp.handle, found]
    exact ⟨_, _, _, rfl⟩
  | listMountpoints | down => exact ⟨_, _, _, rfl⟩
  | getSdp path | injectRtp path =>
    rw [Rtsp.handle]
    split
    · exact ⟨_, _, _, rfl⟩
    · exact ⟨_, _, _, rfl⟩

end Handling

theorem Exact.start (maxMountpoints maxSubscribersPerMount : Nat) :
    Exact (Served.start maxMountpoints maxSubscribersPerMount : Served Pid) where
  subscribers path pid := by
    refine iff_of_false (Rtsp.not_subscribed_of_lookup rfl) ?_
    rintro ⟨past, event, later, split, _⟩
    exact absurd split (by simp [Served.start])
  bounded path mount found := by cases found

section Serving
variable [DecidableEq Pid] {before after : Served Pid} {request : Request Pid}

theorem exits (taken : Serves before request after) (raised : before.server.handle request = none) :
    ¬ Survives before request after := by
  intro survives
  have again : after.starts = before.starts + 1 := by rw [← taken, Served.serve, raised]
  exact absurd (survives.running.symm.trans again) (Nat.succ_ne_self _).symm

/-- A path that is registered again loses its subscribers. -/
theorem registered_again {roomId : String} {streamType : StreamType} {opts : MountOpts} {path : String} {pid : Pid}
    (exact : Exact before) (taken : Serves before (.registerMountpoint roomId streamType opts) after)
    (own : buildMountpointPath roomId streamType opts = some path) (there : before.server.Subscribed path pid)
    (room : ¬ before.server.maxMountpoints ≤ before.server.mountpoints.size) : ¬ Exact after := by
  intro exact'
  let mount : Mountpoint Pid := ⟨path, ∅, generateSdp path streamType opts, 0⟩
  have same : after = ⟨{ before.server with mountpoints := AList.insert path mount before.server.mountpoints }, before.starts,
      before.history ++ [(.registerMountpoint roomId streamType opts, some (.mounted path))]⟩ := by
    rw [← taken, Served.serve, Rtsp.handle, own, Option.bind_eq_bind, Option.bind_some, if_neg room]
    rfl
  have since : Since (Subscribes path pid) (Leaves path pid) after.history := by
    rw [same]
    exact ((exact.subscribers path pid).mp there).next (by simp [Leaves])
  have kept := (exact'.subscribers path pid).mpr since
  rw [same, Rtsp.subscribed_insert rfl, if_pos rfl] at kept
  exact absurd kept (AList.notMem_empty pid)

/-- A request keeps the account of the subscribers, and the server alive, exactly where it is in order. -/
theorem orderly_iff (exact : Exact before) (taken : Serves before request after) :
    before.server.Orderly request ↔ Survives before request after ∧ Exact after := by
  constructor
  · intro orderly
    obtain ⟨reply, sent, server, done⟩ := handle_of_orderly orderly
    have handled := handled_of_orderly orderly done
    have same : after = ⟨server, before.starts, before.history ++ [(request, some reply)]⟩ := by
      rw [← taken, Served.serve, done]
    subst same
    refine ⟨⟨rfl, handled.others⟩, fun path pid => ?_, fun path mount found => ?_⟩
    · rw [handled.moves, exact.subscribers, Since.snoc_iff]
    · rw [handled.limit]
      exact handled.bounded exact.bounded path mount found
  · rintro ⟨survives, exact'⟩
    cases request with
    | registerMountpoint roomId streamType opts =>
      cases own : buildMountpointPath roomId streamType opts with
      | none => exact absurd survives (exits taken (by rw [Rtsp.handle, own]; rfl))
      | some path =>
        refine ⟨path, own, fun pid there => ?_⟩
        by_contra room
        exact registered_again exact taken own there room exact'
    | unsubscribe path pid =>
      by_contra missing
      refine absurd survives (exits taken ?_)
      rw [Rtsp.handle, Option.not_isSome_iff_eq_none.mp missing]
    | _ => trivial

/-- A run keeps the server alive and the account of its subscribers exact throughout if and only if each of its requests
is in order. -/
theorem subscribers_exact_iff (maxMountpoints maxSubscribersPerMount : Nat) (requests : List (Request Pid))
    (last : Served Pid) :
    Run (fun before request after => Serves before request after ∧ Survives before request after ∧ Exact after)
        (.start maxMountpoints maxSubscribersPerMount) requests last ↔
      Run (Guarded (fun served => served.server.Orderly) Serves) (.start maxMountpoints maxSubscribersPerMount)
        requests last := by
  refine (Run.guarded_iff (fun _ => True) ⟨trivial, .start _ _⟩ (fun _ _ => trivial) ?_).symm
  exact fun _ exact taken => orderly_iff exact taken

end Serving

/-- Two processes on the speaker of a room. -/
def twoViewers : List (Request Nat) :=
  [.registerMountpoint "r" .speaker ⟨none, none, none⟩, .subscribe "/live/room-r/speaker" 1,
    .subscribe "/live/room-r/speaker" 2]

/-- Registered once more, the speaker has no subscribers; unsubscribed from before it is there, it ends the server. -/
theorem viewers_lost :
    (∃ last, Run Serves (.start 500 5000) (twoViewers ++ [.registerMountpoint "r" .speaker ⟨none, none, none⟩]) last ∧
      ¬ Exact last) ∧
    ∃ last, Run Serves (.start 500 5000) [.unsubscribe "/live/room-r/speaker" (1 : Nat)] last ∧ last.starts = 2 := by
  refine ⟨⟨_, run_foldl .., fun exact => ?_⟩, _, run_foldl .., rfl⟩
  have since : Since (Subscribes "/live/room-r/speaker" 1) (Leaves "/live/room-r/speaker" 1) _ :=
    ⟨[(.registerMountpoint "r" .speaker ⟨none, none, none⟩, some (.mounted "/live/room-r/speaker"))], _,
      [(.subscribe "/live/room-r/speaker" 2, some .ok),
        (.registerMountpoint "r" .speaker ⟨none, none, none⟩, some (.mounted "/live/room-r/speaker"))],
      rfl, rfl, by simp [Leaves]⟩
  obtain ⟨mount, found, member⟩ := (exact.subscribers "/live/room-r/speaker" 1).mpr since
  cases found
  exact absurd member (AList.notMem_empty 1)

end Burble.Transport
