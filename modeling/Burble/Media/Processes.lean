import Mathlib.Data.Finset.Insert
import Mathlib.Data.Finset.Erase
import Burble.Media.Engine

namespace Burble.Media

/-- The engine with its peers' processes, and the peers that have a pipeline. -/
structure Host where
  media : MediaState
  pipelines : Finset PeerId

/-- The calls that make and end sessions and peers. -/
inductive EngineCall
  | createSession (room : RoomId) (privacy : Option PrivacyMode) (rtspMountpoint : Option String)
      (rtspBroadcastEnabled : Bool)
  | destroySession (room : RoomId)
  | addPeer (room : RoomId) (peerId : PeerId) (muted : Option Bool)
  | removePeer (room : RoomId) (peerId : PeerId)
  deriving DecidableEq

/-- The supervisors start what they are asked to. -/
def EngineCall.label : EngineCall → MediaLabel
  | createSession room privacy rtspMountpoint rtspBroadcastEnabled =>
    .createSession room privacy rtspMountpoint rtspBroadcastEnabled
  | destroySession room => .destroySession room
  | addPeer room peerId muted => .addPeer room peerId muted true
  | removePeer room peerId => .removePeer room peerId

namespace Host

def start : Host := ⟨.start, ∅⟩

/-- A pipeline is registered under its peer's id, and is not started where that is taken. -/
def pipelinesAfter (host : Host) : EngineCall → Finset PeerId
  | .addPeer room peerId _ =>
    if (host.media.sessions.lookup room).isSome then insert peerId host.pipelines else host.pipelines
  | .removePeer room peerId =>
    if (host.media.sessions.lookup room).isSome then host.pipelines.erase peerId else host.pipelines
  | _ => host.pipelines

def call (host : Host) (request : EngineCall) : Host :=
  ⟨mediaStep host.media request.label, host.pipelinesAfter request⟩

def HasProcess (host : Host) (peerId : PeerId) : Prop := (host.media.processes.lookup peerId).isSome = true

instance (host : Host) (peerId : PeerId) : Decidable (host.HasProcess peerId) := inferInstanceAs (Decidable (_ = true))

def Member (host : Host) (room : RoomId) (peerId : PeerId) : Prop :=
  ∃ session ∈ host.media.sessions.lookup room, (session.peers.lookup peerId).isSome = true

/-- In some live session. -/
def Live (host : Host) (peerId : PeerId) : Prop := ∃ room, host.Member room peerId

end Host

/-- What runs is what is in some session. -/
structure Accounted (host : Host) : Prop where
  process : ∀ peerId, host.HasProcess peerId ↔ host.Live peerId
  pipeline : ∀ peerId, peerId ∈ host.pipelines ↔ host.Live peerId

/-- A removal stops nothing of a peer that is in other rooms only, and of the members of a session
nothing runs once it is destroyed. -/
def EndsItsOwn (before : Host) (request : EngineCall) (after : Host) : Prop :=
  match request with
  | .removePeer room peerId => before.Live peerId → ¬ before.Member room peerId →
      after.HasProcess peerId ∧ peerId ∈ after.pipelines
  | .destroySession room => ∀ peerId, before.Member room peerId → ¬ after.HasProcess peerId ∧ peerId ∉ after.pipelines
  | _ => True

/-- A session is destroyed when it is empty, and a peer is removed that is in no other room. -/
def Orderly (host : Host) : EngineCall → Prop
  | .destroySession room => ∀ peerId, ¬ host.Member room peerId
  | .removePeer room peerId => (host.media.sessions.lookup room).isSome = true →
      ∀ other, other ≠ room → ¬ host.Member other peerId
  | _ => True

abbrev Calls (before : Host) (request : EngineCall) (after : Host) : Prop := before.call request = after

namespace MediaState

theorem cast_processes (state : MediaState) (peerId other : PeerId) (message : PeerMessage) :
    ((state.cast peerId message).processes.lookup other).isSome = (state.processes.lookup other).isSome := by
  unfold cast
  split
  next process found =>
    rw [FiniteMap.lookup_insert_if]
    split
    next same => rw [same, found]; rfl
    next => rfl
  next => rfl

theorem castAll_kept (state : MediaState) (peerIds : List PeerId) (message : PeerMessage) :
    (state.castAll peerIds message).sessions = state.sessions ∧ ∀ other,
      ((state.castAll peerIds message).processes.lookup other).isSome = (state.processes.lookup other).isSome := by
  unfold castAll
  induction peerIds generalizing state with
  | nil => exact ⟨rfl, fun _ => rfl⟩
  | cons peerId rest ih =>
    obtain ⟨sessions, processes⟩ := ih (state.cast peerId message)
    rw [List.foldl_cons]
    exact ⟨sessions.trans (cast_sessions ..), fun other => (processes other).trans (cast_processes ..)⟩

theorem startProcess_kept (state : MediaState) (peerId : PeerId) (existingPeers : List PeerId) :
    (state.startProcess peerId existingPeers).sessions = state.sessions ∧ ∀ other,
      ((state.startProcess peerId existingPeers).processes.lookup other).isSome = true ↔
        other = peerId ∨ (state.processes.lookup other).isSome = true := by
  unfold startProcess
  split
  next process found =>
    refine ⟨rfl, fun other => ⟨.inr, ?_⟩⟩
    rintro (rfl | there)
    · rw [found]; rfl
    · exact there
  next =>
    refine ⟨rfl, fun other => ?_⟩
    rw [FiniteMap.lookup_insert_if]
    split
    next same => simp [same]
    next different => simp [different]

theorem stopProcess_kept (state : MediaState) (peerId : PeerId) :
    (state.stopProcess peerId).sessions = state.sessions ∧ ∀ other,
      ((state.stopProcess peerId).processes.lookup other).isSome = true ↔
        other ≠ peerId ∧ (state.processes.lookup other).isSome = true := by
  unfold stopProcess
  split
  next process found =>
    refine ⟨rfl, fun other => ?_⟩
    simp only [handOn, FiniteMap.lookup_erase_if]
    split
    next same => simp [same]
    next different => simp [different]
  next missing =>
    refine ⟨rfl, fun other => ⟨fun there => ⟨?_, there⟩, And.right⟩⟩
    rintro rfl
    rw [missing] at there
    cases there

end MediaState

namespace Host
variable {host : Host} {room : RoomId} {peerId : PeerId}

/-- Membership after the sessions have been changed at one room. -/
theorem member_insert {after : Host} {session : Session}
    (sessions : after.media.sessions = AList.insert room session host.media.sessions) (other : RoomId) (p : PeerId) :
    after.Member other p ↔
      if other = room then (session.peers.lookup p).isSome = true else host.Member other p := by
  unfold Member
  rw [sessions, FiniteMap.lookup_insert_if]
  split <;> simp

theorem member_iff_of_lookup {session : Session} (found : host.media.sessions.lookup room = some session) :
    host.Member room peerId ↔ (session.peers.lookup peerId).isSome = true := by
  unfold Member
  rw [found]
  simp

theorem not_member_of_lookup (missing : host.media.sessions.lookup room = none) : ¬ host.Member room peerId := by
  rintro ⟨session, found, _⟩
  rw [missing] at found
  cases found

/-- A call about a room without a session. -/
theorem call_missing {request : EngineCall} (missing : host.media.sessions.lookup room = none)
    (about : (∃ p muted, request = .addPeer room p muted) ∨ ∃ p, request = .removePeer room p) :
    host.call request = host := by
  rcases about with ⟨p, muted, rfl⟩ | ⟨p, rfl⟩
  · simp [call, EngineCall.label, mediaStep, MediaState.addPeer, pipelinesAfter, missing]
  · simp [call, EngineCall.label, mediaStep, MediaState.removePeer, pipelinesAfter, missing]

theorem call_createSession (room : RoomId) (privacy : Option PrivacyMode) (rtspMountpoint : Option String)
    (rtspBroadcastEnabled : Bool) :
    let after := host.call (.createSession room privacy rtspMountpoint rtspBroadcastEnabled)
    (∀ other p, after.Member other p ↔ host.Member other p) ∧ (∀ p, after.HasProcess p ↔ host.HasProcess p) ∧
      after.pipelines = host.pipelines := by
  by_cases there : (host.media.sessions.lookup room).isSome = true
  · have same : host.call (.createSession room privacy rtspMountpoint rtspBroadcastEnabled) = host := by
      simp [call, EngineCall.label, mediaStep, MediaState.createSession, pipelinesAfter, there]
    rw [same]
    exact ⟨fun _ _ => Iff.rfl, fun _ => Iff.rfl, rfl⟩
  · have media : (host.call (.createSession room privacy rtspMountpoint rtspBroadcastEnabled)).media =
        { host.media with
          sessions := AList.insert room
            ⟨∅, privacy.getD .turnOnly, if rtspBroadcastEnabled then rtspMountpoint else none⟩
            host.media.sessions } := by
      simp only [call, EngineCall.label, mediaStep, MediaState.createSession, if_neg there]
    refine ⟨fun other p => ?_, fun p => ?_, rfl⟩
    · rw [member_insert (congrArg MediaState.sessions media)]
      split
      next same =>
        have missing : ¬ host.Member room p := not_member_of_lookup (Option.not_isSome_iff_eq_none.mp there)
        simp [same, missing]
      next => rfl
    · rw [HasProcess, media, HasProcess]

theorem call_destroySession (room : RoomId) :
    let after := host.call (.destroySession room)
    (∀ other p, after.Member other p ↔ other ≠ room ∧ host.Member other p) ∧
      (∀ p, after.HasProcess p ↔ host.HasProcess p) ∧ after.pipelines = host.pipelines := by
  refine ⟨fun other p => ?_, fun p => Iff.rfl, rfl⟩
  simp only [Member, call, EngineCall.label, mediaStep, FiniteMap.lookup_erase_if]
  split
  next same => simp [same]
  next different => simp [different]

theorem call_addPeer {session : Session} (found : host.media.sessions.lookup room = some session) (peerId : PeerId)
    (muted : Option Bool) :
    let after := host.call (.addPeer room peerId muted)
    (∀ other p, after.Member other p ↔ (other = room ∧ p = peerId) ∨ host.Member other p) ∧
      (∀ p, after.HasProcess p ↔ p = peerId ∨ host.HasProcess p) ∧ after.pipelines = insert peerId host.pipelines := by
  have started := host.media.startProcess_kept peerId session.peers.keys
  have told := (host.media.startProcess peerId session.peers.keys).castAll_kept session.peers.keys (.peerAdded peerId)
  have media : (host.call (.addPeer room peerId muted)).media =
      { (host.media.startProcess peerId session.peers.keys).castAll session.peers.keys (.peerAdded peerId) with
        sessions := AList.insert room { session with
          peers := AList.insert peerId ⟨muted.getD false,
            decide (session.privacyMode = .e2ee ∨ session.privacyMode = .maximum)⟩ session.peers }
          ((host.media.startProcess peerId session.peers.keys).castAll session.peers.keys (.peerAdded peerId)).sessions } := by
    simp only [call, EngineCall.label, mediaStep, MediaState.addPeer, found, if_true]
  refine ⟨fun other p => ?_, fun p => ?_, ?_⟩
  · rw [told.1, started.1] at media
    rw [member_insert (congrArg MediaState.sessions media), FiniteMap.lookup_insert_if]
    by_cases here : other = room
    · subst here
      rw [member_iff_of_lookup found]
      by_cases same : p = peerId <;> simp [same]
    · simp [here]
  · rw [HasProcess, media]
    exact (iff_of_eq (congrArg (· = true) (told.2 p))).trans (started.2 p)
  · simp [call, pipelinesAfter, found]

theorem call_removePeer {session : Session} (found : host.media.sessions.lookup room = some session) (peerId : PeerId) :
    let after := host.call (.removePeer room peerId)
    (∀ other p, after.Member other p ↔ host.Member other p ∧ ¬ (other = room ∧ p = peerId)) ∧
      (∀ p, after.HasProcess p ↔ p ≠ peerId ∧ host.HasProcess p) ∧ after.pipelines = host.pipelines.erase peerId := by
  have stopped := host.media.stopProcess_kept peerId
  have told := (host.media.stopProcess peerId).castAll_kept (AList.erase peerId session.peers).keys (.peerRemoved peerId)
  have media : (host.call (.removePeer room peerId)).media =
      { (host.media.stopProcess peerId).castAll (AList.erase peerId session.peers).keys (.peerRemoved peerId) with
        sessions := AList.insert room { session with peers := AList.erase peerId session.peers }
          ((host.media.stopProcess peerId).castAll (AList.erase peerId session.peers).keys
            (.peerRemoved peerId)).sessions } := by
    simp only [call, EngineCall.label, mediaStep, MediaState.removePeer, found]
  refine ⟨fun other p => ?_, fun p => ?_, ?_⟩
  · rw [told.1, stopped.1] at media
    rw [member_insert (congrArg MediaState.sessions media), FiniteMap.lookup_erase_if]
    by_cases here : other = room
    · subst here
      rw [member_iff_of_lookup found]
      by_cases same : p = peerId <;> simp [same]
    · simp [here]
  · rw [HasProcess, media]
    exact (iff_of_eq (congrArg (· = true) (told.2 p))).trans (stopped.2 p)
  · simp [call, pipelinesAfter, found]

end Host

namespace Accounted
variable {host : Host} {room : RoomId} {peerId : PeerId}

theorem start : Accounted .start := by
  have nobody (p : PeerId) : ¬ Host.start.Live p := by
    rintro ⟨room, session, found, _⟩
    cases found
  exact ⟨fun p => iff_of_false (by simp [Host.HasProcess, Host.start, MediaState.start]) (nobody p),
    fun p => iff_of_false (by simp [Host.start]) (nobody p)⟩

/-- Where a call leaves alone what runs and who is a member, nothing has to be kept. -/
theorem of_same {after : Host} (accounted : Accounted host) (members : ∀ other p, after.Member other p ↔ host.Member other p)
    (processes : ∀ p, after.HasProcess p ↔ host.HasProcess p) (pipelines : after.pipelines = host.pipelines) :
    Accounted after := by
  have live (p : PeerId) : after.Live p ↔ host.Live p := exists_congr fun room => members room p
  exact ⟨fun p => by rw [processes, live, accounted.process], fun p => by rw [pipelines, live, accounted.pipeline]⟩

theorem addPeer (accounted : Accounted host) (muted : Option Bool) :
    Accounted (host.call (.addPeer room peerId muted)) := by
  cases found : host.media.sessions.lookup room with
  | none =>
    rw [Host.call_missing found (.inl ⟨peerId, muted, rfl⟩)]
    exact accounted
  | some session =>
    obtain ⟨members, processes, pipelines⟩ := host.call_addPeer found peerId muted
    have live (p : PeerId) : (host.call (.addPeer room peerId muted)).Live p ↔ p = peerId ∨ host.Live p := by
      simp [Host.Live, members, exists_or]
    exact ⟨fun p => by rw [processes, live, accounted.process],
      fun p => by rw [pipelines, live, Finset.mem_insert, accounted.pipeline]⟩

theorem removePeer_iff (accounted : Accounted host) :
    Orderly host (.removePeer room peerId) ↔
      EndsItsOwn host (.removePeer room peerId) (host.call (.removePeer room peerId)) ∧
        Accounted (host.call (.removePeer room peerId)) := by
  cases found : host.media.sessions.lookup room with
  | none =>
    rw [Host.call_missing found (.inr ⟨peerId, rfl⟩)]
    refine iff_of_true (fun there => ?_) ⟨fun live _ => ⟨?_, ?_⟩, accounted⟩
    · rw [found] at there
      cases there
    · exact (accounted.process peerId).mpr live
    · exact (accounted.pipeline peerId).mpr live
  | some session =>
    obtain ⟨members, processes, pipelines⟩ := host.call_removePeer found peerId
    have stopped : ¬ (host.call (.removePeer room peerId)).HasProcess peerId := fun runs =>
      ((processes peerId).mp runs).1 rfl
    constructor
    · intro orderly
      have elsewhere := orderly (by rw [found]; rfl)
      have live (p : PeerId) : (host.call (.removePeer room peerId)).Live p ↔ p ≠ peerId ∧ host.Live p := by
        constructor
        · rintro ⟨other, member⟩
          obtain ⟨before, apart⟩ := (members other p).mp member
          refine ⟨fun same => ?_, other, before⟩
          subst same
          exact elsewhere other (fun here => apart ⟨here, rfl⟩) before
        · rintro ⟨different, other, before⟩
          exact ⟨other, (members other p).mpr ⟨before, fun both => different both.2⟩⟩
      refine ⟨fun ⟨other, member⟩ outside => ?_, ⟨fun p => ?_, fun p => ?_⟩⟩
      · by_cases here : other = room
        · exact absurd (here ▸ member) outside
        · exact absurd member (elsewhere other here)
      · rw [processes, live, accounted.process]
      · rw [pipelines, live, Finset.mem_erase, accounted.pipeline]
    · rintro ⟨_, after⟩ _ other away member
      exact stopped ((after.process peerId).mpr ⟨other, (members other peerId).mpr ⟨member, fun both => away both.1⟩⟩)

theorem destroySession_iff (accounted : Accounted host) :
    Orderly host (.destroySession room) ↔
      EndsItsOwn host (.destroySession room) (host.call (.destroySession room)) ∧
        Accounted (host.call (.destroySession room)) := by
  obtain ⟨members, processes, pipelines⟩ := host.call_destroySession room
  constructor
  · intro empty
    refine ⟨fun p member => absurd member (empty p), accounted.of_same (fun other p => ?_) processes pipelines⟩
    refine (members other p).trans (and_iff_right_of_imp fun member here => ?_)
    exact empty p (here ▸ member)
  · rintro ⟨ended, _⟩ p member
    exact (ended p member).1 ((processes p).mpr ((accounted.process p).mpr ⟨room, member⟩))

/-- A call keeps the account, and ends what is its own, exactly when it is orderly. -/
theorem call_iff {request : EngineCall} (accounted : Accounted host) :
    Orderly host request ↔ EndsItsOwn host request (host.call request) ∧ Accounted (host.call request) := by
  cases request with
  | createSession room privacy rtspMountpoint rtspBroadcastEnabled =>
    obtain ⟨members, processes, pipelines⟩ := host.call_createSession room privacy rtspMountpoint rtspBroadcastEnabled
    exact iff_of_true trivial ⟨trivial, accounted.of_same members processes pipelines⟩
  | destroySession room => exact accounted.destroySession_iff
  | addPeer room peerId muted => exact iff_of_true trivial ⟨trivial, accounted.addPeer muted⟩
  | removePeer room peerId => exact accounted.removePeer_iff

end Accounted

/-- A run keeps the account throughout, with every call ending what is its own, exactly when each of
its calls is orderly. -/
theorem engine_accounting_iff (requests : List EngineCall) (last : Host) :
    Run (fun before request after => Calls before request after ∧ EndsItsOwn before request after ∧ Accounted after)
        .start requests last ↔
      Run (Guarded Orderly Calls) .start requests last := by
  refine (Run.guarded_iff (fun _ => True) ⟨trivial, Accounted.start⟩ (fun _ _ => trivial) ?_).symm
  rintro before request _ - accounted rfl
  exact accounted.call_iff

/-- Ann in the lobby, beside an attic. -/
def annInLobby : List EngineCall :=
  [.createSession "attic" none none false, .createSession "lobby" none none false, .addPeer "lobby" "ann" none]

/-- She is in the attic as well and leaves it, or is removed from the attic without being there, or the
lobby is destroyed: the account is wrong after each. -/
theorem ann_unaccounted :
    (∃ host, Run Calls .start (annInLobby ++ [.addPeer "attic" "ann" none, .removePeer "attic" "ann"]) host ∧
      ¬ Accounted host) ∧
    (∃ host, Run Calls .start (annInLobby ++ [.removePeer "attic" "ann"]) host ∧ ¬ Accounted host) ∧
    ∃ host, Run Calls .start (annInLobby.tail ++ [.destroySession "lobby"]) host ∧ ¬ Accounted host := by
  refine ⟨⟨_, run_foldl .., fun accounted => ?_⟩, ⟨_, run_foldl .., fun accounted => ?_⟩, _, run_foldl .., ?_⟩
  · exact absurd ((accounted.process "ann").mpr ⟨"lobby", _, rfl, rfl⟩) (by decide)
  · exact absurd ((accounted.process "ann").mpr ⟨"lobby", _, rfl, rfl⟩) (by decide)
  · intro accounted
    obtain ⟨room, session, found, _⟩ := (accounted.process "ann").mp rfl
    have gone : (List.foldl Host.call .start (annInLobby.tail ++ [.destroySession "lobby"])).media.sessions.keys = [] :=
      rfl
    have kept := AList.mem_keys.mp (AList.lookup_isSome.mp (Option.isSome_of_mem found))
    rw [gone] at kept
    cases kept

end Burble.Media
