import Burble.Media.Engine

namespace Burble.Media

/-- Nothing went out while its sender was muted: the engine handed nothing of his to a peer or
a mountpoint, and whatever a peer's process sent on was handed to it while he was not. -/
structure MuteEnforced (state : MediaState) : Prop where
  engine : ∀ egress ∈ state.egress, egress.senderMuted = false
  peers : ∀ sent ∈ state.sent, .forward sent.toPeerId sent.fromPeerId sent.packet false ∈ state.egress

/-- A packet of a muted sender is dropped with the mailbox full, or has nowhere to go: the
session has no other peer and no mountpoint. -/
def Suppressed (state : MediaState) : MediaLabel → Prop
  | .distributeRtp room fromPeerId _ mailboxLen => state.isMuted room fromPeerId = true →
      maxMailboxSize < mailboxLen ∨ ∀ session ∈ state.sessions.lookup room,
        (∀ peerId ∈ session.peers.keys, peerId = fromPeerId) ∧ session.rtspMountpoint = none
  | _ => True

/-- What is in a peer's mailbox to be forwarded, and what has been sent, came from the engine. -/
structure Traced (state : MediaState) : Prop where
  mail : ∀ peerId process fromPeerId packet, state.processes.lookup peerId = some process →
    .forwardRtp fromPeerId packet ∈ process.mailbox → ∃ muted, .forward peerId fromPeerId packet muted ∈ state.egress
  sent : ∀ sent ∈ state.sent, ∃ muted, .forward sent.toPeerId sent.fromPeerId sent.packet muted ∈ state.egress

namespace MediaState

@[simp] theorem cast_egress (state : MediaState) (peerId : PeerId) (message : PeerMessage) :
    (state.cast peerId message).egress = state.egress := by
  unfold cast
  split <;> rfl

@[simp] theorem cast_sent (state : MediaState) (peerId : PeerId) (message : PeerMessage) :
    (state.cast peerId message).sent = state.sent := by
  unfold cast
  split <;> rfl

@[simp] theorem castAll_egress (state : MediaState) (peerIds : List PeerId) (message : PeerMessage) :
    (state.castAll peerIds message).egress = state.egress := by
  unfold castAll
  induction peerIds generalizing state with
  | nil => rfl
  | cons peerId rest ih => rw [List.foldl_cons, ih, cast_egress]

@[simp] theorem stopProcess_egress (state : MediaState) (peerId : PeerId) :
    (state.stopProcess peerId).egress = state.egress := by
  unfold stopProcess
  split <;> rfl

@[simp] theorem startProcess_egress (state : MediaState) (peerId : PeerId) (existingPeers : List PeerId) :
    (state.startProcess peerId existingPeers).egress = state.egress := by
  unfold startProcess
  split <;> rfl

/-- Where a packet goes. -/
def routes (state : MediaState) (room : RoomId) (fromPeerId : PeerId) (packet : Packet) : List Egress :=
  match state.sessions.lookup room with
  | none => []
  | some session =>
    ((session.peers.keys.filter fun id => id ≠ fromPeerId).map fun peerId =>
      .forward peerId fromPeerId packet (state.isMuted room fromPeerId)) ++
      session.rtspMountpoint.toList.map fun mountpoint =>
        .inject mountpoint fromPeerId packet (state.isMuted room fromPeerId)

theorem foldl_forwardTo (state : MediaState) (room : RoomId) (fromPeerId : PeerId) (packet : Packet)
    (peerIds : List PeerId) :
    (peerIds.foldl (forwardTo room fromPeerId packet) state).sessions = state.sessions ∧
      (peerIds.foldl (forwardTo room fromPeerId packet) state).egress = state.egress ++
        peerIds.map fun peerId => .forward peerId fromPeerId packet (state.isMuted room fromPeerId) := by
  induction peerIds generalizing state with
  | nil => exact ⟨rfl, (List.append_nil _).symm⟩
  | cons peerId rest ih =>
    have sessions : (forwardTo room fromPeerId packet state peerId).sessions = state.sessions := cast_sessions _ _ _
    have egress : (forwardTo room fromPeerId packet state peerId).egress = state.egress ++
        [.forward peerId fromPeerId packet (state.isMuted room fromPeerId)] := by
      simp only [forwardTo, cast_egress, isMuted, cast_sessions]
    have same : (forwardTo room fromPeerId packet state peerId).isMuted room fromPeerId =
        state.isMuted room fromPeerId := by
      rw [isMuted, sessions, isMuted]
    obtain ⟨kept, grown⟩ := ih (forwardTo room fromPeerId packet state peerId)
    refine ⟨kept.trans sessions, ?_⟩
    rw [List.foldl_cons, grown, same, egress, List.append_assoc, List.singleton_append, List.map_cons]

theorem distributeToPeers_egress (state : MediaState) (room : RoomId) (fromPeerId : PeerId) (packet : Packet) :
    (state.distributeToPeers room fromPeerId packet).egress = state.egress ++ state.routes room fromPeerId packet := by
  unfold distributeToPeers routes
  cases found : state.sessions.lookup room with
  | none => exact (List.append_nil _).symm
  | some session =>
    obtain ⟨sessions, egress⟩ := foldl_forwardTo state room fromPeerId packet
      (session.peers.keys.filter fun id => id ≠ fromPeerId)
    cases mountpoint : session.rtspMountpoint with
    | none => simpa only [mountpoint, Option.toList_none, List.map_nil, List.append_nil] using egress
    | some path =>
      simp only [injectRtp, mountpoint, egress, isMuted, sessions, Option.toList_some, List.map_singleton,
        List.append_assoc]

theorem routes_muted {state : MediaState} {room : RoomId} {fromPeerId : PeerId} {packet : Packet} :
    (∀ egress ∈ state.routes room fromPeerId packet, egress.senderMuted = false) ↔
      (state.isMuted room fromPeerId = true → ∀ session ∈ state.sessions.lookup room,
        (∀ peerId ∈ session.peers.keys, peerId = fromPeerId) ∧ session.rtspMountpoint = none) := by
  unfold routes
  cases found : state.sessions.lookup room with
  | none => simp
  | some session =>
    cases muted : state.isMuted room fromPeerId with
    | false =>
      refine iff_of_true (fun egress member => ?_) (fun absent => absurd absent (by decide))
      rcases List.mem_append.mp member with forwarded | injected
      · obtain ⟨peerId, _, rfl⟩ := List.mem_map.mp forwarded
        rfl
      · obtain ⟨path, _, rfl⟩ := List.mem_map.mp injected
        rfl
    | true =>
      constructor
      · rintro quiet - _ ⟨⟩
        refine ⟨fun peerId member => ?_, Option.eq_none_iff_forall_not_mem.mpr fun path atPath => ?_⟩
        · by_contra other
          have heard := quiet (.forward peerId fromPeerId packet true) (List.mem_append_left _
            (List.mem_map_of_mem (List.mem_filter.mpr ⟨member, decide_eq_true other⟩)))
          cases heard
        · have heard := quiet (.inject path fromPeerId packet true) (List.mem_append_right _
            (List.mem_map_of_mem (Option.mem_toList.mpr atPath)))
          cases heard
      · intro alone egress member
        obtain ⟨only, mountpoint⟩ := alone rfl session rfl
        rcases List.mem_append.mp member with forwarded | injected
        · obtain ⟨peerId, among, _⟩ := List.mem_map.mp forwarded
          obtain ⟨listed, other⟩ := List.mem_filter.mp among
          exact absurd (only peerId listed) (of_decide_eq_true other)
        · rw [mountpoint] at injected
          cases injected

/-- What a step sends out. -/
def emitted (state : MediaState) : MediaLabel → List Egress
  | .distributeRtp room fromPeerId packet mailboxLen =>
    if mailboxLen > maxMailboxSize then [] else state.routes room fromPeerId packet
  | _ => []

theorem emitted_muted {state : MediaState} {label : MediaLabel} :
    (∀ egress ∈ state.emitted label, egress.senderMuted = false) ↔ Suppressed state label := by
  cases label with
  | distributeRtp room fromPeerId packet mailboxLen =>
    simp only [emitted, Suppressed]
    by_cases full : mailboxLen > maxMailboxSize
    · rw [if_pos full]
      exact iff_of_true (fun _ member => absurd member List.not_mem_nil) fun _ => .inl full
    · rw [if_neg full, routes_muted]
      exact forall_congr' fun _ => (or_iff_right full).symm
  | _ => exact iff_of_true (fun _ member => absurd member List.not_mem_nil) trivial

end MediaState

theorem mediaStep_egress (state : MediaState) (label : MediaLabel) :
    (mediaStep state label).egress = state.egress ++ state.emitted label := by
  have quiet {after : MediaState} (same : after.egress = state.egress) : after.egress = state.egress ++ [] :=
    same.trans (List.append_nil _).symm
  cases label with
  | distributeRtp room fromPeerId packet mailboxLen =>
    simp only [mediaStep, MediaState.emitted]
    split
    · exact quiet rfl
    · exact MediaState.distributeToPeers_egress _ _ _ _
  | createSession room privacy mountpoint enabled =>
    refine quiet ?_
    simp only [mediaStep, MediaState.createSession]
    split <;> rfl
  | destroySession room => exact quiet rfl
  | addPeer room peerId muted supervisorUp =>
    refine quiet ?_
    simp only [mediaStep, MediaState.addPeer]
    split
    · rfl
    · rw [MediaState.castAll_egress]
      split
      · exact MediaState.startProcess_egress _ _ _
      · rfl
  | removePeer room peerId =>
    refine quiet ?_
    simp only [mediaStep, MediaState.removePeer]
    split
    · rfl
    · rw [MediaState.castAll_egress, MediaState.stopProcess_egress]
  | answer room peerId accepted =>
    refine quiet ?_
    simp only [mediaStep, MediaState.answer]
    split
    · exact MediaState.cast_egress _ _ _
    · rfl
  | setAudio room peerId audioOpts =>
    refine quiet ?_
    simp only [mediaStep, MediaState.setAudio]
    split
    · rfl
    · split <;> rfl
  | autoUnmute userId room =>
    refine quiet ?_
    simp only [mediaStep, MediaState.autoUnmute]
    split <;> rfl
  | peerHandles peerId =>
    refine quiet ?_
    simp only [mediaStep, MediaState.peerHandles]
    split
    · rfl
    · split <;> rfl

namespace Traced
variable {state : MediaState}

theorem start : Traced .start where
  mail _ _ _ _ found := by cases found
  sent _ member := absurd member List.not_mem_nil

/-- The sessions do not matter. -/
theorem sessions (traced : Traced state) (sessions : FiniteMap RoomId Session) : Traced { state with sessions } :=
  ⟨traced.mail, traced.sent⟩

theorem egress (traced : Traced state) (more : List Egress) : Traced { state with egress := state.egress ++ more } where
  mail peerId process fromPeerId packet found member := by
    obtain ⟨muted, listed⟩ := traced.mail peerId process fromPeerId packet found member
    exact ⟨muted, List.mem_append_left _ listed⟩
  sent sent member := by
    obtain ⟨muted, listed⟩ := traced.sent sent member
    exact ⟨muted, List.mem_append_left _ listed⟩

/-- One process is replaced, its new mailbox to be accounted for. -/
theorem insert (traced : Traced state) (peerId : PeerId) (process : PeerProcess)
    (accounted : ∀ fromPeerId packet, .forwardRtp fromPeerId packet ∈ process.mailbox →
      ∃ muted, .forward peerId fromPeerId packet muted ∈ state.egress) :
    Traced { state with processes := AList.insert peerId process state.processes } where
  mail other found fromPeerId packet held member := by
    rw [FiniteMap.lookup_insert_if] at held
    split_ifs at held with same
    · cases held
      exact same ▸ accounted fromPeerId packet member
    · exact traced.mail other found fromPeerId packet held member
  sent := traced.sent

theorem cast (traced : Traced state) (peerId : PeerId) (message : PeerMessage)
    (accounted : ∀ fromPeerId packet, message = .forwardRtp fromPeerId packet →
      ∃ muted, .forward peerId fromPeerId packet muted ∈ state.egress) : Traced (state.cast peerId message) := by
  unfold MediaState.cast
  cases found : state.processes.lookup peerId with
  | none => exact traced
  | some process =>
    refine traced.insert peerId _ fun fromPeerId packet member => ?_
    rcases List.mem_append.mp member with earlier | now
    · exact traced.mail peerId process fromPeerId packet found earlier
    · exact accounted fromPeerId packet (List.mem_singleton.mp now).symm

theorem castAll (traced : Traced state) (peerIds : List PeerId) (message : PeerMessage)
    (plain : ∀ fromPeerId packet, message ≠ .forwardRtp fromPeerId packet) : Traced (state.castAll peerIds message) := by
  unfold MediaState.castAll
  induction peerIds generalizing state with
  | nil => exact traced
  | cons peerId rest ih =>
    exact ih (traced.cast peerId message fun fromPeerId packet same => absurd same (plain fromPeerId packet))

theorem handOn (traced : Traced state) (toPeerId : PeerId) (packets : List (PeerId × Packet))
    (accounted : ∀ fromPeerId packet, (fromPeerId, packet) ∈ packets →
      ∃ muted, .forward toPeerId fromPeerId packet muted ∈ state.egress) : Traced (state.handOn toPeerId packets) where
  mail := traced.mail
  sent sent member := by
    rcases List.mem_append.mp member with earlier | now
    · exact traced.sent sent earlier
    · obtain ⟨⟨fromPeerId, packet⟩, among, rfl⟩ := List.mem_map.mp now
      exact accounted fromPeerId packet among

theorem forwardTo (traced : Traced state) (room : RoomId) (fromPeerId : PeerId) (packet : Packet) (peerId : PeerId) :
    Traced (MediaState.forwardTo room fromPeerId packet state peerId) := by
  have muted : (state.cast peerId (.forwardRtp fromPeerId packet)).isMuted room fromPeerId =
      state.isMuted room fromPeerId := by
    rw [MediaState.isMuted, MediaState.cast_sessions, MediaState.isMuted]
  have listed := (traced.egress [.forward peerId fromPeerId packet (state.isMuted room fromPeerId)]).cast peerId
    (.forwardRtp fromPeerId packet) fun _ _ same => by
      cases same
      exact ⟨_, List.mem_append_right _ List.mem_cons_self⟩
  have swap (egress : List Egress) : { state with egress }.cast peerId (.forwardRtp fromPeerId packet) =
      { state.cast peerId (.forwardRtp fromPeerId packet) with egress } := by
    unfold MediaState.cast
    cases state.processes.lookup peerId <;> rfl
  simp only [MediaState.forwardTo, muted, MediaState.cast_egress]
  exact swap _ ▸ listed

theorem distributeToPeers (traced : Traced state) (room : RoomId) (fromPeerId : PeerId) (packet : Packet) :
    Traced (state.distributeToPeers room fromPeerId packet) := by
  have every (peerIds : List PeerId) {state : MediaState} (traced : Traced state) :
      Traced (peerIds.foldl (MediaState.forwardTo room fromPeerId packet) state) := by
    induction peerIds generalizing state with
    | nil => exact traced
    | cons peerId rest ih => exact ih (traced.forwardTo room fromPeerId packet peerId)
  unfold MediaState.distributeToPeers
  split
  · exact traced
  · split
    · exact (every _ traced).egress _
    · exact every _ traced

theorem stopProcess (traced : Traced state) (peerId : PeerId) : Traced (state.stopProcess peerId) := by
  unfold MediaState.stopProcess
  cases found : state.processes.lookup peerId with
  | none => exact traced
  | some process =>
    have erased : Traced { state with processes := AList.erase peerId state.processes } := by
      refine ⟨fun other process fromPeerId packet held member => ?_, traced.sent⟩
      rw [FiniteMap.lookup_erase_if] at held
      split_ifs at held
      exact traced.mail other process fromPeerId packet held member
    refine erased.handOn peerId _ fun fromPeerId packet member => ?_
    exact traced.mail peerId process fromPeerId packet found (PeerProcess.handsOn_forwarded member)

theorem startProcess (traced : Traced state) (peerId : PeerId) (existingPeers : List PeerId) :
    Traced (state.startProcess peerId existingPeers) := by
  unfold MediaState.startProcess
  split
  · exact traced
  · refine traced.insert peerId _ fun fromPeerId packet member => ?_
    rw [PeerProcess.init_mailbox] at member
    cases List.mem_singleton.mp member

theorem peerHandles (traced : Traced state) (peerId : PeerId) : Traced (state.peerHandles peerId) := by
  unfold MediaState.peerHandles
  cases found : state.processes.lookup peerId with
  | none => exact traced
  | some process =>
    cases mail : process.mailbox with
    | nil => simpa only [mail] using traced
    | cons message rest =>
      simp only [mail]
      have known := traced.mail peerId process
      rw [mail] at known
      refine (traced.insert peerId _ fun fromPeerId packet member => ?_).handOn peerId _ fun fromPeerId packet member => ?_
      · exact known fromPeerId packet found (List.mem_cons_of_mem _ member)
      · rw [PeerProcess.handle_forwarded member] at known
        exact known fromPeerId packet found List.mem_cons_self

theorem step (traced : Traced state) (label : MediaLabel) : Traced (mediaStep state label) := by
  cases label with
  | createSession room privacy mountpoint enabled =>
    simp only [mediaStep, MediaState.createSession]
    split
    · exact traced
    · exact traced.sessions _
  | destroySession room => exact traced.sessions _
  | addPeer room peerId muted supervisorUp =>
    simp only [mediaStep, MediaState.addPeer]
    split
    · exact traced
    · refine Traced.sessions (castAll ?_ _ _ fun _ _ => PeerMessage.noConfusion) _
      split
      · exact traced.startProcess _ _
      · exact traced
  | removePeer room peerId =>
    simp only [mediaStep, MediaState.removePeer]
    split
    · exact traced
    · exact ((traced.stopProcess _).castAll _ _ fun _ _ => PeerMessage.noConfusion).sessions _
  | answer room peerId accepted =>
    simp only [mediaStep, MediaState.answer]
    split
    · exact traced.cast _ _ fun _ _ => PeerMessage.noConfusion
    · exact traced
  | setAudio room peerId audioOpts =>
    simp only [mediaStep, MediaState.setAudio]
    split
    · exact traced
    · split
      · exact traced
      · exact traced.sessions _
  | autoUnmute userId room =>
    simp only [mediaStep, MediaState.autoUnmute]
    split
    · exact traced.sessions _
    · exact traced
  | distributeRtp room fromPeerId packet mailboxLen =>
    simp only [mediaStep]
    split
    · exact traced
    · exact traced.distributeToPeers _ _ _
  | peerHandles peerId => exact traced.peerHandles peerId

end Traced

theorem MediaRun.traced {labels : List MediaLabel} {last : MediaState} (run : MediaRun .start labels last) :
    Traced last := by
  refine run.invariant .start fun holds taken => ?_
  rw [← taken]
  exact holds.step _

/-- What the engine sends out in a run, step by step. -/
theorem egress_unmuted_iff {labels : List MediaLabel} {last : MediaState} (run : MediaRun .start labels last) :
    (∀ egress ∈ last.egress, egress.senderMuted = false) ↔
      Run (Guarded Suppressed fun before label after => mediaStep before label = after) .start labels last := by
  induction run with
  | start => exact iff_of_true (fun _ member => absurd member List.not_mem_nil) .start
  | @next labels before label after past taken ih =>
    subst taken
    rw [mediaStep_egress]
    simp only [List.mem_append, or_imp, forall_and]
    rw [ih, MediaState.emitted_muted]
    constructor
    · rintro ⟨earlier, suppressed⟩
      exact earlier.next ⟨suppressed, rfl⟩
    · intro whole
      obtain ⟨middle, earlier, suppressed, _⟩ := Run.snoc_iff.mp whole
      have same : middle = before := (earlier.mono fun taken => taken.2).unique (fun one other => one.symm.trans other) past
      subst same
      exact ⟨earlier, suppressed⟩

/-- A run keeps what goes out unmuted exactly when at each distribution of a muted sender's
packet it is dropped or has nowhere to go. -/
theorem mute_enforced_iff {labels : List MediaLabel} {last : MediaState} (run : MediaRun .start labels last) :
    MuteEnforced last ↔
      Run (Guarded Suppressed fun before label after => mediaStep before label = after) .start labels last := by
  rw [← egress_unmuted_iff run]
  refine ⟨fun enforced => enforced.engine, fun unmuted => ⟨unmuted, fun sent member => ?_⟩⟩
  obtain ⟨muted, listed⟩ := run.traced.sent sent member
  have quiet : muted = false := unmuted _ listed
  exact quiet ▸ listed

/-- Ann and Bob in the lobby, and Ann is muted. -/
def annMuted : List MediaLabel :=
  [.createSession "lobby" none none false, .addPeer "lobby" "ann" none true, .addPeer "lobby" "bob" none true,
    .setAudio "lobby" "ann" [.muted true]]

/-- Bob is gone by the time Ann speaks. -/
def bobLeft : List MediaLabel := annMuted ++ [.removePeer "lobby" "bob", .distributeRtp "lobby" "ann" [1] 0]

theorem bobLeft_enforced : MuteEnforced (bobLeft.foldl mediaStep .start) ↔
    Run (Guarded Suppressed fun before label after => mediaStep before label = after) .start bobLeft
      (bobLeft.foldl mediaStep .start) :=
  mute_enforced_iff (run_foldl mediaStep bobLeft .start)

/-- Ann speaks, and Bob's process sends it on. -/
def annHeard : List MediaLabel :=
  annMuted ++ [.distributeRtp "lobby" "ann" [1] 0, .peerHandles "bob", .peerHandles "bob"]

theorem muted_ann_heard : ∃ last, MediaRun .start annHeard last ∧ last.isMuted "lobby" "ann" = true ∧
    last.sent = [⟨"bob", "ann", [1]⟩] ∧ ¬ MuteEnforced last := by
  have heard : (annHeard.foldl mediaStep .start).egress = [.forward "bob" "ann" [1] true] := by decide +kernel
  refine ⟨_, run_foldl mediaStep annHeard .start, by decide +kernel, by decide +kernel, fun enforced => ?_⟩
  have quiet := enforced.engine (.forward "bob" "ann" [1] true) (by rw [heard]; exact List.mem_cons_self)
  cases quiet

end Burble.Media
