import Burble.E2EE.EpochLifetimes
import Burble.E2EE.RoomSystem

namespace Burble.E2EE
variable {PubKey PrivKey PairKey Key Blob : Type}

namespace RoomSystem
variable {s : RoomSystem PubKey PrivKey PairKey Key Blob} {crypto : IdealCrypto PubKey PrivKey PairKey Key Blob}
  {roomId : String}

/-- The key was sealed by this peer for that recipient, under some pairwise key. -/
def SealedBy (crypto : IdealCrypto PubKey PrivKey PairKey Key Blob) (roomId sender : String) (key : Key) (epoch : Nat)
    (recipient : String) (blob : Blob) : Prop :=
  ∃ pair, blob = crypto.sealGroupKey key pair roomId epoch sender recipient

/-- The epoch a reply carries. -/
def epochIn : Result PubKey PrivKey PairKey Key Blob → Option Nat
  | .registered epoch => some epoch
  | .keySet msg => some msg.epoch
  | _ => none

section acting
variable [DecidableEq PubKey] [DecidableEq PrivKey] [DecidableEq PairKey] [DecidableEq Key] [DecidableEq Blob]
  {event : RoomEvent PrivKey} {peerId : String} {piece : Event PubKey PrivKey PairKey Key Blob} {fresh : Key}
  {session : Session PubKey PrivKey PairKey Key Blob}

/-- A promise that settles with the server's word has a reply behind it. -/
theorem settles_reply {frameId : Nat} {frame : Frame PubKey PrivKey PairKey Key Blob}
    {choice : Choice PrivKey} {result : Result PubKey PrivKey PairKey Key Blob}
    (settled : s.settles crypto roomId peerId frameId frame choice = some result)
    (word : result = .accepted ∨ ∃ epoch, epochIn result = some epoch) :
    ∃ reply ∈ s.replies, reply.peerId = peerId ∧ reply.frame = frame ∧ reply.result = result := by
  unfold settles at settled
  split at settled
  case h_8 =>
    obtain ⟨reply, found, rfl⟩ := Option.map_eq_some_iff.mp settled
    have matched := List.find?_some found
    simp only [Bool.decide_and, Bool.and_eq_true, decide_eq_true_eq] at matched
    exact ⟨reply, List.mem_of_find?_eq_some found, matched.1, matched.2.2, rfl⟩
  case h_6 =>
    obtain ⟨key, -, rfl⟩ := Option.map_eq_some_iff.mp settled
    simp [epochIn] at word
  all_goals
    cases settled
    try simp [epochIn] at word

theorem acts_resume {id : Nat}
    {result : Result PubKey PrivKey PairKey Key Blob}
    (acting : s.acts crypto roomId event = some (peerId, .resume id result)) :
    ∃ session frame choice, s.sessions.lookup peerId = some session ∧ session.frames.lookup id = some frame ∧
      s.settles crypto roomId peerId id frame choice = some result := by
  cases event with
  | resume peerId' id' choice =>
    simp only [acts, Option.bind_eq_bind, Option.bind_eq_some_iff, Option.some.injEq, Prod.mk.injEq,
      Event.resume.injEq] at acting
    obtain ⟨session, atPeer, frame, atId, _, settled, rfl, rfl, rfl⟩ := acting
    exact ⟨session, frame, choice, atPeer, atId, settled⟩
  | hearKeySet => simp [acts] at acting
  | hearSealed => simp [acts] at acting
  | _ => simp [acts] at acting

/-- What a session hears was broadcast. -/
theorem acts_heard (acting : s.acts crypto roomId event = some (peerId, piece)) :
    (∀ msg, piece = .onKeySet msg → msg ∈ s.keySets) ∧ ∀ msg, piece = .onSealedKey msg → msg ∈ s.sealedKeys := by
  cases event with
  | hearKeySet other index =>
    obtain ⟨given, atIndex, same⟩ := Option.map_eq_some_iff.mp acting
    cases same
    exact ⟨fun msg heard => by cases heard; exact List.mem_of_getElem? atIndex, by simp⟩
  | hearSealed other index =>
    obtain ⟨given, atIndex, same⟩ := Option.map_eq_some_iff.mp acting
    cases same
    exact ⟨by simp, fun msg heard => by cases heard; exact List.mem_of_getElem? atIndex⟩
  | resume other id choice =>
    simp only [acts, Option.bind_eq_bind, Option.bind_eq_some_iff, Option.some.injEq, Prod.mk.injEq] at acting
    obtain ⟨_, _, _, _, _, _, -, rfl⟩ := acting
    simp
  | start | refreshKeySet => cases acting; simp
  | _ => cases acting

/-- The handler a session resumes, with a result the room gave it. -/
theorem acts_resuming (acting : s.acts crypto roomId event = some (peerId, piece))
    (atPeer : s.sessions.lookup peerId = some session) {frame : Frame PubKey PrivKey PairKey Key Blob}
    {result : Result PubKey PrivKey PairKey Key Blob} (resumed : session.resuming (piece, fresh) = some (frame, result)) :
    ∃ id choice, session.frames.lookup id = some frame ∧
      s.settles crypto roomId peerId id frame choice = some result := by
  unfold Session.resuming at resumed
  split at resumed
  next id given same =>
    obtain ⟨found, atId, pair⟩ := Option.map_eq_some_iff.mp resumed
    cases pair
    rw [show piece = .resume id result from same] at acting
    obtain ⟨session', frame', choice, atPeer', atId', settled⟩ := acts_resume acting
    rw [atPeer] at atPeer'
    cases atPeer'
    rw [atId] at atId'
    cases atId'
    exact ⟨id, choice, atId, settled⟩
  next => cases resumed

theorem registers_reply (acting : s.acts crypto roomId event = some (peerId, piece))
    (atPeer : s.sessions.lookup peerId = some session) {epoch : Nat}
    (registers : session.registers (piece, fresh) = some epoch) :
    ∃ reply ∈ s.replies, epochIn reply.result = some epoch := by
  unfold Session.registers at registers
  split at registers
  next resumed =>
    cases registers
    obtain ⟨_, _, _, settled⟩ := acts_resuming acting atPeer resumed
    obtain ⟨reply, member, -, -, same⟩ := settles_reply settled (.inr ⟨_, rfl⟩)
    exact ⟨reply, member, by rw [same]; rfl⟩
  next => cases registers

theorem takes_sent (acting : s.acts crypto roomId event = some (peerId, piece))
    (atPeer : s.sessions.lookup peerId = some session) {msg : KeySetMsg PubKey}
    (takes : session.takes (piece, fresh) = some msg) :
    msg ∈ s.keySets ∨ ∃ reply ∈ s.replies, epochIn reply.result = some msg.epoch := by
  unfold Session.takes at takes
  split at takes
  next heard =>
    cases takes
    exact .inl ((acts_heard acting).1 _ heard)
  next resumed _ =>
    cases takes
    obtain ⟨_, _, _, settled⟩ := acts_resuming acting atPeer resumed
    obtain ⟨reply, member, -, -, same⟩ := settles_reply settled (.inr ⟨_, rfl⟩)
    exact .inr ⟨reply, member, by rw [same]; rfl⟩
  next => cases takes

theorem publishes_reply (acting : s.acts crypto roomId event = some (peerId, piece))
    (atPeer : s.sessions.lookup peerId = some session) {work : Distribution PubKey Key Blob} {recipient : String}
    {publicKey : PubKey} (publishes : session.publishes (piece, fresh) = some (work, recipient, publicKey)) :
    ∃ reply ∈ s.replies, reply.peerId = peerId ∧ reply.result = .accepted ∧
      ∃ blob, reply.frame = .publish work recipient publicKey blob := by
  unfold Session.publishes at publishes
  split at publishes
  next resumed =>
    cases publishes
    obtain ⟨_, _, _, settled⟩ := acts_resuming acting atPeer resumed
    obtain ⟨reply, member, sender, frame, result⟩ := settles_reply settled (.inl rfl)
    exact ⟨reply, member, sender, result, _, frame⟩
  next => cases publishes

theorem opens_key (acting : s.acts crypto roomId event = some (peerId, piece))
    (atPeer : s.sessions.lookup peerId = some session) {msg : SealedMsg Blob} {key : Key}
    (opens : session.opens (piece, fresh) = some (msg, key)) :
    ∃ id pair, session.frames.lookup id = some (.openGroup msg pair) ∧
      crypto.openGroupKey msg.blob pair roomId msg.epoch msg.sender peerId = some key := by
  unfold Session.opens at opens
  split at opens
  next resumed =>
    cases opens
    obtain ⟨id, choice, atId, settled⟩ := acts_resuming acting atPeer resumed
    cases choice with
    | proceeds =>
      obtain ⟨opened, found, same⟩ := Option.map_eq_some_iff.mp settled
      cases same
      exact ⟨id, _, atId, found⟩
    | fails => cases settled
    | privateKey => cases settled
  next => cases opens

theorem seals_blob (acting : s.acts crypto roomId event = some (peerId, piece))
    (atPeer : s.sessions.lookup peerId = some session) {work : Distribution PubKey Key Blob} {recipient : String}
    {publicKey : PubKey} {pair : PairKey} {blob : Blob}
    (resumed : session.resuming (piece, fresh) = some (.seal work recipient publicKey pair, .sealed blob)) :
    SealedBy crypto roomId peerId work.groupKey work.epoch recipient blob := by
  obtain ⟨_, choice, -, settled⟩ := acts_resuming acting atPeer resumed
  cases choice with
  | proceeds => cases settled; exact ⟨pair, rfl⟩
  | fails => cases settled
  | privateKey => cases settled

end acting

/-- Between two records of a room either the epoch has moved, or what was stored still is. -/
theorem kept_or_later {call : Call PubKey Blob} {room moved : Room PubKey Blob}
    (change : RoomChange roomId call (some room) (some moved)) :
    room.epoch < moved.epoch ∨ moved.epoch = room.epoch ∧
      ∀ recipient entry, room.sealed.lookup recipient = some entry → moved.sealed.lookup recipient = some entry := by
  cases change with
  | same => exact .inr ⟨rfl, fun _ _ found => found⟩
  | gathered => exact .inr ⟨rfl, fun _ _ found => found⟩
  | rekeyed => exact .inl (Nat.lt_succ_self _)
  | left => exact .inl (Nat.lt_succ_self _)
  | rotated => exact .inl (Nat.lt_succ_self _)
  | published _ _ _ _ free =>
    refine .inr ⟨rfl, fun recipient entry found => ?_⟩
    rw [FiniteMap.lookup_insert_if, if_neg]
    · exact found
    · rintro rfl
      rw [free] at found
      cases found

/-- Unless it initialises one, a call leaves a room off record if it was. -/
theorem absent_of_absent {call : Call PubKey Blob} {later : Option (Room PubKey Blob)}
    (change : RoomChange roomId call none later) (other : ∀ other, call ≠ .initRoom other) : later = none := by
  cases change with
  | same => rfl
  | created => exact absurd rfl (other roomId)

/-- Who is registered after a call was before and was not removed, or has registered. -/
theorem call_peers {call : Call PubKey Blob} {room later : Room PubKey Blob}
    (change : RoomChange roomId call (some room) (some later)) {peerId : String} (member : peerId ∈ later.peers) :
    peerId ∈ room.peers ∧ call ≠ .removePeer roomId peerId ∨
      ∃ publicKey identityKey signature, call = .registerPeerKey roomId peerId publicKey identityKey signature := by
  cases change with
  | same _ kept =>
    refine .inl ⟨member, ?_⟩
    rintro rfl
    cases kept rfl
  | gathered _ peer =>
    rcases AList.mem_insert _ |>.mp member with rfl | before
    · exact .inr ⟨_, _, _, rfl⟩
    · exact .inl ⟨before, by simp⟩
  | rekeyed _ peer =>
    rcases AList.mem_insert _ |>.mp member with rfl | before
    · exact .inr ⟨_, _, _, rfl⟩
    · exact .inl ⟨before, by simp⟩
  | left =>
    obtain ⟨different, before⟩ := AList.mem_erase.mp member
    refine .inl ⟨before, ?_⟩
    rintro same
    cases same
    exact different rfl
  | rotated => exact .inl ⟨member, by simp⟩
  | published => exact .inl ⟨member, by simp⟩

theorem relay_unaccepted (s : RoomSystem PubKey PrivKey PairKey Key Blob) (peerId : String)
    (frame : Frame PubKey PrivKey PairKey Key Blob) {result : Result PubKey PrivKey PairKey Key Blob}
    (refused : result ≠ .accepted) :
    ∃ more, s.relay peerId frame result = { s with announcing := s.announcing ++ more } ∧
      ∀ announced ∈ more, epochIn result = some announced := by
  unfold relay
  split
  next epoch => exact ⟨[epoch], rfl, fun announced member => by rw [List.mem_singleton.mp member]; rfl⟩
  next => exact absurd rfl refused
  next => exact ⟨[], by rw [List.append_nil], by simp⟩

theorem serves_present {peerId : String} {frame : Frame PubKey PrivKey PairKey Key Blob} {call : Call PubKey Blob}
    (pushed : frame.call roomId peerId = some call) :
    call.room = roomId ∧ (∀ other, call ≠ .initRoom other) ∧ (∀ other, call ≠ .removePeer roomId other) ∧
      ∀ other publicKey identityKey signature,
        call = .registerPeerKey roomId other publicKey identityKey signature → other = peerId := by
  cases frame <;> cases pushed
  all_goals simp [Call.room]
  exact fun _ _ _ _ same _ _ _ => same.symm

section calls
variable [ByteSize PubKey] [DecidableEq PubKey] [ByteSize Blob] {config : ProofConfig PubKey} {now : Nat}

/-- The epoch in a reply is that of the room as the call leaves it. -/
theorem replyResult_epoch {call : Call PubKey Blob} {state : State PubKey Blob} {epoch : Nat}
    (carried : epochIn (replyResult (handleCall config now call state).reply :
      Result PubKey PrivKey PairKey Key Blob) = some epoch) {room : Room PubKey Blob}
    (atRoom : (handleCall config now call state).state.rooms.lookup call.room = some room) : epoch = room.epoch := by
  unfold replyResult at carried
  split at carried
  next registered peers replied => 
    cases carried
    exact (announced_epoch replied rfl).1 room atRoom
  next keys replied =>
    cases carried
    exact (announced_epoch replied rfl).1 room atRoom
  next => cases carried
  next => cases carried

/-- Only a publish that passed the coordinator's checks is answered as accepted. -/
theorem accepted_publish {peerId : String} {frame : Frame PubKey PrivKey PairKey Key Blob} {call : Call PubKey Blob}
    {state : State PubKey Blob} (pushed : frame.call roomId peerId = some call)
    (accepted : (replyResult (handleCall config now call state).reply : Result PubKey PrivKey PairKey Key Blob) =
      .accepted) :
    ∃ work recipient publicKey blob room, frame = .publish work recipient publicKey blob ∧
      publishChecks state roomId peerId recipient work.epoch blob = .ok room ∧
      (handleCall config now call state).state.rooms.lookup roomId =
        some { room with sealed := room.sealed.insert recipient ⟨work.epoch, peerId, blob⟩ } := by
  have done : (handleCall config now call state).reply = .ok .done := by
    unfold replyResult at accepted
    split at accepted
    case h_3 replied => exact replied
    all_goals cases accepted
  cases frame with
  | publish work recipient publicKey blob =>
    cases pushed
    simp only [handleCall, publishSealed, Outcome.wrap] at done ⊢
    split at done
    · cases done
    next room passed => exact ⟨work, recipient, publicKey, blob, room, rfl, passed, by simp⟩
  | registerKey publicKey =>
    cases pushed
    simp only [handleCall, registerPeerKey, Outcome.wrap] at done
    split at done
    · cases done
    · split at done <;> cases done
  | fetchKeySet caller =>
    cases pushed
    simp only [handleCall, keySet] at done
    split at done <;> cases done
  | _ => cases pushed

end calls
end RoomSystem
end Burble.E2EE
