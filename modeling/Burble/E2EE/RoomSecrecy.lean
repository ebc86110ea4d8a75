import Burble.E2EE.SessionFrames
import Burble.E2EE.RoomAgreement

namespace Burble.E2EE
variable {PubKey PrivKey PairKey Key Blob : Type}

/-- What is known of the keys a session handles: whose public key is whose, which private keys
it generated, and what it shares and seals with another peer for an epoch. -/
structure Keyring (PubKey PrivKey PairKey Blob : Type) where
  owned : String → PubKey → Prop
  mine : PrivKey → Prop
  shared : Nat → String → PairKey → Prop
  sealed : Nat → String → Blob → Prop

namespace Keyring
variable (ring : Keyring PubKey PrivKey PairKey Blob)

/-- Every entry of a key set is a public key of the peer it is listed under. -/
def Lists (keys : FiniteMap String PubKey) : Prop :=
  ∀ peerId publicKey, keys.lookup peerId = some publicKey → ring.owned peerId publicKey

/-- The entries a distribution has still to visit. -/
def Visits (entries : List (String × PubKey)) : Prop := ∀ entry ∈ entries, ring.owned entry.1 entry.2

/-- A suspended handler holds keys of their owners only. -/
def Holds (me : String) : Frame PubKey PrivKey PairKey Key Blob → Prop
  | .registerKey publicKey => ring.owned me publicKey
  | .pairwise work other publicKey privateKey =>
    ring.Visits work.rest ∧ ring.owned other publicKey ∧ ring.mine privateKey
  | .seal work other _ pair => ring.Visits work.rest ∧ ring.shared work.epoch other pair
  | .publish work other _ blob => ring.Visits work.rest ∧ ring.sealed work.epoch other blob
  | _ => True

/-- A promise settles with keys of their owners, given that what it was made of is. -/
def Fits (me : String) :
    Frame PubKey PrivKey PairKey Key Blob → Result PubKey PrivKey PairKey Key Blob → Prop
  | .generateKeypair, .keypair pair => ring.mine pair.privateKey ∧ ring.owned me pair.publicKey
  | .fetchKeySet _, .keySet msg => ring.Lists msg.publicKeys
  | .pairwise work other publicKey privateKey, .pair pair =>
    ring.owned other publicKey → ring.mine privateKey → ring.shared work.epoch other pair
  | .seal work other _ pair, .sealed blob => ring.shared work.epoch other pair → ring.sealed work.epoch other blob
  | _, _ => True

/-- The server speaks of key sets, and of no private, pairwise or sealed key. -/
def Spoken : Result PubKey PrivKey PairKey Key Blob → Prop
  | .keySet msg => ring.Lists msg.publicKeys
  | .keypair _ | .pair _ | .sealed _ => False
  | _ => True

/-- A keyring that knows at least as much. -/
structure Extends (wider : Keyring PubKey PrivKey PairKey Blob) : Prop where
  owned : ∀ peerId publicKey, ring.owned peerId publicKey → wider.owned peerId publicKey
  mine : ∀ privateKey, ring.mine privateKey → wider.mine privateKey
  shared : ∀ epoch peerId pair, ring.shared epoch peerId pair → wider.shared epoch peerId pair
  sealed : ∀ epoch peerId blob, ring.sealed epoch peerId blob → wider.sealed epoch peerId blob

variable {ring}

theorem Lists.visits {keys : FiniteMap String PubKey} (lists : ring.Lists keys) : ring.Visits keys.toList :=
  fun entry member => lists entry.1 entry.2 (FiniteMap.mem_toList.mp member)

theorem Lists.empty : ring.Lists ∅ := by
  intro peerId publicKey found
  cases found

theorem Lists.mono {wider : Keyring PubKey PrivKey PairKey Blob} (more : ring.Extends wider)
    {keys : FiniteMap String PubKey} (lists : ring.Lists keys) : wider.Lists keys :=
  fun peerId publicKey found => more.owned _ _ (lists peerId publicKey found)

theorem Spoken.mono {wider : Keyring PubKey PrivKey PairKey Blob} (more : ring.Extends wider)
    {result : Result PubKey PrivKey PairKey Key Blob} (spoken : ring.Spoken result) : wider.Spoken result := by
  cases result with
  | keySet msg => exact Lists.mono more spoken
  | keypair | pair | «sealed» => exact spoken
  | _ => trivial

/-- The server's word fits wherever it is awaited. -/
theorem Spoken.fits {result : Result PubKey PrivKey PairKey Key Blob} (spoken : ring.Spoken result) (me : String)
    (frame : Frame PubKey PrivKey PairKey Key Blob) : ring.Fits me frame result := by
  unfold Fits
  split
  · exact spoken.elim
  · exact spoken
  · exact spoken.elim
  · exact spoken.elim
  · trivial

theorem Holds.mono {wider : Keyring PubKey PrivKey PairKey Blob} (more : ring.Extends wider) {me : String}
    {frame : Frame PubKey PrivKey PairKey Key Blob} (held : ring.Holds me frame) : wider.Holds me frame := by
  have visits {entries : List (String × PubKey)} (known : ring.Visits entries) : wider.Visits entries :=
    fun entry member => more.owned _ _ (known entry member)
  cases frame with
  | registerKey => exact more.owned _ _ held
  | pairwise => exact ⟨visits held.1, more.owned _ _ held.2.1, more.mine _ held.2.2⟩
  | «seal» => exact ⟨visits held.1, more.shared _ _ _ held.2⟩
  | publish => exact ⟨visits held.1, more.sealed _ _ _ held.2⟩
  | _ => trivial

end Keyring

namespace Session

/-- Every key a session has at hand is its owner's. -/
structure Keyed (me : String) (ring : Keyring PubKey PrivKey PairKey Blob)
    (s : Session PubKey PrivKey PairKey Key Blob) : Prop where
  keypair : ∀ pair, s.keypair = some pair → ring.mine pair.privateKey
  keySet : ring.Lists s.keySet
  frames : ∀ id frame, s.frames.lookup id = some frame → ring.Holds me frame

variable {s after : Session PubKey PrivKey PairKey Key Blob} {me : String}
  {ring : Keyring PubKey PrivKey PairKey Blob}

namespace Keyed

theorem create (localId : String) :
    Keyed me ring (create localId : Session PubKey PrivKey PairKey Key Blob) where
  keypair pair found := by cases found
  keySet := Keyring.Lists.empty
  frames id frame atId := by cases atId

theorem mono {wider : Keyring PubKey PrivKey PairKey Blob} (keyed : s.Keyed me ring) (more : ring.Extends wider) :
    s.Keyed me wider where
  keypair pair found := more.mine _ (keyed.keypair pair found)
  keySet := keyed.keySet.mono more
  frames id frame atId := (keyed.frames id frame atId).mono more

theorem await (keyed : s.Keyed me ring) {frame : Frame PubKey PrivKey PairKey Key Blob} (held : ring.Holds me frame) :
    (s.await frame).Keyed me ring where
  keypair := keyed.keypair
  keySet := keyed.keySet
  frames id found atId := by
    simp only [Session.await, FiniteMap.lookup_insert_if] at atId
    split at atId
    · cases atId
      exact held
    · exact keyed.frames id found atId

theorem settle (keyed : s.Keyed me ring) (caller : Caller Blob) (ok : Bool) : (s.settle caller ok).Keyed me ring := by
  cases caller with
  | handler => exact keyed
  | _ => exact keyed.await trivial

theorem dequeue (keyed : s.Keyed me ring) (id : Nat) : Keyed me ring { s with frames := s.frames.erase id } where
  keypair := keyed.keypair
  keySet := keyed.keySet
  frames other frame atOther := by
    rw [FiniteMap.lookup_erase_if] at atOther
    split at atOther
    · cases atOther
    · exact keyed.frames other frame atOther

/-- The loop suspends with an entry of the key set, under the session's own private key. -/
theorem distributeLoop (keyed : s.Keyed me ring) (work : Distribution PubKey Key Blob)
    {entries : List (String × PubKey)} (visits : ring.Visits entries) : (s.distributeLoop work entries).Keyed me ring := by
  induction entries with
  | nil =>
    have installed : (s.install work.groupKey work.epoch).Keyed me ring := ⟨keyed.keypair, keyed.keySet, keyed.frames⟩
    exact installed.settle work.caller true
  | cons entry rest ih =>
    obtain ⟨first, later⟩ := List.forall_mem_cons.mp visits
    unfold Session.distributeLoop
    split
    · exact ih later
    · split
      · exact keyed.settle _ _
      next pair atPair => exact keyed.await ⟨later, first, keyed.keypair pair atPair⟩

theorem onKeySet (keyed : s.Keyed me ring) (caller : Caller Blob) {msg : KeySetMsg PubKey} (fresh : Key)
    (lists : ring.Lists msg.publicKeys) : (s.onKeySet caller msg fresh).Keyed me ring := by
  have cached : (s.cacheKeySet msg).Keyed me ring := ⟨keyed.keypair, lists, keyed.frames⟩
  have waits (status : Status) (epoch : Option Nat) :
      (((s.cacheKeySet msg).setStatus status epoch).settle caller true).Keyed me ring :=
    settle (s := (s.cacheKeySet msg).setStatus status epoch) ⟨cached.keypair, cached.keySet, cached.frames⟩ caller true
  unfold Session.onKeySet chooseRole
  split
  · exact waits _ _
  split
  · exact waits _ _
  split
  · unfold distributeRoomKey
    split
    · exact cached.settle caller false
    · obtain ⟨-, -, shape⟩ := mint_spec (s.cacheKeySet msg) fresh
      have minted : ((s.cacheKeySet msg).mint fresh).1.Keyed me ring := by
        rw [shape]
        exact ⟨cached.keypair, cached.keySet, cached.frames⟩
      exact minted.distributeLoop _ lists.visits
  · exact waits _ _

theorem openSealed (keyed : s.Keyed me ring) (msg : SealedMsg Blob) (publicKey : PubKey) :
    (s.openSealed msg publicKey).Keyed me ring := by
  unfold Session.openSealed
  split
  · exact ⟨keyed.keypair, keyed.keySet, keyed.frames⟩
  · exact keyed.await trivial

theorem onSealedKey (keyed : s.Keyed me ring) (msg : SealedMsg Blob) (retried : Bool) :
    (s.onSealedKey msg retried).Keyed me ring := by
  unfold Session.onSealedKey
  split
  · exact keyed
  split
  · exact keyed
  split
  · split
    · exact keyed
    · exact keyed.await trivial
  split
  · exact keyed
  split
  · exact keyed.openSealed msg _
  · split
    · exact keyed
    · exact keyed.await trivial

theorem resume (keyed : s.Keyed me ring) {frame : Frame PubKey PrivKey PairKey Key Blob}
    {result : Result PubKey PrivKey PairKey Key Blob} {fresh : Key} (held : ring.Holds me frame)
    (fits : ring.Fits me frame result) (taken : s.resume frame result fresh = some after) : after.Keyed me ring := by
  unfold Session.resume at taken
  split at taken
  all_goals try (cases taken; done)
  all_goals try cases taken
  next pair =>
    have named : Keyed me ring { s with keypair := some pair } :=
      ⟨fun other found => by cases found; exact fits.1, keyed.keySet, keyed.frames⟩
    exact named.await fits.2
  · exact ⟨keyed.keypair, keyed.keySet, keyed.frames⟩
  next epoch =>
    have adopted : (s.adoptEpoch epoch).1.Keyed me ring := ⟨keyed.keypair, keyed.keySet, keyed.frames⟩
    exact adopted.await trivial
  · exact ⟨keyed.keypair, keyed.keySet, keyed.frames⟩
  · exact keyed.onKeySet _ _ fits
  · exact keyed.settle _ _
  · exact keyed.await ⟨held.1, fits held.2.1 held.2.2⟩
  · exact keyed.settle _ _
  · exact keyed.await ⟨held.1, fits held.2⟩
  · exact keyed.settle _ _
  next work peerId publicKey blob =>
    have marked : (s.markSealed work peerId publicKey).Keyed me ring := ⟨keyed.keypair, keyed.keySet, keyed.frames⟩
    exact marked.distributeLoop _ held.1
  · exact keyed.settle _ _
  · split
    · exact keyed
    · exact ⟨keyed.keypair, keyed.keySet, keyed.frames⟩
  · exact keyed
  · split
    · exact keyed.onSealedKey _ _
    · exact keyed
  · split at taken
    · cases taken
      exact keyed.openSealed _ _
    · cases taken
      exact keyed
  · exact keyed.await trivial
  · exact ⟨keyed.keypair, keyed.keySet, keyed.frames⟩
  next msg pair key => exact ⟨keyed.keypair, keyed.keySet, keyed.frames⟩
  · exact ⟨keyed.keypair, keyed.keySet, keyed.frames⟩

/-- A session keeps its keys apart as long as the key sets it hears and the results it awaits do. -/
theorem step (keyed : s.Keyed me ring) {label : Event PubKey PrivKey PairKey Key Blob × Key}
    (heard : ∀ msg, label.1 = .onKeySet msg → ring.Lists msg.publicKeys)
    (fits : ∀ frame result, s.resuming label = some (frame, result) → ring.Fits me frame result)
    (taken : SessionStep s label after) : after.Keyed me ring := by
  obtain ⟨event, fresh⟩ := label
  cases event with
  | start =>
    cases taken
    have registering : (s.setStatus .registering none).Keyed me ring := ⟨keyed.keypair, keyed.keySet, keyed.frames⟩
    exact registering.await trivial
  | refreshKeySet =>
    cases taken
    exact keyed.await trivial
  | onKeySet msg =>
    cases taken
    exact keyed.onKeySet .handler fresh (heard msg rfl)
  | onSealedKey msg =>
    cases taken
    exact keyed.onSealedKey msg false
  | resume id result =>
    simp only [SessionStep, Session.step] at taken
    split at taken
    · cases taken
    next frame atId =>
      refine (keyed.dequeue id).resume (keyed.frames id frame atId) (fits frame result ?_) taken
      simp only [resuming, atId, Option.map_some]

end Keyed
end Session

/-- A pairwise key comes of one of its two private keys only. -/
def IdealCrypto.Pairwise (crypto : IdealCrypto PubKey PrivKey PairKey Key Blob) : Prop :=
  ∀ mine theirs roomId epoch me them other otherPublic roomId' epoch' me' them',
    crypto.pairwiseKey mine (crypto.publicOf theirs) roomId epoch me them =
      crypto.pairwiseKey other otherPublic roomId' epoch' me' them' → other = mine ∨ other = theirs

/-- This peer's session has generated the private key in the run. -/
def Generated (labels : List (Nat × Key × RoomEvent PrivKey)) (peerId : String) (privateKey : PrivKey) : Prop :=
  ∃ now fresh frame, (now, fresh, RoomEvent.resume peerId frame (.privateKey privateKey)) ∈ labels

theorem Generated.append {labels : List (Nat × Key × RoomEvent PrivKey)} {peerId : String} {privateKey : PrivKey}
    (made : Generated labels peerId privateKey) (later : List (Nat × Key × RoomEvent PrivKey)) :
    Generated (labels ++ later) peerId privateKey := by
  obtain ⟨now, fresh, frame, member⟩ := made
  exact ⟨now, fresh, frame, List.mem_append_left _ member⟩

namespace RoomSystem

/-- The keys a peer may handle when these private keys have been generated. -/
def ring (crypto : IdealCrypto PubKey PrivKey PairKey Key Blob) (roomId : String) (made : String → PrivKey → Prop)
    (peerId : String) : Keyring PubKey PrivKey PairKey Blob where
  owned other publicKey := ∃ privateKey, made other privateKey ∧ publicKey = crypto.publicOf privateKey
  mine privateKey := made peerId privateKey
  shared epoch other pair := ∃ mine theirs, made peerId mine ∧ made other theirs ∧
    pair = crypto.pairwiseKey mine (crypto.publicOf theirs) roomId epoch peerId other
  sealed epoch other blob := ∃ key mine theirs, made peerId mine ∧ made other theirs ∧
    blob = crypto.sealGroupKey key (crypto.pairwiseKey mine (crypto.publicOf theirs) roomId epoch peerId other)
      roomId epoch peerId other

/-- Every key in the room is one its owner's session generated. -/
structure Keyed (crypto : IdealCrypto PubKey PrivKey PairKey Key Blob) (roomId : String)
    (made : String → PrivKey → Prop) (s : RoomSystem PubKey PrivKey PairKey Key Blob) : Prop where
  sessions : ∀ peerId session, s.sessions.lookup peerId = some session →
    session.Keyed peerId (ring crypto roomId made peerId)
  peers : ∀ room, s.coordinator.rooms.lookup roomId = some room → ∀ peerId peer, room.peers.lookup peerId = some peer →
    ∃ privateKey, made peerId privateKey ∧ peer.publicKey = crypto.publicOf privateKey
  keySets : ∀ msg ∈ s.keySets, ∀ me, (ring crypto roomId made me).Lists msg.publicKeys
  replies : ∀ reply ∈ s.replies, ∀ me, (ring crypto roomId made me).Spoken reply.result

variable {crypto : IdealCrypto PubKey PrivKey PairKey Key Blob} {roomId : String} {made more : String → PrivKey → Prop}
  {s after : RoomSystem PubKey PrivKey PairKey Key Blob}

theorem ring_extends (grows : ∀ peerId privateKey, made peerId privateKey → more peerId privateKey) (peerId : String) :
    (ring crypto roomId made peerId).Extends (ring crypto roomId more peerId) where
  owned other publicKey known := by
    obtain ⟨privateKey, was, same⟩ := known
    exact ⟨privateKey, grows _ _ was, same⟩
  mine privateKey was := grows _ _ was
  shared epoch other pair known := by
    obtain ⟨mine, theirs, was, wasTheirs, same⟩ := known
    exact ⟨mine, theirs, grows _ _ was, grows _ _ wasTheirs, same⟩
  sealed epoch other blob known := by
    obtain ⟨key, mine, theirs, was, wasTheirs, same⟩ := known
    exact ⟨key, mine, theirs, grows _ _ was, grows _ _ wasTheirs, same⟩

namespace Keyed

theorem mono (keyed : s.Keyed crypto roomId made)
    (grows : ∀ peerId privateKey, made peerId privateKey → more peerId privateKey) : s.Keyed crypto roomId more where
  sessions peerId session atPeer := (keyed.sessions peerId session atPeer).mono (ring_extends grows peerId)
  peers room atRoom peerId peer found := by
    obtain ⟨privateKey, was, same⟩ := keyed.peers room atRoom peerId peer found
    exact ⟨privateKey, grows _ _ was, same⟩
  keySets msg sent me := (keyed.keySets msg sent me).mono (ring_extends grows me)
  replies reply sent me := (keyed.replies reply sent me).mono (ring_extends grows me)

theorem empty : (empty : RoomSystem PubKey PrivKey PairKey Key Blob).Keyed crypto roomId made where
  sessions _ _ atPeer := by cases atPeer
  peers _ atRoom := by cases atRoom
  keySets _ sent := by cases sent
  replies _ sent := by cases sent

/-- The key set the coordinator gives out lists the peers on record. -/
theorem lists (keyed : s.Keyed crypto roomId made) {keys : KeySet PubKey} (found : keySet roomId s.coordinator = .ok keys)
    (me : String) : (ring crypto roomId made me).Lists keys.peers := by
  unfold keySet at found
  split at found
  · cases found
  next room atRoom =>
    cases found
    intro peerId publicKey listed
    rw [FiniteMap.lookup_mapValues] at listed
    obtain ⟨peer, atPeer, rfl⟩ := Option.map_eq_some_iff.mp listed
    exact keyed.peers room atRoom peerId peer atPeer

theorem lists_public (keyed : s.Keyed crypto roomId made) (me : String) :
    (ring crypto roomId made me).Lists (publicKeySet roomId s.coordinator) := by
  unfold publicKeySet
  split
  next keys found => exact keyed.lists found me
  next => exact Keyring.Lists.empty

theorem announce (keyed : s.Keyed crypto roomId made) {index : Nat} (taken : s.announce roomId index = some after) :
    after.Keyed crypto roomId made := by
  obtain ⟨epoch, -, same⟩ := Option.bind_eq_some_iff.mp taken
  cases same
  refine ⟨keyed.sessions, keyed.peers, fun msg sent me => ?_, keyed.replies⟩
  rcases List.mem_append.mp sent with old | new
  · exact keyed.keySets msg old me
  · rw [List.mem_singleton.mp new]
    exact keyed.lists_public me

section calls
variable [ByteSize PubKey] [DecidableEq PubKey] [ByteSize Blob] {config : ProofConfig PubKey} {now : Nat}

/-- A call that registers none but generated keys leaves none but generated keys on record. -/
theorem call_peers (keyed : s.Keyed crypto roomId made) {call : Call PubKey Blob}
    (registers : ∀ peerId publicKey identityKey signature,
      call = .registerPeerKey roomId peerId publicKey identityKey signature →
        ∃ privateKey, made peerId privateKey ∧ publicKey = crypto.publicOf privateKey)
    {room : Room PubKey Blob} (atRoom : (handleCall config now call s.coordinator).state.rooms.lookup roomId = some room)
    {peerId : String} {peer : Peer PubKey} (found : room.peers.lookup peerId = some peer) :
    ∃ privateKey, made peerId privateKey ∧ peer.publicKey = crypto.publicOf privateKey := by
  have change := handleCall_lookup config now call s.coordinator roomId
  have kept (old : Room PubKey Blob) (atOld : s.coordinator.rooms.lookup roomId = some old) := keyed.peers old atOld
  generalize s.coordinator.rooms.lookup roomId = start at change kept
  rw [atRoom] at change
  cases change with
  | same => exact kept room rfl peerId peer found
  | created => cases found
  | @gathered other publicKey _ _ old entry _ _ listed | @rekeyed other publicKey _ _ old entry _ _ _ listed =>
    have inserted : (old.peers.insert other entry).lookup peerId = some peer := found
    rw [FiniteMap.lookup_insert_if] at inserted
    split at inserted
    next same =>
      cases inserted
      rw [listed, same]
      exact registers _ _ _ _ rfl
    next => exact kept old rfl peerId peer inserted
  | left old =>
    simp only [E2EE.rotate, FiniteMap.lookup_erase_if] at found
    split at found
    · cases found
    · exact kept old rfl peerId peer found
  | rotated old => exact kept old rfl peerId peer found
  | published old => exact kept old rfl peerId peer found

/-- A call behind nothing but a client's arrival, departure or rotation. -/
theorem called (keyed : s.Keyed crypto roomId made) {call : Call PubKey Blob}
    (registers : ∀ peerId publicKey identityKey signature,
      call ≠ .registerPeerKey roomId peerId publicKey identityKey signature) (present : List String) (lifetimes : Nat) :
    Keyed crypto roomId made { s with
      coordinator := (handleCall config now call s.coordinator).state, present, lifetimes } where
  sessions := keyed.sessions
  peers _ atRoom _ _ found := keyed.call_peers (fun _ _ _ _ same => absurd same (registers _ _ _ _)) atRoom found
  keySets := keyed.keySets
  replies := keyed.replies

theorem arrive (keyed : s.Keyed crypto roomId made) {peerId : String} {anew : Bool}
    (taken : s.arrive config roomId now peerId anew = some after) : after.Keyed crypto roomId made := by
  unfold RoomSystem.arrive at taken
  split at taken
  · cases taken
  simp only at taken
  split at taken
  · cases taken
    exact keyed.called (by simp) _ _
  · cases taken
    have joined : Keyed crypto roomId made { s with
        coordinator := (handleCall config now (.initRoom roomId) s.coordinator).state
        present := peerId :: s.present } := keyed.called (by simp) _ _
    refine ⟨fun other found atOther => ?_, joined.peers, keyed.keySets,
      fun reply sent => keyed.replies reply (List.mem_of_mem_filter sent)⟩
    rw [FiniteMap.lookup_insert_if] at atOther
    split at atOther
    · cases atOther
      exact .create peerId
    · exact keyed.sessions other found atOther

theorem leave (keyed : s.Keyed crypto roomId made) {peerId : String}
    (taken : s.leave config roomId now peerId = some after) : after.Keyed crypto roomId made := by
  unfold RoomSystem.leave at taken
  split at taken
  · cases taken
    exact keyed.called (by simp) _ _
  · cases taken

/-- The channel's reply, whatever was pushed. -/
theorem answers (keyed : s.Keyed crypto roomId made) {peerId : String} {frame : Frame PubKey PrivKey PairKey Key Blob}
    {call : Call PubKey Blob} (pushed : frame.call roomId peerId = some call) (me : String) :
    (ring crypto roomId made me).Spoken
      (replyResult (handleCall config now call s.coordinator).reply : Result PubKey PrivKey PairKey Key Blob) := by
  cases frame with
  | registerKey =>
    cases pushed
    simp only [handleCall, registerPeerKey, Outcome.wrap]
    split
    · trivial
    · split <;> trivial
  | fetchKeySet =>
    cases pushed
    simp only [handleCall]
    cases found : keySet roomId s.coordinator with
    | error reason => trivial
    | ok listed => exact keyed.lists found me
  | publish =>
    cases pushed
    simp only [handleCall, publishSealed, Outcome.wrap]
    split <;> trivial
  | _ => cases pushed

theorem serve (keyed : s.Keyed crypto roomId made) {peerId : String} {frameId : Nat}
    (taken : s.serve config roomId now peerId frameId = some after) : after.Keyed crypto roomId made := by
  obtain ⟨session, atPeer, taken⟩ := Option.bind_eq_some_iff.mp taken
  obtain ⟨frame, atFrame, taken⟩ := Option.bind_eq_some_iff.mp taken
  obtain ⟨call, pushed, taken⟩ := Option.bind_eq_some_iff.mp taken
  have held := (keyed.sessions peerId session atPeer).frames frameId frame atFrame
  split at taken
  swap
  · cases taken
  have answered : Keyed crypto roomId made { s with
      coordinator := (handleCall config now call s.coordinator).state
      replies := s.replies ++ [⟨peerId, frameId, frame, replyResult (handleCall config now call s.coordinator).reply⟩] } := by
    refine ⟨keyed.sessions, fun room atRoom other peer found => keyed.call_peers ?_ atRoom found, keyed.keySets,
      fun reply sent me => ?_⟩
    · rintro other publicKey identityKey signature rfl
      cases frame <;> cases pushed
      exact held
    · rcases List.mem_append.mp sent with old | new
      · exact keyed.replies reply old me
      · rw [List.mem_singleton.mp new]
        exact keyed.answers pushed me
  cases taken
  unfold relay
  split <;> exact ⟨answered.sessions, answered.peers, answered.keySets, answered.replies⟩

end calls

section acting
variable [DecidableEq PubKey] [DecidableEq PrivKey] [DecidableEq PairKey] [DecidableEq Key] [DecidableEq Blob]
  {event : RoomEvent PrivKey} {peerId : String} {piece : Event PubKey PrivKey PairKey Key Blob} {fresh : Key}
  {session next : Session PubKey PrivKey PairKey Key Blob}

/-- Whatever a promise settles with is made of generated keys. -/
theorem settles (keyed : s.Keyed crypto roomId made) {id : Nat} {frame : Frame PubKey PrivKey PairKey Key Blob}
    {choice : Choice PrivKey} {result : Result PubKey PrivKey PairKey Key Blob}
    (chosen : ∀ privateKey, choice = .privateKey privateKey → made peerId privateKey)
    (settled : s.settles crypto roomId peerId id frame choice = some result) :
    (ring crypto roomId made peerId).Fits peerId frame result := by
  unfold RoomSystem.settles at settled
  split at settled
  · cases settled
    have threw : (ring crypto roomId made peerId).Spoken (.threw : Result PubKey PrivKey PairKey Key Blob) := trivial
    exact threw.fits _ _
  next key =>
    cases settled
    exact ⟨chosen key rfl, key, chosen key rfl, rfl⟩
  next work other publicKey privateKey =>
    cases settled
    rintro ⟨theirs, known, rfl⟩ mine
    exact ⟨privateKey, theirs, mine, known, rfl⟩
  next work other publicKey pair =>
    cases settled
    rintro ⟨mine, theirs, known, knownTheirs, rfl⟩
    exact ⟨work.groupKey, mine, theirs, known, knownTheirs, rfl⟩
  · cases settled
    trivial
  · obtain ⟨key, -, rfl⟩ := Option.map_eq_some_iff.mp settled
    trivial
  · cases settled
    trivial
  · obtain ⟨reply, found, rfl⟩ := Option.map_eq_some_iff.mp settled
    exact (keyed.replies reply (List.mem_of_find?_eq_some found) peerId).fits _ _
  · cases settled

/-- The promise a session resumes with is the one of the event. -/
theorem acts_settled (acting : s.acts crypto roomId event = some (peerId, piece))
    (atPeer : s.sessions.lookup peerId = some session) {frame : Frame PubKey PrivKey PairKey Key Blob}
    {result : Result PubKey PrivKey PairKey Key Blob} (resumed : session.resuming (piece, fresh) = some (frame, result)) :
    ∃ id choice, event = .resume peerId id choice ∧ s.settles crypto roomId peerId id frame choice = some result := by
  cases event with
  | resume other id choice =>
    simp only [acts, Option.bind_eq_bind, Option.bind_eq_some_iff, Option.some.injEq, Prod.mk.injEq] at acting
    obtain ⟨found, atFound, suspended, atId, given, settled, rfl, rfl⟩ := acting
    rw [atPeer] at atFound
    cases atFound
    simp only [Session.resuming, atId, Option.map_some, Option.some.injEq, Prod.mk.injEq] at resumed
    obtain ⟨rfl, rfl⟩ := resumed
    exact ⟨id, choice, rfl, settled⟩
  | hearKeySet other index | hearSealed other index =>
    obtain ⟨msg, -, same⟩ := Option.map_eq_some_iff.mp acting
    cases same
    cases resumed
  | start | refreshKeySet =>
    cases acting
    cases resumed
  | _ => cases acting

theorem act (keyed : s.Keyed crypto roomId made) (acting : s.acts crypto roomId event = some (peerId, piece))
    (chosen : ∀ id privateKey, event = .resume peerId id (.privateKey privateKey) → made peerId privateKey)
    (atPeer : s.sessions.lookup peerId = some session) (taken : SessionStep session (piece, fresh) next) :
    Keyed crypto roomId made { s with sessions := s.sessions.insert peerId next } := by
  have stepped : next.Keyed peerId (ring crypto roomId made peerId) := by
    refine (keyed.sessions peerId session atPeer).step
      (fun msg heard => keyed.keySets msg ((acts_heard acting).1 msg heard) peerId) (fun frame result resumed => ?_) taken
    obtain ⟨id, choice, rfl, settled⟩ := acts_settled acting atPeer resumed
    exact keyed.settles (fun privateKey picked => chosen id privateKey (by rw [picked])) settled
  refine ⟨fun other found atOther => ?_, keyed.peers, keyed.keySets, keyed.replies⟩
  rw [FiniteMap.lookup_insert_if] at atOther
  split at atOther
  next same =>
    cases atOther
    exact same ▸ stepped
  next => exact keyed.sessions other found atOther

end acting

variable [ByteSize PubKey] [DecidableEq PubKey] [DecidableEq PrivKey] [DecidableEq PairKey] [DecidableEq Key]
  [ByteSize Blob] [DecidableEq Blob] {config : ProofConfig PubKey} {label : Nat × Key × RoomEvent PrivKey}

theorem step (keyed : s.Keyed crypto roomId made)
    (chosen : ∀ peerId id privateKey, label.2.2 = .resume peerId id (.privateKey privateKey) → made peerId privateKey)
    (taken : RoomStep config crypto roomId s label after) : after.Keyed crypto roomId made := by
  obtain ⟨now, fresh, event⟩ := label
  have acts (taken : (s.acts crypto roomId event).bind (fun acting => (s.sessions.lookup acting.1).bind fun session =>
        (session.step acting.2 fresh).bind fun next =>
          some { s with sessions := s.sessions.insert acting.1 next }) = some after) : after.Keyed crypto roomId made := by
    obtain ⟨⟨peerId, piece⟩, acting, taken⟩ := Option.bind_eq_some_iff.mp taken
    obtain ⟨session, atPeer, taken⟩ := Option.bind_eq_some_iff.mp taken
    obtain ⟨next, moved, same⟩ := Option.bind_eq_some_iff.mp taken
    cases same
    exact keyed.act acting (chosen peerId) atPeer moved
  cases event with
  | arrive => exact keyed.arrive taken
  | leave => exact keyed.leave taken
  | rotate =>
    cases taken
    exact keyed.called (by simp) _ _
  | serve => exact keyed.serve taken
  | announce => exact keyed.announce taken
  | _ => exact acts taken

end Keyed

section runs
variable [ByteSize PubKey] [DecidableEq PubKey] [DecidableEq PrivKey] [DecidableEq PairKey] [DecidableEq Key]
  [ByteSize Blob] [DecidableEq Blob] {config : ProofConfig PubKey} {label : Nat × Key × RoomEvent PrivKey}
  {labels : List (Nat × Key × RoomEvent PrivKey)} {last : RoomSystem PubKey PrivKey PairKey Key Blob}
  {msg : SealedMsg Blob}

theorem keyed_of_run (run : Run (RoomStep config crypto roomId) .empty labels last) :
    last.Keyed crypto roomId (Generated labels) := by
  induction run with
  | start => exact .empty
  | @next labels current label after _ taken ih =>
    refine (ih.mono fun peerId privateKey made => made.append [label]).step ?_ taken
    intro peerId id privateKey same
    exact ⟨label.1, label.2.1, id, List.mem_append_right _ (List.mem_singleton.mpr (by rw [← same]))⟩

/-- A blob that is relayed was before, or has just been accepted: at the room's epoch, between two
registered peers, and made of a private key of each. -/
theorem relayed_origin (keyed : s.Keyed crypto roomId made) (taken : RoomStep config crypto roomId s label after)
    (relayed : msg ∈ after.sealedKeys) : msg ∈ s.sealedKeys ∨
      (∃ frame, label.2.2 = .serve msg.sender frame) ∧
        (∃ room, s.coordinator.rooms.lookup roomId = some room ∧ room.epoch = msg.epoch ∧ msg.sender ∈ room.peers ∧
          msg.recipient ∈ room.peers) ∧
        (ring crypto roomId made msg.sender).sealed msg.epoch msg.recipient msg.blob := by
  obtain ⟨now, fresh, event⟩ := label
  have acts (taken : (s.acts crypto roomId event).bind (fun acting => (s.sessions.lookup acting.1).bind fun session =>
        (session.step acting.2 fresh).bind fun next =>
          some { s with sessions := s.sessions.insert acting.1 next }) = some after) : msg ∈ s.sealedKeys := by
    obtain ⟨acting, -, taken⟩ := Option.bind_eq_some_iff.mp taken
    obtain ⟨session, -, taken⟩ := Option.bind_eq_some_iff.mp taken
    obtain ⟨next, -, same⟩ := Option.bind_eq_some_iff.mp taken
    cases same
    exact relayed
  cases event with
  | arrive peerId anew =>
    unfold RoomStep step arrive at taken
    simp only at taken
    split at taken
    · cases taken
    · split at taken <;> cases taken <;> exact .inl relayed
  | leave peerId =>
    unfold RoomStep step leave at taken
    simp only at taken
    split at taken <;> cases taken
    exact .inl relayed
  | rotate =>
    cases taken
    exact .inl relayed
  | announce index =>
    obtain ⟨epoch, -, same⟩ := Option.bind_eq_some_iff.mp taken
    cases same
    exact .inl relayed
  | serve peerId frameId =>
    obtain ⟨session, atPeer, taken⟩ := Option.bind_eq_some_iff.mp taken
    obtain ⟨frame, atFrame, taken⟩ := Option.bind_eq_some_iff.mp taken
    obtain ⟨call, pushed, taken⟩ := Option.bind_eq_some_iff.mp taken
    split at taken
    swap
    · cases taken
    have held := (keyed.sessions peerId session atPeer).frames frameId frame atFrame
    by_cases accepted : (replyResult (handleCall config now call s.coordinator).reply :
        Result PubKey PrivKey PairKey Key Blob) = .accepted
    · obtain ⟨work, recipient, publicKey, blob, room, rfl, passed, -⟩ := accepted_publish pushed accepted
      obtain ⟨atRoom, senderIn, recipientIn, current, -⟩ := publishChecks_ok passed
      simp only [accepted, relay, Option.some.injEq] at taken
      rw [← taken] at relayed
      rcases List.mem_append.mp relayed with old | new
      · exact .inl old
      · obtain rfl := List.mem_singleton.mp new
        exact .inr ⟨⟨frameId, rfl⟩, ⟨room, atRoom, current.symm, senderIn, recipientIn⟩, held.2⟩
    · obtain ⟨more, unsent, -⟩ := relay_unaccepted { s with
        coordinator := (handleCall config now call s.coordinator).state
        replies := s.replies ++ [⟨peerId, frameId, frame,
          replyResult (handleCall config now call s.coordinator).reply⟩] } peerId frame accepted
      simp only [Option.some.injEq] at taken
      rw [unsent] at taken
      subst taken
      exact .inl relayed
  | _ => exact .inl (acts taken)

/-- The step of the run in which a relayed blob was published, and what it was published for. -/
theorem publication (run : Run (RoomStep config crypto roomId) .empty labels last) (relayed : msg ∈ last.sealedKeys) :
    ∃ front publish back before room, labels = front ++ publish :: back ∧
      Run (RoomStep config crypto roomId) .empty front before ∧ (∃ frame, publish.2.2 = .serve msg.sender frame) ∧
      before.coordinator.rooms.lookup roomId = some room ∧ room.epoch = msg.epoch ∧ msg.sender ∈ room.peers ∧
      msg.recipient ∈ room.peers ∧ (ring crypto roomId (Generated front) msg.sender).sealed msg.epoch msg.recipient msg.blob := by
  induction run with
  | start => cases relayed
  | @next labels current label after previous taken ih =>
    rcases relayed_origin (keyed_of_run previous) taken relayed with old | ⟨published, ⟨room, atRoom, facts⟩, sealed⟩
    · obtain ⟨front, publish, back, before, room, rfl, rest⟩ := ih old
      exact ⟨front, publish, back ++ [label], before, room, by rw [List.append_assoc, List.cons_append], rest⟩
    · exact ⟨labels, label, [], current, room, rfl, previous, published, atRoom, facts.1, facts.2.1, facts.2.2, sealed⟩

end runs
end RoomSystem

/-- Whoever opens a relayed blob, under whatever names and with whatever public key, does it with
a private key of the blob's sender or recipient, who was registered in the room at the blob's
epoch when it was published. -/
theorem room_key_confidential [ByteSize PubKey] [DecidableEq PubKey] [DecidableEq PrivKey] [DecidableEq PairKey]
    [DecidableEq Key] [ByteSize Blob] [DecidableEq Blob] {config : ProofConfig PubKey}
    {crypto : IdealCrypto PubKey PrivKey PairKey Key Blob} {roomId : String}
    {labels : List (Nat × Key × RoomEvent PrivKey)} {last : RoomSystem PubKey PrivKey PairKey Key Blob}
    (pairwise : crypto.Pairwise) (run : Run (RoomStep config crypto roomId) .empty labels last) {msg : SealedMsg Blob}
    (relayed : msg ∈ last.sealedKeys) {secret : PrivKey} {publicKey : PubKey}
    {pairRoom pairMe pairThem blobRoom sender recipient : String} {pairEpoch blobEpoch : Nat} {key : Key}
    (opened : crypto.openGroupKey msg.blob (crypto.pairwiseKey secret publicKey pairRoom pairEpoch pairMe pairThem)
      blobRoom blobEpoch sender recipient = some key) :
    ∃ front publish back before room holder, labels = front ++ publish :: back ∧
      Run (RoomStep config crypto roomId) .empty front before ∧ (∃ frame, publish.2.2 = .serve msg.sender frame) ∧
      before.coordinator.rooms.lookup roomId = some room ∧ room.epoch = msg.epoch ∧ holder ∈ room.peers ∧
      (holder = msg.sender ∨ holder = msg.recipient) ∧ Generated front holder secret := by
  obtain ⟨front, publish, back, before, room, split, past, publishes, atRoom, current, senderIn, recipientIn, sealed⟩ :=
    RoomSystem.publication run relayed
  obtain ⟨groupKey, mine, theirs, made, madeTheirs, blob⟩ := sealed
  rw [blob, crypto.opens] at opened
  obtain ⟨-, pair, -⟩ := opened
  rcases pairwise _ _ _ _ _ _ _ _ _ _ _ _ pair.symm with rfl | rfl
  · exact ⟨front, publish, back, before, room, msg.sender, split, past, publishes, atRoom, current, senderIn, .inl rfl, made⟩
  · exact ⟨front, publish, back, before, room, msg.recipient, split, past, publishes, atRoom, current, recipientIn,
      .inr rfl, madeTheirs⟩

theorem symbolic_pairwise : symbolic.Pairwise := by
  intro mine theirs roomId epoch me them other otherPublic roomId' epoch' me' them' same
  have secrets : sortSecrets mine theirs = sortSecrets other otherPublic.id := congrArg PairSymbol.secrets same
  unfold sortSecrets at secrets
  split at secrets <;> split at secrets <;> cases secrets <;> simp

/-- Carol opens what Bob has sealed for her, with the private key she registered. -/
theorem confidential_pair :
    ∃ front publish back before room holder,
      entrance "carol" 3 ++ proceeding "carol" [3] ++ entrance "bob" 2 ++ proceeding "bob" [3, 4] ++
          [(0, 0, .serve "bob" 5)] = front ++ publish :: back ∧
        Run (RoomStep unprovenSymbols symbolic "r") .empty front before ∧
        (∃ frame, publish.2.2 = .serve "bob" frame) ∧ before.coordinator.rooms.lookup "r" = some room ∧ room.epoch = 0 ∧
        holder ∈ room.peers ∧ (holder = "bob" ∨ holder = "carol") ∧ Generated front holder 3 := by
  obtain ⟨last, played⟩ : ∃ last : RoomSystem KeySymbol Nat PairSymbol Nat BlobSymbol,
      play (fun s label => s.step unprovenSymbols symbolic "r" label)
        (entrance "carol" 3 ++ proceeding "carol" [3] ++ entrance "bob" 2 ++ proceeding "bob" [3, 4] ++
          [(0, 0, .serve "bob" 5)]) .empty = some last := Option.isSome_iff_exists.mp (by rfl)
  have relayed : (⟨"bob", "carol", 0, ⟨200, ⟨(2, 3), ("bob", "carol"), "r", 0⟩, "r", 0, "bob", "carol"⟩⟩ :
      SealedMsg BlobSymbol) ∈ last.sealedKeys := by
    cases played
    exact List.mem_singleton.mpr rfl
  have opened : symbolic.openGroupKey ⟨200, ⟨(2, 3), ("bob", "carol"), "r", 0⟩, "r", 0, "bob", "carol"⟩
      (symbolic.pairwiseKey 3 ⟨2⟩ "r" 0 "carol" "bob") "r" 0 "bob" "carol" = some 200 := by decide
  exact room_key_confidential symbolic_pairwise (play_run played) relayed opened

end Burble.E2EE
