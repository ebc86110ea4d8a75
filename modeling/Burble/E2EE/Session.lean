import Burble.FiniteMap
import Burble.TextOrder

namespace Burble.E2EE

/-- The lowest peer id in string sort order, or nothing for an empty set. -/
def leaderOf (ids : List String) : Option String :=
  ids.foldr (fun id best => match best with
    | none => some id
    | some low => if utf16 low < utf16 id then some low else some id) none

theorem leaderOf_eq_none {ids : List String} : leaderOf ids = none ↔ ids = [] := by
  cases ids with
  | nil => simp [leaderOf]
  | cons id rest =>
    simp only [leaderOf, List.foldr_cons, reduceCtorEq, iff_false]
    split
    · simp
    · split <;> simp

theorem leaderOf_eq_some {ids : List String} {leader : String} :
    leaderOf ids = some leader ↔ leader ∈ ids ∧ ∀ id ∈ ids, utf16 leader ≤ utf16 id := by
  induction ids generalizing leader with
  | nil => simp [leaderOf]
  | cons id rest ih =>
    simp only [leaderOf, List.foldr_cons]
    split
    next none =>
      obtain rfl := leaderOf_eq_none.mp none
      simp only [Option.some.injEq, List.mem_singleton, forall_eq]
      exact ⟨fun same => ⟨same.symm, le_of_eq (by rw [same])⟩, fun only => only.1.symm⟩
    next low atLow =>
      obtain ⟨member, least⟩ := ih.mp atLow
      simp only [List.mem_cons, forall_eq_or_imp]
      split
      next lower =>
        rw [Option.some.injEq]
        refine ⟨?_, fun ⟨among, before, lowest⟩ => ?_⟩
        · rintro rfl
          exact ⟨.inr member, le_of_lt lower, least⟩
        · rcases among with rfl | among
          · exact absurd (lowest low member) (not_le_of_gt lower)
          · exact utf16_injective (le_antisymm (least leader among) (lowest low member))
      next higher =>
        rw [Option.some.injEq]
        refine ⟨?_, fun ⟨among, before, lowest⟩ => ?_⟩
        · rintro rfl
          exact ⟨.inl rfl, le_refl _, fun other found => (not_lt.mp higher).trans (least other found)⟩
        · rcases among with rfl | among
          · rfl
          · exact utf16_injective (le_antisymm ((not_lt.mp higher).trans (least leader among)) before)

/-- Every peer computes the same leader, in whatever order it lists the ids. -/
theorem leaderOf_perm {ids others : List String} (same : ids.Perm others) : leaderOf ids = leaderOf others := by
  cases atLeader : leaderOf ids with
  | none =>
    obtain rfl := leaderOf_eq_none.mp atLeader
    rw [List.nil_perm.mp same]
    rfl
  | some leader =>
    obtain ⟨member, least⟩ := leaderOf_eq_some.mp atLeader
    exact (leaderOf_eq_some.mpr ⟨same.mem_iff.mp member, fun id found => least id (same.mem_iff.mpr found)⟩).symm

/-- `KeyEpoch`: the epoch a session is at and the room key it encrypts with. -/
structure KeyEpoch (Key : Type) where
  epoch : Nat
  roomKey : Option Key

namespace KeyEpoch
variable {Key : Type}

/-- Adopt a newer epoch and drop the room key; an equal or older one is ignored. -/
def advanceTo (epochs : KeyEpoch Key) (epoch : Nat) : KeyEpoch Key × Bool :=
  if epoch ≤ epochs.epoch then (epochs, false) else (⟨epoch, none⟩, true)

def setRoomKey (epochs : KeyEpoch Key) (key : Key) : KeyEpoch Key := { epochs with roomKey := some key }

def hasRoomKey (epochs : KeyEpoch Key) : Bool := epochs.roomKey.isSome

end KeyEpoch

inductive Status
  | idle
  | registering
  | awaitingKey
  | ready
  | failed
  deriving DecidableEq, Repr

structure Keypair (PubKey PrivKey : Type) where
  publicKey : PubKey
  privateKey : PrivKey

/-- An `e2ee_key_set` broadcast, or the reply to an `e2ee_key_set` request. -/
structure KeySetMsg (PubKey : Type) where
  epoch : Nat
  publicKeys : FiniteMap String PubKey

/-- An `e2ee_sealed_key` broadcast. -/
structure SealedMsg (Blob : Type) where
  sender : String
  recipient : String
  epoch : Nat
  blob : Blob
  deriving DecidableEq

/-- Who awaits the result of a key-set refresh or of a distribution. -/
inductive Caller (Blob : Type)
  /-- `start()` awaits `refreshKeySet()` -/
  | start
  /-- the broadcast handler, or a direct `refreshKeySet()` -/
  | handler
  /-- `onSealedKey` catching up with a blob from an epoch ahead -/
  | ahead (msg : SealedMsg Blob)
  /-- `onSealedKey` looking for the key of an unknown sender -/
  | unknown (msg : SealedMsg Blob)
  deriving DecidableEq

/-- The locals of one run of `#distributeRoomKey`: the epoch and key it captured,
and the entries its loop has still to visit. -/
structure Distribution (PubKey Key Blob : Type) where
  caller : Caller Blob
  epoch : Nat
  groupKey : Key
  rest : List (String × PubKey)
  deriving DecidableEq

/-- A suspended handler, named after what it awaits. -/
inductive Frame (PubKey PrivKey PairKey Key Blob : Type)
  | generateKeypair
  | registerKey (publicKey : PubKey)
  | fetchKeySet (caller : Caller Blob)
  | pairwise (work : Distribution PubKey Key Blob) (peerId : String) (publicKey : PubKey) (privateKey : PrivKey)
  | seal (work : Distribution PubKey Key Blob) (peerId : String) (publicKey : PubKey) (pair : PairKey)
  | publish (work : Distribution PubKey Key Blob) (peerId : String) (publicKey : PubKey) (blob : Blob)
  | settled (caller : Caller Blob) (ok : Bool)
  | openPairwise (msg : SealedMsg Blob) (publicKey : PubKey) (privateKey : PrivKey)
  | openGroup (msg : SealedMsg Blob) (pair : PairKey)
  deriving DecidableEq

/-- What an awaited promise settles with. -/
inductive Result (PubKey PrivKey PairKey Key Blob : Type)
  | keypair (pair : Keypair PubKey PrivKey)
  | registered (epoch : Nat)
  | keySet (msg : KeySetMsg PubKey)
  | pair (key : PairKey)
  | sealed (blob : Blob)
  | accepted
  | opened (key : Key)
  | settled
  | threw

/-- One publish the session has had accepted: the key, sealed under which epoch, to
which peer and which of its public keys. -/
structure Served (PubKey Key : Type) where
  epoch : Nat
  key : Key
  peerId : String
  publicKey : PubKey
  deriving DecidableEq

/-- `E2EESession`. The last three fields are history: publishes the session has had
accepted, keys it minted or opened with their epochs, and the last key set it took
for an epoch it was at. No handler reads them. -/
structure Session (PubKey PrivKey PairKey Key Blob : Type) where
  localId : String
  epochs : KeyEpoch Key
  keypair : Option (Keypair PubKey PrivKey)
  keySet : FiniteMap String PubKey
  sealedSent : List String
  leaderKey : Option (Nat × Key)
  status : Status
  statusEpoch : Option Nat
  frames : FiniteMap Nat (Frame PubKey PrivKey PairKey Key Blob)
  nextFrame : Nat
  served : List (Served PubKey Key)
  origins : List (Nat × Key)
  accepted : Option (KeySetMsg PubKey)

variable {PubKey PrivKey PairKey Key Blob : Type}

namespace Session

/-- `new E2EESession(..)`. -/
def create (localId : String) : Session PubKey PrivKey PairKey Key Blob where
  localId := localId
  epochs := ⟨0, none⟩
  keypair := none
  keySet := ∅
  sealedSent := []
  leaderKey := none
  status := .idle
  statusEpoch := none
  frames := ∅
  nextFrame := 0
  served := []
  origins := []
  accepted := none

variable (s : Session PubKey PrivKey PairKey Key Blob)

def epoch : Nat := s.epochs.epoch

def roomKey : Option Key := s.epochs.roomKey

def hasRoomKey : Bool := s.epochs.hasRoomKey

def isLeader : Bool := leaderOf s.keySet.keys = some s.localId

/-- The detail of a status names an epoch in every call but those for IDLE,
REGISTERING and FAILED. -/
def setStatus (status : Status) (epoch : Option Nat) : Session PubKey PrivKey PairKey Key Blob :=
  { s with status, statusEpoch := epoch }

/-- Suspend a handler. -/
def await (frame : Frame PubKey PrivKey PairKey Key Blob) : Session PubKey PrivKey PairKey Key Blob :=
  { s with frames := s.frames.insert s.nextFrame frame, nextFrame := s.nextFrame + 1 }

/-- A refresh or distribution ends; whoever awaits it resumes at a later step. -/
def settle (caller : Caller Blob) (ok : Bool) : Session PubKey PrivKey PairKey Key Blob :=
  match caller with
  | .handler => s
  | _ => s.await (.settled caller ok)

def adoptEpoch (epoch : Nat) : Session PubKey PrivKey PairKey Key Blob × Bool :=
  ({ s with epochs := (s.epochs.advanceTo epoch).1 }, (s.epochs.advanceTo epoch).2)

/-- `setRoomKey` and READY, at the end of a distribution or of an opened blob. -/
def install (key : Key) (epoch : Nat) : Session PubKey PrivKey PairKey Key Blob :=
  { s with epochs := s.epochs.setRoomKey key, status := .ready, statusEpoch := some epoch }

/-- The loop of `#distributeRoomKey`, up to its next await or to its end. -/
def distributeLoop (work : Distribution PubKey Key Blob) :
    List (String × PubKey) → Session PubKey PrivKey PairKey Key Blob
  | [] => (s.install work.groupKey work.epoch).settle work.caller true
  | (peerId, publicKey) :: rest =>
    if peerId = s.localId ∨ peerId ∈ s.sealedSent then distributeLoop work rest
    else match s.keypair with
      | none => s.settle work.caller false
      | some keypair => s.await (.pairwise { work with rest } peerId publicKey keypair.privateKey)

/-- A publish was accepted. -/
def markSealed (work : Distribution PubKey Key Blob) (peerId : String) (publicKey : PubKey) :
    Session PubKey PrivKey PairKey Key Blob :=
  { s with
    sealedSent := peerId :: s.sealedSent
    served := ⟨work.epoch, work.groupKey, peerId, publicKey⟩ :: s.served }

/-- History: this key was minted or opened for this epoch. -/
def recordOrigin (epoch : Nat) (key : Key) : Session PubKey PrivKey PairKey Key Blob :=
  { s with origins := (epoch, key) :: s.origins }

/-- One room key per epoch: keep the one minted for this epoch, or mint `fresh`. -/
def mint (fresh : Key) : Session PubKey PrivKey PairKey Key Blob × Key :=
  match s.leaderKey with
  | some (epoch, key) =>
    if epoch = s.epoch then (s, key)
    else ({ s.recordOrigin s.epoch fresh with leaderKey := some (s.epoch, fresh) }, fresh)
  | none => ({ s.recordOrigin s.epoch fresh with leaderKey := some (s.epoch, fresh) }, fresh)

def distributeRoomKey (caller : Caller Blob) (fresh : Key) : Session PubKey PrivKey PairKey Key Blob :=
  match s.keypair with
  | none => s.settle caller false
  | some _ =>
    let (minted, groupKey) := s.mint fresh
    minted.distributeLoop ⟨caller, s.epoch, groupKey, []⟩ s.keySet.toList

/-- The first half of `onKeySet`: adopt the epoch and cache the key set, which a key
set of an older epoch replaces as well. What was sealed is forgotten on a move. -/
def cacheKeySet (msg : KeySetMsg PubKey) : Session PubKey PrivKey PairKey Key Blob :=
  let (adopted, moved) := s.adoptEpoch msg.epoch
  { adopted with
    keySet := msg.publicKeys
    sealedSent := if moved then [] else adopted.sealedSent
    accepted := if msg.epoch = adopted.epoch then some msg else adopted.accepted }

/-- The second half of `onKeySet`: wait, be ready, or distribute a key as leader. -/
def chooseRole (caller : Caller Blob) (fresh : Key) : Session PubKey PrivKey PairKey Key Blob :=
  if s.keySet.size ≤ 1 then (s.setStatus .awaitingKey (some s.epoch)).settle caller true
  else if s.hasRoomKey then (s.setStatus .ready (some s.epoch)).settle caller true
  else if s.isLeader then s.distributeRoomKey caller fresh
  else (s.setStatus .awaitingKey (some s.epoch)).settle caller true

def onKeySet (caller : Caller Blob) (msg : KeySetMsg PubKey) (fresh : Key) :
    Session PubKey PrivKey PairKey Key Blob :=
  (s.cacheKeySet msg).chooseRole caller fresh

/-- The decryption half of `onSealedKey`, from the sender's public key on. -/
def openSealed (msg : SealedMsg Blob) (publicKey : PubKey) : Session PubKey PrivKey PairKey Key Blob :=
  match s.keypair with
  | none => s.setStatus .awaitingKey (some msg.epoch)
  | some keypair => s.await (.openPairwise msg publicKey keypair.privateKey)

/-- `onSealedKey`. Both refreshes are tried once, so `retried` stops them. -/
def onSealedKey (msg : SealedMsg Blob) (retried : Bool) : Session PubKey PrivKey PairKey Key Blob :=
  if msg.recipient ≠ "" ∧ msg.recipient ≠ s.localId then s
  else if msg.sender = "" ∨ msg.sender = s.localId then s
  else if s.epoch < msg.epoch then
    if retried then s else s.await (.fetchKeySet (.ahead msg))
  else if msg.epoch < s.epoch then s
  else match s.keySet.lookup msg.sender with
    | some publicKey => s.openSealed msg publicKey
    | none => if retried then s else s.await (.fetchKeySet (.unknown msg))

/-- Resume a suspended handler (already taken off `frames`) with the result it awaited.
Results that do not fit the await are no step. -/
def resume (frame : Frame PubKey PrivKey PairKey Key Blob) (result : Result PubKey PrivKey PairKey Key Blob)
    (fresh : Key) : Option (Session PubKey PrivKey PairKey Key Blob) :=
  match frame, result with
  | .generateKeypair, .keypair pair => some ({ s with keypair := some pair }.await (.registerKey pair.publicKey))
  | .generateKeypair, .threw => some (s.setStatus .failed none)
  | .registerKey _, .registered epoch => some ((s.adoptEpoch epoch).1.await (.fetchKeySet .start))
  | .registerKey _, .threw => some (s.setStatus .failed none)
  | .fetchKeySet caller, .keySet msg => some (s.onKeySet caller msg fresh)
  | .fetchKeySet caller, .threw => some (s.settle caller false)
  | .pairwise work peerId publicKey _, .pair key => some (s.await (.seal work peerId publicKey key))
  | .pairwise work _ _ _, .threw => some (s.settle work.caller false)
  | .seal work peerId publicKey _, .sealed blob => some (s.await (.publish work peerId publicKey blob))
  | .seal work _ _ _, .threw => some (s.settle work.caller false)
  | .publish work peerId publicKey _, .accepted =>
    some ((s.markSealed work peerId publicKey).distributeLoop work work.rest)
  | .publish work _ _ _, .threw => some (s.settle work.caller false)
  | .settled .start ok, .settled => some (if ok then s else s.setStatus .failed none)
  | .settled .handler _, .settled => some s
  | .settled (.ahead msg) _, .settled => some (if msg.epoch = s.epoch then s.onSealedKey msg true else s)
  | .settled (.unknown msg) _, .settled =>
    match s.keySet.lookup msg.sender with
    | some publicKey => some (s.openSealed msg publicKey)
    | none => some s
  | .openPairwise msg _ _, .pair key => some (s.await (.openGroup msg key))
  | .openPairwise msg _ _, .threw => some (s.setStatus .awaitingKey (some msg.epoch))
  | .openGroup msg _, .opened key =>
    some ((s.recordOrigin msg.epoch key).install key msg.epoch)
  | .openGroup msg _, .threw => some (s.setStatus .awaitingKey (some msg.epoch))
  | _, _ => none

end Session

/-- What can happen to a session between two await points. -/
inductive Event (PubKey PrivKey PairKey Key Blob : Type)
  | start
  | refreshKeySet
  | onKeySet (msg : KeySetMsg PubKey)
  | onSealedKey (msg : SealedMsg Blob)
  | resume (frame : Nat) (result : Result PubKey PrivKey PairKey Key Blob)

/-- One uninterrupted piece of one handler. `fresh` is what `randomGroupKey` returns
in it, if it is called. -/
def Session.step (s : Session PubKey PrivKey PairKey Key Blob)
    (event : Event PubKey PrivKey PairKey Key Blob) (fresh : Key) :
    Option (Session PubKey PrivKey PairKey Key Blob) :=
  match event with
  | .start => some ((s.setStatus .registering none).await .generateKeypair)
  | .refreshKeySet => some (s.await (.fetchKeySet .handler))
  | .onKeySet msg => some (s.onKeySet .handler msg fresh)
  | .onSealedKey msg => some (s.onSealedKey msg false)
  | .resume frame result =>
    match s.frames.lookup frame with
    | none => none
    | some suspended => { s with frames := s.frames.erase frame }.resume suspended result fresh

end Burble.E2EE
