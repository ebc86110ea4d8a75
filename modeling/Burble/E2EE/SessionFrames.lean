import Burble.E2EE.SessionChange

namespace Burble.E2EE
variable {PubKey PrivKey PairKey Key Blob : Type}

/-- The message a caller will come back to was received. -/
def Caller.Genuine (received : SealedMsg Blob → Prop) : Caller Blob → Prop
  | .ahead msg | .unknown msg => received msg
  | .start | .handler => True

/-- Messages in hand were received, and a blob being published is the distribution's key,
sealed for that peer. -/
def Frame.Genuine (received : SealedMsg Blob → Prop) (sealedFor : Key → Nat → String → Blob → Prop) :
    Frame PubKey PrivKey PairKey Key Blob → Prop
  | .fetchKeySet caller | .settled caller _ => caller.Genuine received
  | .pairwise work .. | .seal work .. => work.caller.Genuine received
  | .publish work peerId _ blob => work.caller.Genuine received ∧ sealedFor work.groupKey work.epoch peerId blob
  | .openPairwise msg .. | .openGroup msg .. => received msg
  | .generateKeypair | .registerKey _ => True

namespace Session

def Genuine (received : SealedMsg Blob → Prop) (sealedFor : Key → Nat → String → Blob → Prop)
    (s : Session PubKey PrivKey PairKey Key Blob) : Prop :=
  ∀ id frame, s.frames.lookup id = some frame → frame.Genuine received sealedFor

variable {s after : Session PubKey PrivKey PairKey Key Blob} {received : SealedMsg Blob → Prop}
  {sealedFor : Key → Nat → String → Blob → Prop}

namespace Genuine

theorem create (localId : String) :
    Genuine received sealedFor (create localId : Session PubKey PrivKey PairKey Key Blob) := by
  intro id frame atId
  cases atId

theorem await (genuine : s.Genuine received sealedFor) {frame : Frame PubKey PrivKey PairKey Key Blob}
    (new : frame.Genuine received sealedFor) : (s.await frame).Genuine received sealedFor := by
  intro id found atId
  simp only [Session.await, FiniteMap.lookup_insert_if] at atId
  split at atId
  · cases atId; exact new
  · exact genuine id found atId

theorem settle (genuine : s.Genuine received sealedFor) {caller : Caller Blob} (ok : Bool)
    (waiting : caller.Genuine received) : (s.settle caller ok).Genuine received sealedFor := by
  cases caller
  case handler => exact genuine
  all_goals exact genuine.await waiting

theorem distributeLoop (genuine : s.Genuine received sealedFor) {work : Distribution PubKey Key Blob}
    (waiting : work.caller.Genuine received) (entries : List (String × PubKey)) :
    (s.distributeLoop work entries).Genuine received sealedFor := by
  induction entries with
  | nil =>
    have installed : (s.install work.groupKey work.epoch).Genuine received sealedFor := genuine
    exact installed.settle true waiting
  | cons entry rest ih =>
    unfold Session.distributeLoop
    split
    · exact ih
    · split
      · exact genuine.settle false waiting
      · exact genuine.await waiting

theorem onKeySet (genuine : s.Genuine received sealedFor) {caller : Caller Blob} (msg : KeySetMsg PubKey)
    (fresh : Key) (waiting : caller.Genuine received) : (s.onKeySet caller msg fresh).Genuine received sealedFor := by
  have cached : (s.cacheKeySet msg).Genuine received sealedFor := genuine
  have waits (status : Status) (epoch : Option Nat) :
      (((s.cacheKeySet msg).setStatus status epoch).settle caller true).Genuine received sealedFor :=
    settle (s := (s.cacheKeySet msg).setStatus status epoch) cached true waiting
  unfold Session.onKeySet chooseRole
  split
  · exact waits _ _
  split
  · exact waits _ _
  split
  · unfold distributeRoomKey
    split
    · exact cached.settle false waiting
    · obtain ⟨-, -, shape⟩ := mint_spec (s.cacheKeySet msg) fresh
      have minted : ((s.cacheKeySet msg).mint fresh).1.Genuine received sealedFor := by
        rw [shape]
        exact cached
      exact minted.distributeLoop waiting _
  · exact waits _ _

theorem openSealed (genuine : s.Genuine received sealedFor) {msg : SealedMsg Blob} (publicKey : PubKey)
    (got : received msg) : (s.openSealed msg publicKey).Genuine received sealedFor := by
  unfold Session.openSealed
  split
  · exact genuine
  · exact genuine.await got

theorem onSealedKey (genuine : s.Genuine received sealedFor) {msg : SealedMsg Blob} (retried : Bool)
    (got : received msg) : (s.onSealedKey msg retried).Genuine received sealedFor := by
  have fetches {caller : Caller Blob} (waiting : caller.Genuine received) :
      (s.await (.fetchKeySet caller)).Genuine received sealedFor := genuine.await waiting
  unfold Session.onSealedKey
  split
  · exact genuine
  split
  · exact genuine
  split
  · split
    · exact genuine
    · exact fetches got
  split
  · exact genuine
  split
  · exact genuine.openSealed _ got
  · split
    · exact genuine
    · exact fetches got

theorem resume (genuine : s.Genuine received sealedFor) {frame : Frame PubKey PrivKey PairKey Key Blob}
    {result : Result PubKey PrivKey PairKey Key Blob} {fresh : Key} (held : frame.Genuine received sealedFor)
    (seals : ∀ work peerId publicKey pair blob, frame = .seal work peerId publicKey pair → result = .sealed blob →
      sealedFor work.groupKey work.epoch peerId blob)
    (taken : s.resume frame result fresh = some after) : after.Genuine received sealedFor := by
  unfold Session.resume at taken
  split at taken
  all_goals try (cases taken; done)
  all_goals try cases taken
  next pair =>
    have keyed : Genuine received sealedFor { s with keypair := some pair } := genuine
    exact keyed.await trivial
  · exact genuine
  next epoch =>
    have adopted : (s.adoptEpoch epoch).1.Genuine received sealedFor := genuine
    exact adopted.await trivial
  · exact genuine
  · exact genuine.onKeySet _ _ held
  · exact genuine.settle _ held
  · exact genuine.await held
  · exact genuine.settle _ held
  next work peerId publicKey pair blob => exact genuine.await ⟨held, seals _ _ _ _ _ rfl rfl⟩
  · exact genuine.settle _ held
  next work peerId publicKey blob =>
    have marked : (s.markSealed work peerId publicKey).Genuine received sealedFor := genuine
    exact marked.distributeLoop held.1 _
  · exact genuine.settle _ held.1
  · split <;> exact genuine
  · exact genuine
  · split
    · exact genuine.onSealedKey _ held
    · exact genuine
  · split at taken
    · cases taken; exact genuine.openSealed _ held
    · cases taken; exact genuine
  · exact genuine.await held
  · exact genuine
  next msg pair key =>
    have installed : ((s.recordOrigin msg.epoch key).install key msg.epoch).Genuine received sealedFor := genuine
    exact installed
  · exact genuine

/-- Frames stay genuine when what is heard was received and what is sealed is what the
distribution asked for. -/
theorem step (genuine : s.Genuine received sealedFor) {label : Event PubKey PrivKey PairKey Key Blob × Key}
    (heard : ∀ msg, label.1 = .onSealedKey msg → received msg)
    (seals : ∀ work peerId publicKey pair blob,
      s.resuming label = some (.seal work peerId publicKey pair, .sealed blob) →
        sealedFor work.groupKey work.epoch peerId blob)
    (taken : SessionStep s label after) : after.Genuine received sealedFor := by
  obtain ⟨event, fresh⟩ := label
  cases event with
  | start =>
    cases taken
    exact await (s := s.setStatus .registering none) genuine trivial
  | refreshKeySet =>
    cases taken
    exact genuine.await trivial
  | onKeySet msg =>
    cases taken
    exact genuine.onKeySet msg fresh trivial
  | onSealedKey msg =>
    cases taken
    exact genuine.onSealedKey false (heard msg rfl)
  | resume id result =>
    simp only [SessionStep, Session.step] at taken
    split at taken
    · cases taken
    next frame atId =>
      have erased : Genuine received sealedFor { s with frames := s.frames.erase id } := by
        intro other found atOther
        rw [FiniteMap.lookup_erase_if] at atOther
        split at atOther
        · cases atOther
        · exact genuine other found atOther
      refine erased.resume (genuine id frame atId) ?_ taken
      rintro work peerId publicKey pair blob rfl rfl
      exact seals work peerId publicKey pair blob (by simp only [resuming, atId, Option.map_some])

end Genuine

theorem Genuine.mono {wider : SealedMsg Blob → Prop} (genuine : s.Genuine received sealedFor)
    (weaken : ∀ msg, received msg → wider msg) : s.Genuine wider sealedFor := by
  have callers {caller : Caller Blob} (waiting : caller.Genuine received) : caller.Genuine wider := by
    cases caller <;> first | trivial | exact weaken _ waiting
  intro id frame atId
  have held := genuine id frame atId
  cases frame
  case generateKeypair | registerKey => trivial
  case publish => exact ⟨callers held.1, held.2⟩
  case openPairwise | openGroup => exact weaken _ held
  all_goals exact callers held

end Session
end Burble.E2EE
