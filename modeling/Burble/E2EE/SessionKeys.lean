import Burble.E2EE.SessionChange

namespace Burble.E2EE
variable {PubKey PrivKey PairKey Key Blob : Type}

namespace Session
variable {s after : Session PubKey PrivKey PairKey Key Blob}
  {label : Event PubKey PrivKey PairKey Key Blob × Key}

/-- The installed key was minted or opened for the epoch the session is at. -/
def Fresh (s : Session PubKey PrivKey PairKey Key Blob) : Prop :=
  ∀ key, s.roomKey = some key → (s.epoch, key) ∈ s.origins

/-- A publish whose acceptance ends its distribution: nobody is left to serve. -/
def EndsWith (s : Session PubKey PrivKey PairKey Key Blob) (work : Distribution PubKey Key Blob)
    (peerId : String) : Prop :=
  ∀ entry ∈ work.rest, entry.1 = s.localId ∨ entry.1 ∈ peerId :: s.sealedSent

instance (s : Session PubKey PrivKey PairKey Key Blob) (work : Distribution PubKey Key Blob) (peerId : String) :
    Decidable (s.EndsWith work peerId) :=
  inferInstanceAs (Decidable (∀ entry ∈ work.rest, _ ∨ _))

/-- The epoch a handler captured before its awaits, if this step installs its key. -/
def installing (s : Session PubKey PrivKey PairKey Key Blob)
    (label : Event PubKey PrivKey PairKey Key Blob × Key) : Option Nat :=
  match s.publishes label, s.opens label with
  | some (work, peerId, _), _ => if s.EndsWith work peerId then some work.epoch else none
  | none, some (msg, _) => some msg.epoch
  | none, none => none

/-- A handler that is about to install a key resumes at the epoch it captured. -/
def InstallsTimely (s : Session PubKey PrivKey PairKey Key Blob)
    (label : Event PubKey PrivKey PairKey Key Blob × Key) : Prop :=
  ∀ epoch ∈ s.installing label, epoch = s.epoch

instance (s : Session PubKey PrivKey PairKey Key Blob) (label : Event PubKey PrivKey PairKey Key Blob × Key) :
    Decidable (s.InstallsTimely label) := inferInstanceAs (Decidable (∀ epoch ∈ s.installing label, _))

/-- Every key in play has a recorded origin: the installed one for the current
epoch, the leader's and each distribution's for their own. -/
structure KeysRecorded (s : Session PubKey PrivKey PairKey Key Blob) : Prop where
  fresh : s.Fresh
  leader : ∀ epoch key, s.leaderKey = some (epoch, key) → (epoch, key) ∈ s.origins
  sent : ∀ work peerId publicKey, s.Sends work peerId publicKey → (work.epoch, work.groupKey) ∈ s.origins

namespace KeysRecorded

theorem create (localId : String) : KeysRecorded (create localId : Session PubKey PrivKey PairKey Key Blob) where
  fresh := by simp [Fresh, Session.create, roomKey]
  leader := by simp [Session.create]
  sent := by rintro _ _ _ ⟨_, _, atId, _⟩; cases atId

theorem quiet (inv : s.KeysRecorded) (same : Quiet s after) : after.KeysRecorded where
  fresh key held := by rw [same.epoch, same.origins]; exact inv.fresh key (same.roomKey ▸ held)
  leader epoch key found := by rw [same.origins]; exact inv.leader epoch key (same.leaderKey ▸ found)
  sent work peerId publicKey sent := by rw [same.origins]; exact inv.sent _ _ _ (same.sends sent)

theorem adoptEpoch (inv : s.KeysRecorded) (epoch : Nat) : (s.adoptEpoch epoch).1.KeysRecorded := by
  refine ⟨fun key held => ?_, inv.leader, inv.sent⟩
  rw [roomKey_adoptEpoch] at held
  split at held
  next older =>
    rw [epoch_adoptEpoch, max_eq_left older]
    exact inv.fresh key held
  next => cases held

theorem cacheKeySet (inv : s.KeysRecorded) (msg : KeySetMsg PubKey) : (s.cacheKeySet msg).KeysRecorded :=
  have adopted := inv.adoptEpoch msg.epoch
  ⟨adopted.fresh, adopted.leader, adopted.sent⟩

theorem recordOrigin (inv : s.KeysRecorded) (epoch : Nat) (key : Key) : (s.recordOrigin epoch key).KeysRecorded where
  fresh held same := List.mem_cons_of_mem _ (inv.fresh held same)
  leader epoch' held same := List.mem_cons_of_mem _ (inv.leader epoch' held same)
  sent work peerId publicKey sent := List.mem_cons_of_mem _ (inv.sent work peerId publicKey sent)

theorem install (inv : s.KeysRecorded) {key : Key} {epoch : Nat} (recorded : (s.epoch, key) ∈ s.origins) :
    (s.install key epoch).KeysRecorded where
  fresh held same := by
    cases same
    exact recorded
  leader := inv.leader
  sent := inv.sent

theorem mint (inv : s.KeysRecorded) (key : Key) :
    (s.mint key).1.KeysRecorded ∧ (s.epoch, (s.mint key).2) ∈ (s.mint key).1.origins ∧
      (s.mint key).1.epoch = s.epoch := by
  have minted : KeysRecorded { s.recordOrigin s.epoch key with leaderKey := some (s.epoch, key) } := by
    obtain ⟨fresh, -, sent⟩ := inv.recordOrigin s.epoch key
    exact ⟨fresh, fun epoch held same => by cases same; exact List.mem_cons_self .., sent⟩
  unfold Session.mint
  split
  next epoch old atLeader =>
    split
    next same => exact ⟨inv, same ▸ inv.leader epoch old atLeader, rfl⟩
    next => exact ⟨minted, List.mem_cons_self .., rfl⟩
  next => exact ⟨minted, List.mem_cons_self .., rfl⟩

theorem loop (inv : s.KeysRecorded) {work : Distribution PubKey Key Blob} {entries : List (String × PubKey)}
    (carried : (work.epoch, work.groupKey) ∈ s.origins)
    (timely : (∀ entry ∈ entries, entry.1 = s.localId ∨ entry.1 ∈ s.sealedSent) → work.epoch = s.epoch)
    (outcome : Loop s work entries after) : after.KeysRecorded := by
  cases outcome with
  | installed done same => exact (inv.install (timely done ▸ carried)).quiet same
  | stopped same => exact inv.quiet same
  | suspended _ rest peerId publicKey privateKey _ _ _ _ awaits =>
    subst awaits
    refine ⟨inv.fresh, inv.leader, fun other otherId otherKey sent => ?_⟩
    rcases sends_await sent with old | same
    · exact inv.sent _ _ _ old
    · cases same; exact carried

theorem step (inv : s.KeysRecorded) (timely : s.InstallsTimely label) (taken : SessionStep s label after) :
    after.KeysRecorded := by
  have erased := inv.quiet (Quiet.dequeue s label)
  have same := Quiet.dequeue s label
  cases step_change taken with
  | quiet rest => exact inv.quiet rest
  | registered epoch _ rest => exact (erased.adoptEpoch epoch).quiet rest
  | cached msg _ rest => exact (erased.cacheKeySet msg).quiet rest
  | distributing msg caller _ _ _ _ outcome =>
    obtain ⟨minted, recorded, epoch⟩ := (erased.cacheKeySet msg).mint label.2
    exact minted.loop recorded (fun _ => epoch.symm) outcome
  | served work peerId publicKey replied sent outcome =>
    have marked : ((s.dequeue label).markSealed work peerId publicKey).KeysRecorded :=
      ⟨erased.fresh, erased.leader, erased.sent⟩
    have carried : (work.epoch, work.groupKey) ∈ (s.dequeue label).origins := by
      rw [same.origins]
      exact inv.sent _ _ _ sent
    refine marked.loop carried (fun done => ?_) outcome
    have ends : s.EndsWith work peerId := fun entry member => by
      simpa only [markSealed, same.localId, same.sealedSent] using done entry member
    have current := timely work.epoch (by simp only [installing, replied, if_pos ends, Option.mem_def])
    exact current.trans same.epoch.symm
  | opened msg key replied rest =>
    have unsent : s.publishes label = none := publishes_of_opens replied
    have current : msg.epoch = s.epoch :=
      timely msg.epoch (by simp only [installing, unsent, replied, Option.mem_def])
    have recorded := erased.recordOrigin msg.epoch key
    refine (recorded.install ?_).quiet rest
    rw [current, ← same.epoch]
    exact List.mem_cons_self ..

end KeysRecorded
end Session

/-- If no handler installs a key after the epoch it captured has passed, the session
only ever holds a key minted or opened for the epoch it is at. -/
theorem room_key_fresh_of_timely {localId : String}
    {labels : List (Event PubKey PrivKey PairKey Key Blob × Key)} {last : Session PubKey PrivKey PairKey Key Blob}
    (run : SessionRun Session.InstallsTimely localId labels last) : last.Fresh :=
  (run.invariant (Session.KeysRecorded.create localId) fun inv taken => inv.step taken.1 taken.2).fresh

/-- Bob opens a key sealed for epoch 0 while the key set of epoch 1 arrives. -/
def overtakenOpening : List (Event Nat Nat Nat Nat Nat × Nat) :=
  [(.start, 0), (.resume 0 (.keypair ⟨20, 20⟩), 0), (.resume 1 (.registered 0), 0),
   (.resume 2 (.keySet ⟨0, AList.insert "alice" 10 (AList.insert "bob" 20 ∅)⟩), 0), (.resume 3 .settled, 0),
   (.onSealedKey ⟨"alice", "bob", 0, 5⟩, 0), (.resume 4 (.pair 1), 0),
   (.onKeySet ⟨1, AList.insert "alice" 10 (AList.insert "bob" 20 ∅)⟩, 0), (.resume 5 (.opened 77), 0)]

/-- The key of epoch 0 ends up installed at epoch 1. -/
theorem stale_key_installed : ¬ ∀ labels (last : Session Nat Nat Nat Nat Nat),
    Run SessionStep (Session.create "bob") labels last → last.Fresh := by
  intro always
  have stale := always overtakenOpening _ (play_run (by rfl)) 77 rfl
  revert stale
  decide

theorem room_key_fresh_of_timely_opening :
    ∃ last ∈ play (fun s label => if s.InstallsTimely label then s.step label.1 label.2 else none)
      (overtakenOpening.eraseIdx 7) (Session.create "bob"), last.roomKey = some 77 ∧ last.Fresh := by
  obtain ⟨last, played⟩ : ∃ last, last ∈ play
    (fun s label => if s.InstallsTimely label then s.step label.1 label.2 else none)
    (overtakenOpening.eraseIdx 7) (Session.create "bob") := Option.isSome_iff_exists.mp (by rfl)
  exact ⟨last, played, by cases played; rfl, room_key_fresh_of_timely (play_run_guarded played)⟩

end Burble.E2EE
