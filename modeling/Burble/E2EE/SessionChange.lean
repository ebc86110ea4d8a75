import Burble.Runs
import Burble.E2EE.Session

namespace Burble.E2EE
variable {PubKey PrivKey PairKey Key Blob : Type}

/-- One piece of one handler; the label is the event and what `randomGroupKey` returns. -/
def SessionStep (before : Session PubKey PrivKey PairKey Key Blob)
    (label : Event PubKey PrivKey PairKey Key Blob × Key) (after : Session PubKey PrivKey PairKey Key Blob) : Prop :=
  before.step label.1 label.2 = some after

/-- Runs of one session from its construction, against any environment. -/
abbrev SessionRun (guard : Session PubKey PrivKey PairKey Key Blob →
      Event PubKey PrivKey PairKey Key Blob × Key → Prop) (localId : String)
    (labels : List (Event PubKey PrivKey PairKey Key Blob × Key))
    (last : Session PubKey PrivKey PairKey Key Blob) : Prop :=
  Run (Guarded guard SessionStep) (Session.create localId) labels last

/-- The locals of a suspended distribution, the peer its loop is at and that peer's key. -/
def Frame.sending? : Frame PubKey PrivKey PairKey Key Blob → Option (Distribution PubKey Key Blob × String × PubKey)
  | .pairwise work peerId publicKey _ | .seal work peerId publicKey _ | .publish work peerId publicKey _ =>
    some (work, peerId, publicKey)
  | _ => none

namespace Session

/-- A distribution is suspended at this peer. -/
def Sends (s : Session PubKey PrivKey PairKey Key Blob) (work : Distribution PubKey Key Blob) (peerId : String)
    (publicKey : PubKey) : Prop :=
  ∃ id frame, s.frames.lookup id = some frame ∧ frame.sending? = some (work, peerId, publicKey)

/-- The handler a label resumes, and the result it resumes with. -/
def resuming (s : Session PubKey PrivKey PairKey Key Blob) (label : Event PubKey PrivKey PairKey Key Blob × Key) :
    Option (Frame PubKey PrivKey PairKey Key Blob × Result PubKey PrivKey PairKey Key Blob) :=
  match label.1 with
  | .resume id result => (s.frames.lookup id).map (·, result)
  | _ => none

/-- The register reply handled in a step. -/
def registers (s : Session PubKey PrivKey PairKey Key Blob) (label : Event PubKey PrivKey PairKey Key Blob × Key) :
    Option Nat :=
  match s.resuming label with
  | some (.registerKey _, .registered epoch) => some epoch
  | _ => none

/-- The key set handled in a step: a broadcast, or the reply to a fetch. -/
def takes (s : Session PubKey PrivKey PairKey Key Blob) (label : Event PubKey PrivKey PairKey Key Blob × Key) :
    Option (KeySetMsg PubKey) :=
  match label.1, s.resuming label with
  | .onKeySet msg, _ => some msg
  | _, some (.fetchKeySet _, .keySet msg) => some msg
  | _, _ => none

/-- The distribution whose publish is accepted in a step, the peer and its key. -/
def publishes (s : Session PubKey PrivKey PairKey Key Blob) (label : Event PubKey PrivKey PairKey Key Blob × Key) :
    Option (Distribution PubKey Key Blob × String × PubKey) :=
  match s.resuming label with
  | some (.publish work peerId publicKey _, .accepted) => some (work, peerId, publicKey)
  | _ => none

/-- The message whose key is opened in a step, and the key. -/
def opens (s : Session PubKey PrivKey PairKey Key Blob) (label : Event PubKey PrivKey PairKey Key Blob × Key) :
    Option (SealedMsg Blob × Key) :=
  match s.resuming label with
  | some (.openGroup msg _, .opened key) => some (msg, key)
  | _ => none

theorem publishes_of_opens {s : Session PubKey PrivKey PairKey Key Blob}
    {label : Event PubKey PrivKey PairKey Key Blob × Key} {opened : SealedMsg Blob × Key}
    (replied : s.opens label = some opened) : s.publishes label = none := by
  unfold opens at replied
  split at replied
  next resumed => simp only [publishes, resumed]
  next => cases replied

theorem sends_await {s : Session PubKey PrivKey PairKey Key Blob} {frame : Frame PubKey PrivKey PairKey Key Blob}
    {work : Distribution PubKey Key Blob} {peerId : String} {publicKey : PubKey}
    (sent : (s.await frame).Sends work peerId publicKey) :
    s.Sends work peerId publicKey ∨ frame.sending? = some (work, peerId, publicKey) := by
  obtain ⟨id, found, atId, sending⟩ := sent
  simp only [await, FiniteMap.lookup_insert_if] at atId
  split at atId
  · cases atId; exact .inr sending
  · exact .inl ⟨id, found, atId, sending⟩

/-- The resumed handler is taken off the suspended ones. -/
def dequeue (s : Session PubKey PrivKey PairKey Key Blob) (label : Event PubKey PrivKey PairKey Key Blob × Key) :
    Session PubKey PrivKey PairKey Key Blob :=
  match label.1 with
  | .resume id _ => { s with frames := s.frames.erase id }
  | _ => s

/-- No epoch, key or key set moves, no distribution starts, and READY is kept or
repeated for the key that is held. -/
structure Quiet (s after : Session PubKey PrivKey PairKey Key Blob) : Prop where
  localId : after.localId = s.localId
  epochs : after.epochs = s.epochs
  keySet : after.keySet = s.keySet
  sealedSent : after.sealedSent = s.sealedSent
  leaderKey : after.leaderKey = s.leaderKey
  served : after.served = s.served
  origins : after.origins = s.origins
  accepted : after.accepted = s.accepted
  sends : ∀ {work peerId publicKey}, after.Sends work peerId publicKey → s.Sends work peerId publicKey
  ready : after.status = .ready → s.status = .ready ∨ s.hasRoomKey = true

variable {s middle after : Session PubKey PrivKey PairKey Key Blob}

namespace Quiet

theorem refl (s : Session PubKey PrivKey PairKey Key Blob) : Quiet s s :=
  ⟨rfl, rfl, rfl, rfl, rfl, rfl, rfl, rfl, id, .inl⟩

theorem trans (first : Quiet s middle) (second : Quiet middle after) : Quiet s after where
  localId := second.localId.trans first.localId
  epochs := second.epochs.trans first.epochs
  keySet := second.keySet.trans first.keySet
  sealedSent := second.sealedSent.trans first.sealedSent
  leaderKey := second.leaderKey.trans first.leaderKey
  served := second.served.trans first.served
  origins := second.origins.trans first.origins
  accepted := second.accepted.trans first.accepted
  sends := fun sent => first.sends (second.sends sent)
  ready := fun ready => by
    rcases second.ready ready with before | held
    · exact first.ready before
    · exact .inr (by simpa only [hasRoomKey, first.epochs] using held)

theorem epoch (quiet : Quiet s after) : after.epoch = s.epoch := by
  rw [Session.epoch, Session.epoch, quiet.epochs]

theorem roomKey (quiet : Quiet s after) : after.roomKey = s.roomKey := by
  rw [Session.roomKey, Session.roomKey, quiet.epochs]

theorem setStatus (s : Session PubKey PrivKey PairKey Key Blob) {status : Status} (epoch : Option Nat)
    (notReady : status ≠ .ready ∨ s.hasRoomKey = true) : Quiet s (s.setStatus status epoch) := by
  refine ⟨rfl, rfl, rfl, rfl, rfl, rfl, rfl, rfl, id, fun ready => ?_⟩
  rcases notReady with other | held
  · exact absurd ready other
  · exact .inr held

/-- Suspending a handler is quiet unless it is a distribution not seen before. -/
theorem await (s : Session PubKey PrivKey PairKey Key Blob) {frame : Frame PubKey PrivKey PairKey Key Blob}
    (known : ∀ work peerId publicKey, frame.sending? = some (work, peerId, publicKey) →
      s.Sends work peerId publicKey) : Quiet s (s.await frame) := by
  refine ⟨rfl, rfl, rfl, rfl, rfl, rfl, rfl, rfl, ?_, .inl⟩
  intro work peerId publicKey sent
  rcases sends_await sent with old | sending
  · exact old
  · exact known _ _ _ sending

theorem settle (s : Session PubKey PrivKey PairKey Key Blob) (caller : Caller Blob) (ok : Bool) :
    Quiet s (s.settle caller ok) := by
  cases caller
  case handler => exact refl s
  all_goals exact await s (by simp [Frame.sending?])

theorem dequeue (s : Session PubKey PrivKey PairKey Key Blob) (label : Event PubKey PrivKey PairKey Key Blob × Key) :
    Quiet s (s.dequeue label) := by
  unfold Session.dequeue
  split
  · refine ⟨rfl, rfl, rfl, rfl, rfl, rfl, rfl, rfl, ?_, .inl⟩
    rintro work peerId publicKey ⟨id, found, atId, sending⟩
    rw [FiniteMap.lookup_erase_if] at atId
    split at atId
    · cases atId
    · exact ⟨id, found, atId, sending⟩
  · exact refl s

/-- Caching a key set does not look at the suspended handlers. -/
theorem cacheKeySet_dequeue (s : Session PubKey PrivKey PairKey Key Blob)
    (label : Event PubKey PrivKey PairKey Key Blob × Key) (msg : KeySetMsg PubKey) :
    Quiet (s.cacheKeySet msg) ((s.dequeue label).cacheKeySet msg) := by
  have erased := dequeue s label
  obtain ⟨event, fresh⟩ := label
  cases event
  case resume id result => exact ⟨rfl, rfl, rfl, rfl, rfl, rfl, rfl, rfl, fun sent => erased.sends sent, .inl⟩
  all_goals exact refl _

theorem openSealed (s : Session PubKey PrivKey PairKey Key Blob) (msg : SealedMsg Blob) (publicKey : PubKey) :
    Quiet s (s.openSealed msg publicKey) := by
  unfold Session.openSealed
  split
  · exact setStatus s _ (.inl (by simp))
  · exact await s (by simp [Frame.sending?])

theorem onSealedKey (s : Session PubKey PrivKey PairKey Key Blob) (msg : SealedMsg Blob) (retried : Bool) :
    Quiet s (s.onSealedKey msg retried) := by
  have fetches (caller : Caller Blob) : Quiet s (s.await (.fetchKeySet caller)) := await s (by simp [Frame.sending?])
  unfold Session.onSealedKey
  split
  · exact refl s
  split
  · exact refl s
  split
  · split
    · exact refl s
    · exact fetches _
  split
  · exact refl s
  split
  · exact openSealed ..
  · split
    · exact refl s
    · exact fetches _

end Quiet

theorem epoch_adoptEpoch (s : Session PubKey PrivKey PairKey Key Blob) (epoch : Nat) :
    (s.adoptEpoch epoch).1.epoch = max s.epoch epoch := by
  unfold adoptEpoch KeyEpoch.advanceTo
  split
  next older => exact (max_eq_left older).symm
  next newer => exact (max_eq_right (le_of_not_ge newer)).symm

theorem epoch_cacheKeySet (s : Session PubKey PrivKey PairKey Key Blob) (msg : KeySetMsg PubKey) :
    (s.cacheKeySet msg).epoch = max s.epoch msg.epoch := epoch_adoptEpoch s msg.epoch

theorem roomKey_adoptEpoch (s : Session PubKey PrivKey PairKey Key Blob) (epoch : Nat) :
    (s.adoptEpoch epoch).1.roomKey = if epoch ≤ s.epoch then s.roomKey else none := by
  unfold adoptEpoch KeyEpoch.advanceTo
  split
  next older => rw [if_pos (show epoch ≤ s.epoch from older)]
  next newer => rw [if_neg (show ¬ epoch ≤ s.epoch from newer)]; rfl

theorem sealedSent_cacheKeySet (s : Session PubKey PrivKey PairKey Key Blob) (msg : KeySetMsg PubKey) :
    (s.cacheKeySet msg).sealedSent = if msg.epoch ≤ s.epoch then s.sealedSent else [] := by
  unfold cacheKeySet adoptEpoch KeyEpoch.advanceTo
  by_cases older : msg.epoch ≤ s.epoch
  · rw [if_pos (show msg.epoch ≤ s.epochs.epoch from older), if_pos older]; rfl
  · rw [if_neg (show ¬ msg.epoch ≤ s.epochs.epoch from older), if_neg older]; rfl

theorem mint_spec (s : Session PubKey PrivKey PairKey Key Blob) (fresh : Key) :
    (s.mint fresh).1.leaderKey = some (s.epoch, (s.mint fresh).2) ∧
      (∀ key, s.leaderKey = some (s.epoch, key) → (s.mint fresh).2 = key) ∧
      (s.mint fresh).1 = { s with
        leaderKey := (s.mint fresh).1.leaderKey, origins := (s.mint fresh).1.origins } := by
  unfold mint
  split
  next epoch old atLeader =>
    split
    next same =>
      subst same
      exact ⟨atLeader, fun key found => by rw [atLeader] at found; cases found; rfl, rfl⟩
    next different =>
      refine ⟨rfl, fun key found => ?_, rfl⟩
      rw [atLeader] at found
      cases found
      exact absurd rfl different
  next unset =>
    refine ⟨rfl, fun key found => ?_, rfl⟩
    rw [unset] at found
    cases found

/-- Where the loop of a distribution comes to rest. -/
inductive Loop (s : Session PubKey PrivKey PairKey Key Blob) (work : Distribution PubKey Key Blob)
    (entries : List (String × PubKey)) (after : Session PubKey PrivKey PairKey Key Blob) : Prop
  /-- nobody is left, and the key is installed -/
  | installed (done : ∀ entry ∈ entries, entry.1 = s.localId ∨ entry.1 ∈ s.sealedSent)
      (quiet : Quiet (s.install work.groupKey work.epoch) after)
  /-- the keypair is missing -/
  | stopped (quiet : Quiet s after)
  /-- suspended at the first peer that is not served yet -/
  | suspended (skipped rest : List (String × PubKey)) (peerId : String) (publicKey : PubKey) (privateKey : PrivKey)
      (parts : entries = skipped ++ (peerId, publicKey) :: rest)
      (done : ∀ entry ∈ skipped, entry.1 = s.localId ∨ entry.1 ∈ s.sealedSent)
      (other : peerId ≠ s.localId) (unserved : peerId ∉ s.sealedSent)
      (awaits : after = s.await (.pairwise { work with rest } peerId publicKey privateKey))

theorem distributeLoop_loop (s : Session PubKey PrivKey PairKey Key Blob) (work : Distribution PubKey Key Blob)
    (entries : List (String × PubKey)) : Loop s work entries (s.distributeLoop work entries) := by
  induction entries with
  | nil => exact .installed (by simp) (Quiet.settle ..)
  | cons entry rest ih =>
    obtain ⟨peerId, publicKey⟩ := entry
    unfold distributeLoop
    split
    next skip =>
      cases ih with
      | installed done quiet => exact .installed (List.forall_mem_cons.mpr ⟨skip, done⟩) quiet
      | stopped quiet => exact .stopped quiet
      | suspended skipped rest' next nextKey privateKey parts done other unserved awaits =>
        exact .suspended ((peerId, publicKey) :: skipped) rest' next nextKey privateKey
          (by rw [parts, List.cons_append]) (List.forall_mem_cons.mpr ⟨skip, done⟩) other unserved awaits
    next here =>
      obtain ⟨other, unserved⟩ := not_or.mp here
      split
      · exact .stopped (Quiet.settle ..)
      next keypair _ => exact .suspended [] rest peerId publicKey keypair.privateKey rfl (by simp) other unserved rfl

/-- What one step of a session can do. -/
inductive Change (s : Session PubKey PrivKey PairKey Key Blob) (label : Event PubKey PrivKey PairKey Key Blob × Key)
    (after : Session PubKey PrivKey PairKey Key Blob) : Prop
  | quiet (same : Quiet s after)
  /-- a register reply moves the epoch and nothing else -/
  | registered (epoch : Nat) (replied : s.registers label = some epoch)
      (rest : Quiet ((s.dequeue label).adoptEpoch epoch).1 after)
  | cached (msg : KeySetMsg PubKey) (taken : s.takes label = some msg)
      (rest : Quiet ((s.dequeue label).cacheKeySet msg) after)
  | distributing (msg : KeySetMsg PubKey) (caller : Caller Blob) (taken : s.takes label = some msg)
      (many : 1 < msg.publicKeys.size) (unheld : ((s.dequeue label).cacheKeySet msg).roomKey = none)
      (leads : ((s.dequeue label).cacheKeySet msg).isLeader = true)
      (loop : Loop (((s.dequeue label).cacheKeySet msg).mint label.2).1
        ⟨caller, ((s.dequeue label).cacheKeySet msg).epoch, (((s.dequeue label).cacheKeySet msg).mint label.2).2, []⟩
        msg.publicKeys.toList after)
  | served (work : Distribution PubKey Key Blob) (peerId : String) (publicKey : PubKey)
      (replied : s.publishes label = some (work, peerId, publicKey)) (sent : s.Sends work peerId publicKey)
      (loop : Loop ((s.dequeue label).markSealed work peerId publicKey) work work.rest after)
  | opened (msg : SealedMsg Blob) (key : Key) (replied : s.opens label = some (msg, key))
      (rest : Quiet (((s.dequeue label).recordOrigin msg.epoch key).install key msg.epoch) after)

/-- Role selection on a cached key set: quiet, or the leader's distribution. -/
theorem chooseRole_quiet_or_loop (s : Session PubKey PrivKey PairKey Key Blob) (caller : Caller Blob) (fresh : Key) :
    Quiet s (s.chooseRole caller fresh) ∨
      1 < s.keySet.size ∧ s.roomKey = none ∧ s.isLeader = true ∧
        Loop (s.mint fresh).1 ⟨caller, s.epoch, (s.mint fresh).2, []⟩ s.keySet.toList (s.chooseRole caller fresh) := by
  unfold chooseRole
  split
  · exact .inl ((Quiet.setStatus s _ (.inl (by simp))).trans (Quiet.settle ..))
  next many =>
    split
    next held => exact .inl ((Quiet.setStatus s _ (.inr held)).trans (Quiet.settle ..))
    next unheld =>
      split
      next leads =>
        unfold distributeRoomKey
        split
        · exact .inl (Quiet.settle ..)
        · refine .inr ⟨not_le.mp many, ?_, leads, distributeLoop_loop ..⟩
          simpa only [hasRoomKey, roomKey, KeyEpoch.hasRoomKey, Option.not_isSome_iff_eq_none] using unheld
      · exact .inl ((Quiet.setStatus s _ (.inl (by simp))).trans (Quiet.settle ..))

/-- Handling a key set caches it, and may start a distribution. -/
theorem onKeySet_change {label : Event PubKey PrivKey PairKey Key Blob × Key} (caller : Caller Blob)
    {msg : KeySetMsg PubKey} (taken : s.takes label = some msg) :
    Change s label ((s.dequeue label).onKeySet caller msg label.2) := by
  rcases chooseRole_quiet_or_loop ((s.dequeue label).cacheKeySet msg) caller label.2 with quiet | starts
  · exact .cached msg taken quiet
  · obtain ⟨many, unheld, leads, loop⟩ := starts
    exact .distributing msg caller taken many unheld leads loop

theorem resume_change {id : Nat} {result : Result PubKey PrivKey PairKey Key Blob} {fresh : Key}
    {frame : Frame PubKey PrivKey PairKey Key Blob} (atId : s.frames.lookup id = some frame)
    (taken : (s.dequeue (.resume id result, fresh)).resume frame result fresh = some after) :
    Change s (.resume id result, fresh) after := by
  have resumed : s.resuming (.resume id result, fresh) = some (frame, result) := by
    simp only [resuming, atId, Option.map_some]
  have erased := Quiet.dequeue s (.resume id result, fresh)
  have sends {work peerId publicKey} (sending : frame.sending? = some (work, peerId, publicKey)) :
      s.Sends work peerId publicKey := ⟨id, frame, atId, sending⟩
  -- a suspended distribution may keep its locals while it waits for the next result
  have forwards {next : Frame PubKey PrivKey PairKey Key Blob} (same : next.sending? = frame.sending?) :
      Quiet s ((s.dequeue (.resume id result, fresh)).await next) := by
    refine ⟨erased.localId, erased.epochs, erased.keySet, erased.sealedSent, erased.leaderKey, erased.served,
      erased.origins, erased.accepted, ?_, erased.ready⟩
    intro work peerId publicKey sent
    rcases sends_await sent with old | sending
    · exact erased.sends old
    · exact sends (same ▸ sending)
  have waits {status : Status} {epoch : Option Nat} (other : status ≠ .ready) :
      Change s (.resume id result, fresh) ((s.dequeue (.resume id result, fresh)).setStatus status epoch) :=
    .quiet (erased.trans (Quiet.setStatus _ _ (.inl other)))
  unfold Session.resume at taken
  split at taken
  all_goals try (cases taken; done)
  all_goals try cases taken
  next pair =>
    have keyed : Quiet s { s.dequeue (.resume id (.keypair pair), fresh) with keypair := some pair } :=
      ⟨erased.localId, erased.epochs, erased.keySet, erased.sealedSent, erased.leaderKey, erased.served,
        erased.origins, erased.accepted, erased.sends, erased.ready⟩
    exact .quiet (keyed.trans (Quiet.await _ (by simp [Frame.sending?])))
  · exact waits (by simp)
  next epoch => exact .registered epoch (by simp only [registers, resumed]) (Quiet.await _ (by simp [Frame.sending?]))
  · exact waits (by simp)
  next caller msg => exact onKeySet_change caller (by simp only [takes, resumed])
  · exact .quiet (erased.trans (Quiet.settle ..))
  · exact .quiet (forwards rfl)
  · exact .quiet (erased.trans (Quiet.settle ..))
  · exact .quiet (forwards rfl)
  · exact .quiet (erased.trans (Quiet.settle ..))
  next work peerId publicKey blob =>
    exact .served work peerId publicKey (by simp only [publishes, resumed]) (sends rfl) (distributeLoop_loop ..)
  · exact .quiet (erased.trans (Quiet.settle ..))
  · split
    · exact .quiet erased
    · exact waits (by simp)
  · exact .quiet erased
  · split
    · exact .quiet (erased.trans (Quiet.onSealedKey ..))
    · exact .quiet erased
  · split at taken
    · cases taken; exact .quiet (erased.trans (Quiet.openSealed ..))
    · cases taken; exact .quiet erased
  · exact .quiet (forwards rfl)
  · exact waits (by simp)
  next msg pair key => exact .opened msg key (by simp only [opens, resumed]) (Quiet.refl _)
  · exact waits (by simp)

theorem step_change {label : Event PubKey PrivKey PairKey Key Blob × Key} (taken : SessionStep s label after) :
    Change s label after := by
  obtain ⟨event, fresh⟩ := label
  cases event with
  | start =>
    cases taken
    exact .quiet ((Quiet.setStatus s _ (.inl (by simp))).trans (Quiet.await _ (by simp [Frame.sending?])))
  | refreshKeySet =>
    cases taken
    exact .quiet (Quiet.await s (by simp [Frame.sending?]))
  | onKeySet msg =>
    cases taken
    exact onKeySet_change .handler rfl
  | onSealedKey msg =>
    cases taken
    exact .quiet (Quiet.onSealedKey ..)
  | resume id result =>
    simp only [SessionStep, Session.step] at taken
    split at taken
    · cases taken
    next frame atId => exact resume_change atId taken

variable {label : Event PubKey PrivKey PairKey Key Blob × Key}

theorem Loop.localId {work : Distribution PubKey Key Blob} {entries : List (String × PubKey)}
    (outcome : Loop s work entries after) : after.localId = s.localId := by
  cases outcome with
  | installed _ same => exact same.localId
  | stopped same => exact same.localId
  | suspended _ _ _ _ _ _ _ _ _ awaits => rw [awaits]; rfl

theorem Loop.epoch {work : Distribution PubKey Key Blob} {entries : List (String × PubKey)}
    (outcome : Loop s work entries after) : after.epoch = s.epoch := by
  cases outcome with
  | installed _ same => exact same.epoch
  | stopped same => exact same.epoch
  | suspended _ _ _ _ _ _ _ _ _ awaits => rw [awaits]; rfl

theorem Loop.served {work : Distribution PubKey Key Blob} {entries : List (String × PubKey)}
    (outcome : Loop s work entries after) : after.served = s.served := by
  cases outcome with
  | installed _ same => exact same.served
  | stopped same => exact same.served
  | suspended _ _ _ _ _ _ _ _ _ awaits => rw [awaits]; rfl

theorem Loop.leaderKey {work : Distribution PubKey Key Blob} {entries : List (String × PubKey)}
    (outcome : Loop s work entries after) : after.leaderKey = s.leaderKey := by
  cases outcome with
  | installed _ same => exact same.leaderKey
  | stopped same => exact same.leaderKey
  | suspended _ _ _ _ _ _ _ _ _ awaits => rw [awaits]; rfl

theorem step_localId (taken : SessionStep s label after) : after.localId = s.localId := by
  have erased := (Quiet.dequeue s label).localId
  cases step_change taken with
  | quiet same => exact same.localId
  | registered _ _ rest => exact rest.localId.trans erased
  | cached _ _ rest => exact rest.localId.trans erased
  | distributing msg _ _ _ _ _ outcome =>
    obtain ⟨-, -, shape⟩ := mint_spec ((s.dequeue label).cacheKeySet msg) label.2
    rw [outcome.localId, shape]
    exact erased
  | served _ _ _ _ _ outcome => exact outcome.localId.trans erased
  | opened _ _ _ rest => exact rest.localId.trans erased

/-- The epoch moves to that of a register reply or a key set, and never back. -/
theorem step_epoch (taken : SessionStep s label after) :
    s.epoch ≤ after.epoch ∧ (after.epoch = s.epoch ∨ s.registers label = some after.epoch ∨
      ∃ msg, s.takes label = some msg ∧ after.epoch = msg.epoch) := by
  have erased := (Quiet.dequeue s label).epoch
  have cached {msg : KeySetMsg PubKey} (taken : s.takes label = some msg)
      (moved : after.epoch = max (s.dequeue label).epoch msg.epoch) :
      s.epoch ≤ after.epoch ∧ (after.epoch = s.epoch ∨ s.registers label = some after.epoch ∨
        ∃ msg, s.takes label = some msg ∧ after.epoch = msg.epoch) := by
    rw [erased] at moved
    refine ⟨by omega, ?_⟩
    rcases le_total msg.epoch s.epoch with older | newer
    · exact .inl (moved.trans (max_eq_left older))
    · exact .inr (.inr ⟨msg, taken, moved.trans (max_eq_right newer)⟩)
  cases step_change taken with
  | quiet same => exact ⟨le_of_eq same.epoch.symm, .inl same.epoch⟩
  | registered epoch replied rest =>
    have moved := rest.epoch
    rw [epoch_adoptEpoch, erased] at moved
    refine ⟨by omega, ?_⟩
    rcases le_total epoch s.epoch with older | newer
    · exact .inl (moved.trans (max_eq_left older))
    · exact .inr (.inl (by rw [replied, moved, max_eq_right newer]))
  | cached msg taken rest => exact cached taken (rest.epoch.trans (epoch_cacheKeySet ..))
  | distributing msg _ taken _ _ _ outcome =>
    obtain ⟨-, -, shape⟩ := mint_spec ((s.dequeue label).cacheKeySet msg) label.2
    refine cached taken (outcome.epoch.trans ?_)
    rw [shape]
    exact epoch_cacheKeySet ..
  | served _ _ _ _ _ outcome => exact ⟨le_of_eq (outcome.epoch.trans erased).symm, .inl (outcome.epoch.trans erased)⟩
  | opened _ _ _ rest => exact ⟨le_of_eq (rest.epoch.trans erased).symm, .inl (rest.epoch.trans erased)⟩

/-- What has been served is what was served before and the publish accepted in the step. -/
theorem step_served (taken : SessionStep s label after) {one : Served PubKey Key} (member : one ∈ after.served) :
    one ∈ s.served ∨ ∃ work, s.publishes label = some (work, one.peerId, one.publicKey) ∧
      one.epoch = work.epoch ∧ one.key = work.groupKey := by
  have erased := (Quiet.dequeue s label).served
  cases step_change taken with
  | quiet same => exact .inl (same.served ▸ member)
  | registered _ _ rest => exact .inl (rest.served.trans erased ▸ member)
  | cached _ _ rest => exact .inl (rest.served.trans erased ▸ member)
  | distributing msg _ _ _ _ _ outcome =>
    obtain ⟨-, -, shape⟩ := mint_spec ((s.dequeue label).cacheKeySet msg) label.2
    rw [outcome.served, shape] at member
    exact .inl (erased ▸ member)
  | served work peerId publicKey replied _ outcome =>
    rw [outcome.served] at member
    rcases List.mem_cons.mp member with rfl | before
    · exact .inr ⟨work, replied, rfl, rfl⟩
    · exact .inl (erased ▸ before)
  | opened _ _ _ rest => exact .inl (rest.served.trans erased ▸ member)

/-- A key minted for the epoch stays the leader's key while the epoch lasts. -/
theorem step_leaderKey (taken : SessionStep s label after) {key : Key} (held : s.leaderKey = some (s.epoch, key))
    (still : after.epoch = s.epoch) : after.leaderKey = some (after.epoch, key) := by
  have erased := Quiet.dequeue s label
  rw [still]
  cases step_change taken with
  | quiet same => exact same.leaderKey.trans held
  | registered _ _ rest => exact (rest.leaderKey.trans erased.leaderKey).trans held
  | cached _ _ rest => exact (rest.leaderKey.trans erased.leaderKey).trans held
  | distributing msg _ _ _ _ _ outcome =>
    obtain ⟨minted, kept, shape⟩ := mint_spec ((s.dequeue label).cacheKeySet msg) label.2
    have epoch : ((s.dequeue label).cacheKeySet msg).epoch = s.epoch := by
      have same := outcome.epoch
      rw [shape] at same
      exact same.symm.trans still
    have leader : ((s.dequeue label).cacheKeySet msg).leaderKey = some (s.epoch, key) := erased.leaderKey.trans held
    rw [outcome.leaderKey, minted, epoch]
    rw [epoch] at kept
    rw [kept key leader]
  | served _ _ _ _ _ outcome => exact (outcome.leaderKey.trans erased.leaderKey).trans held
  | opened _ _ _ rest => exact (rest.leaderKey.trans erased.leaderKey).trans held

end Session
end Burble.E2EE
