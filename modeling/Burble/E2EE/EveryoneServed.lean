import Burble.E2EE.SessionService

namespace Burble.E2EE
variable {PubKey PrivKey PairKey Key Blob : Type}

namespace Session
variable {s after : Session PubKey PrivKey PairKey Key Blob}
  {label : Event PubKey PrivKey PairKey Key Blob × Key}

/-- A distribution of the current epoch is suspended. -/
def distributing (s : Session PubKey PrivKey PairKey Key Blob) : Bool :=
  s.frames.entries.any fun entry => entry.2.sending?.any fun sent => sent.1.epoch == s.epoch

theorem distributing_of_sends {work : Distribution PubKey Key Blob} {peerId : String} {publicKey : PubKey}
    (sent : s.Sends work peerId publicKey) (current : work.epoch = s.epoch) : s.distributing = true := by
  obtain ⟨id, frame, atId, sending⟩ := sent
  refine List.any_eq_true.mpr ⟨⟨id, frame⟩, AList.mem_lookup_iff.mp atId, ?_⟩
  simp only [sending, Option.any_some, current, beq_self_eq_true]

/-- A key set repeats the last one the session took for the epoch it is at. -/
def Repeats (s : Session PubKey PrivKey PairKey Key Blob) (msg : KeySetMsg PubKey) : Prop :=
  ∃ old ∈ s.accepted, old.epoch = s.epoch ∧ old.publicKeys.entries.Perm msg.publicKeys.entries

/-- The keys of the peers already served are as they were when they were served. -/
def KeepsServed (s : Session PubKey PrivKey PairKey Key Blob) (msg : KeySetMsg PubKey) : Prop :=
  ∀ one ∈ s.served, one.epoch = s.epoch → ∀ publicKey ∈ msg.publicKeys.lookup one.peerId, publicKey = one.publicKey

/-- No key set is older than the session, and one of the same epoch that makes it leader
brings nothing new once it distributes or holds a key. -/
def KeySetSteady (s : Session PubKey PrivKey PairKey Key Blob)
    (label : Event PubKey PrivKey PairKey Key Blob × Key) : Prop :=
  ∀ msg ∈ s.takes label, s.epoch ≤ msg.epoch ∧
    (msg.epoch = s.epoch → leaderOf msg.publicKeys.keys = some s.localId →
      s.KeepsServed msg ∧ (s.hasRoomKey = true ∨ s.distributing = true → s.Repeats msg))

/-- A leader does not open a key somebody else made. -/
def OpensAsFollower (s : Session PubKey PrivKey PairKey Key Blob)
    (label : Event PubKey PrivKey PairKey Key Blob × Key) : Prop :=
  s.opens label ≠ none → s.isLeader = false

/-- READY as the leader of the current epoch with no handler in flight, a session has had
its room key accepted for every other peer of the key set it took for that epoch. -/
def EveryoneServed (s : Session PubKey PrivKey PairKey Key Blob) : Prop :=
  s.status = .ready → s.frames = ∅ → ∀ msg ∈ s.accepted, msg.epoch = s.epoch →
    leaderOf msg.publicKeys.keys = some s.localId → ∀ key ∈ s.roomKey,
      ∀ peerId publicKey, peerId ≠ s.localId → msg.publicKeys.lookup peerId = some publicKey →
        (⟨s.epoch, key, peerId, publicKey⟩ : Served PubKey Key) ∈ s.served

/-- The session leads the key set it last took for the epoch it is at. -/
def Leads (s : Session PubKey PrivKey PairKey Key Blob) : Prop :=
  ∃ msg ∈ s.accepted, msg.epoch = s.epoch ∧ leaderOf msg.publicKeys.keys = some s.localId

/-- The entries a loop has still to visit leave nobody out, and hold current keys. -/
structure Reaches (s : Session PubKey PrivKey PairKey Key Blob) (entries : List (String × PubKey)) : Prop where
  covers : ∀ peerId publicKey, peerId ≠ s.localId → s.keySet.lookup peerId = some publicKey →
    peerId ∈ s.sealedSent ∨ (peerId, publicKey) ∈ entries
  agrees : ∀ peerId publicKey held, (peerId, publicKey) ∈ entries → s.keySet.lookup peerId = some held →
    held = publicKey

/-- The leader's bookkeeping: marks, suspended loops and the installed key all match the
key set of the current epoch. -/
structure Covered (s : Session PubKey PrivKey PairKey Key Blob) : Prop where
  taken : ∀ msg ∈ s.accepted, msg.epoch ≤ s.epoch
  cached : ∀ msg ∈ s.accepted, msg.epoch = s.epoch → s.keySet = msg.publicKeys
  marked : s.Leads → ∀ peerId ∈ s.sealedSent, ∀ publicKey, s.keySet.lookup peerId = some publicKey →
    ∃ key, s.leaderKey = some (s.epoch, key) ∧
      (⟨s.epoch, key, peerId, publicKey⟩ : Served PubKey Key) ∈ s.served
  pending : s.Leads → ∀ work peerId publicKey, s.Sends work peerId publicKey → work.epoch = s.epoch →
    s.Reaches ((peerId, publicKey) :: work.rest)
  installed : s.Leads → ∀ key, s.roomKey = some key → ∀ peerId publicKey, peerId ≠ s.localId →
    s.keySet.lookup peerId = some publicKey → (⟨s.epoch, key, peerId, publicKey⟩ : Served PubKey Key) ∈ s.served

theorem Reaches.quiet {entries : List (String × PubKey)} (reach : s.Reaches entries) (same : Quiet s after) :
    after.Reaches entries := by
  refine ⟨fun peerId publicKey other found => ?_, fun peerId publicKey held member found => ?_⟩
  · rw [same.sealedSent]
    exact reach.covers peerId publicKey (same.localId ▸ other) (same.keySet ▸ found)
  · exact reach.agrees peerId publicKey held member (same.keySet ▸ found)

theorem Leads.quiet (leads : after.Leads) (same : Quiet s after) : s.Leads := by
  unfold Leads at leads ⊢
  rwa [same.accepted, same.epoch, same.localId] at leads

namespace Covered

theorem create (localId : String) : Covered (create localId : Session PubKey PrivKey PairKey Key Blob) where
  taken := by simp [Session.create]
  cached := by simp [Session.create]
  marked _ _ member := by cases member
  pending _ _ _ _ sent := by obtain ⟨_, _, atId, _⟩ := sent; cases atId
  installed _ _ held := by cases held

theorem quiet (inv : s.Covered) (same : Quiet s after) : after.Covered where
  taken msg found := by rw [same.epoch]; exact inv.taken msg (same.accepted ▸ found)
  cached msg found current := by
    rw [same.keySet]; exact inv.cached msg (same.accepted ▸ found) (same.epoch ▸ current)
  marked leads peerId member publicKey found := by
    rw [same.leaderKey, same.epoch, same.served]
    exact inv.marked (leads.quiet same) peerId (same.sealedSent ▸ member) publicKey (same.keySet ▸ found)
  pending leads work peerId publicKey sent current :=
    (inv.pending (leads.quiet same) work peerId publicKey (same.sends sent) (same.epoch ▸ current)).quiet same
  installed leads key held peerId publicKey other found := by
    rw [same.epoch, same.served]
    exact inv.installed (leads.quiet same) key (same.roomKey ▸ held) peerId publicKey (same.localId ▸ other)
      (same.keySet ▸ found)

/-- An epoch for which no key set has been taken asks nothing of the bookkeeping. -/
theorem of_unled (inv : s.Covered) (later : s.epoch < after.epoch) (accepted : after.accepted = s.accepted) :
    after.Covered := by
  have unled : ¬ after.Leads := by
    rintro ⟨msg, found, current, -⟩
    have before := inv.taken msg (accepted ▸ found)
    omega
  refine ⟨fun msg found => ?_, fun msg found current => ?_, fun leads => absurd leads unled,
    fun leads => absurd leads unled, fun leads => absurd leads unled⟩
  · exact (inv.taken msg (accepted ▸ found)).trans (le_of_lt later)
  · have before := inv.taken msg (accepted ▸ found)
    omega

theorem adoptEpoch (inv : s.Covered) (epoch : Nat) : (s.adoptEpoch epoch).1.Covered := by
  rcases le_or_gt epoch s.epoch with older | newer
  · have same : (s.adoptEpoch epoch).1 = s := by
      unfold Session.adoptEpoch KeyEpoch.advanceTo
      rw [if_pos (show epoch ≤ s.epochs.epoch from older)]
    rw [same]
    exact inv
  · exact inv.of_unled (by rw [epoch_adoptEpoch]; omega) rfl

theorem lookup_of_perm {one other : FiniteMap String PubKey} (same : one.entries.Perm other.entries)
    (peerId : String) : one.lookup peerId = other.lookup peerId := AList.perm_lookup same

theorem cacheKeySet (inv : s.Covered) (once : s.OneKey) {msg : KeySetMsg PubKey} (notOlder : s.epoch ≤ msg.epoch)
    (steady : msg.epoch = s.epoch → leaderOf msg.publicKeys.keys = some s.localId →
      s.KeepsServed msg ∧ (s.hasRoomKey = true ∨ s.distributing = true → s.Repeats msg)) :
    (s.cacheKeySet msg).Covered := by
  have epoch : (s.cacheKeySet msg).epoch = msg.epoch := by rw [epoch_cacheKeySet, max_eq_right notOlder]
  have accepted : (s.cacheKeySet msg).accepted = some msg := if_pos epoch.symm
  -- a key set that repeats the one in use leaves every obligation as it was
  have repeated (same : msg.epoch = s.epoch) (leader : leaderOf msg.publicKeys.keys = some s.localId)
      (busy : s.hasRoomKey = true ∨ s.distributing = true) :
      s.Leads ∧ ∀ peerId, s.keySet.lookup peerId = msg.publicKeys.lookup peerId := by
    obtain ⟨old, found, current, entries⟩ := (steady same leader).2 busy
    refine ⟨⟨old, found, current, ?_⟩, fun peerId => ?_⟩
    · exact (leaderOf_perm (entries.map Sigma.fst)).trans leader
    · rw [inv.cached old found current, lookup_of_perm entries]
  have leaderOfMsg (leads : (s.cacheKeySet msg).Leads) : leaderOf msg.publicKeys.keys = some s.localId := by
    obtain ⟨found, held, -, leader⟩ := leads
    rw [accepted] at held
    cases held
    exact leader
  refine ⟨fun found held => ?_, fun found held _ => ?_, fun leads peerId member publicKey keyed => ?_,
    fun leads work peerId publicKey sent current => ?_, fun leads key held peerId publicKey other keyed => ?_⟩
  · rw [accepted] at held; cases held; exact le_of_eq epoch.symm
  · rw [accepted] at held; cases held; rfl
  · rw [sealedSent_cacheKeySet] at member
    split at member
    next older =>
      have same := le_antisymm older notOlder
      obtain ⟨key, old, leaderKey, served⟩ := once.sealed peerId member
      obtain rfl := (steady same (leaderOfMsg leads)).1 _ served rfl publicKey keyed
      rw [epoch, same]
      exact ⟨key, leaderKey, served⟩
    next => cases member
  · have bounded := once.bounded work peerId publicKey sent
    have same : msg.epoch = s.epoch := le_antisymm (by omega) notOlder
    obtain ⟨led, entries⟩ := repeated same (leaderOfMsg leads) (.inr (distributing_of_sends sent (by omega)))
    obtain ⟨covers, agrees⟩ := inv.pending led work peerId publicKey sent (by omega)
    refine ⟨fun other otherKey different found => ?_, fun other otherKey heldKey member found => ?_⟩
    · rw [sealedSent_cacheKeySet, if_pos (le_of_eq same)]
      exact covers other otherKey different ((entries other).trans found)
    · exact agrees other otherKey heldKey member ((entries other).trans found)
  · change (s.adoptEpoch msg.epoch).1.roomKey = some key at held
    rw [roomKey_adoptEpoch] at held
    split at held
    next older =>
      have same := le_antisymm older notOlder
      have holds : s.hasRoomKey = true := Option.isSome_iff_exists.mpr ⟨key, held⟩
      obtain ⟨led, entries⟩ := repeated same (leaderOfMsg leads) (.inl holds)
      rw [epoch, same]
      exact inv.installed led key held peerId publicKey other ((entries peerId).trans keyed)
    next => cases held

theorem mint (inv : s.Covered) (fresh : Key) : (s.mint fresh).1.Covered := by
  obtain ⟨minted, kept, shape⟩ := mint_spec s fresh
  rw [shape]
  refine ⟨inv.taken, inv.cached, fun leads peerId member publicKey found => ?_, ?_, inv.installed⟩
  · obtain ⟨key, leaderKey, served⟩ := inv.marked leads peerId member publicKey found
    rw [← kept key leaderKey] at served
    exact ⟨_, minted, served⟩
  · intro leads work peerId publicKey sent current
    obtain ⟨covers, agrees⟩ := inv.pending leads work peerId publicKey sent current
    exact ⟨covers, agrees⟩

theorem loop (inv : s.Covered) {work : Distribution PubKey Key Blob} {entries : List (String × PubKey)}
    (keyed : s.leaderKey = some (s.epoch, work.groupKey)) (reach : s.Leads → s.Reaches entries) (outcome : Loop s work entries after) : after.Covered := by
  cases outcome with
  | installed done same =>
    have ended : (s.install work.groupKey work.epoch).Covered := by
      refine ⟨inv.taken, inv.cached, inv.marked, fun leads => ?_, fun leads key held peerId publicKey other found => ?_⟩
      · intro work peerId publicKey sent current
        obtain ⟨covers, agrees⟩ := inv.pending leads work peerId publicKey sent current
        exact ⟨covers, agrees⟩
      · cases held
        have marked : peerId ∈ s.sealedSent := by
          rcases (reach leads).covers peerId publicKey other found with marked | member
          · exact marked
          · exact (done _ member).resolve_left other
        obtain ⟨key, leaderKey, served⟩ := inv.marked leads peerId marked publicKey found
        rw [keyed] at leaderKey
        cases leaderKey
        exact served
    exact ended.quiet same
  | stopped same => exact inv.quiet same
  | suspended skipped rest peerId publicKey privateKey parts done _ _ awaits =>
    subst awaits
    refine ⟨inv.taken, inv.cached, inv.marked, fun leads other otherId otherKey sent now => ?_, inv.installed⟩
    rcases sends_await sent with old | same
    · obtain ⟨covers, agrees⟩ := inv.pending leads other otherId otherKey old now
      exact ⟨covers, agrees⟩
    · cases same
      obtain ⟨covers, agrees⟩ := reach leads
      refine ⟨fun next nextKey different found => ?_, fun next nextKey held member => ?_⟩
      · rcases covers next nextKey different found with marked | member
        · exact .inl marked
        · rw [parts] at member
          rcases List.mem_append.mp member with passed | ahead
          · exact .inl ((done _ passed).resolve_left different)
          · exact .inr ahead
      · exact agrees next nextKey held (by rw [parts]; exact List.mem_append_right _ member)

/-- Once its publish is accepted, a peer is marked with the key it was sealed to. -/
theorem markSealed (inv : s.Covered) {work : Distribution PubKey Key Blob} (peerId : String) (publicKey : PubKey)
    (current : work.epoch = s.epoch) (keyed : s.leaderKey = some (s.epoch, work.groupKey))
    (reach : s.Leads → s.Reaches ((peerId, publicKey) :: work.rest)) :
    (s.markSealed work peerId publicKey).Covered ∧
      (s.Leads → (s.markSealed work peerId publicKey).Reaches work.rest) := by
  have covers {entries : List (String × PubKey)} (reach : s.Reaches entries) :
      ∀ other otherKey, other ≠ s.localId → s.keySet.lookup other = some otherKey →
        other ∈ peerId :: s.sealedSent ∨ (other, otherKey) ∈ entries := fun other otherKey different found =>
    (reach.covers other otherKey different found).imp_left (List.mem_cons_of_mem _)
  refine ⟨⟨inv.taken, inv.cached, fun leads other member otherKey found => ?_, ?_, ?_⟩, fun leads => ⟨?_, ?_⟩⟩
  · rcases List.mem_cons.mp member with rfl | before
    · refine ⟨work.groupKey, keyed, ?_⟩
      obtain rfl := (reach leads).agrees other publicKey otherKey (List.mem_cons_self ..) found
      simp only [Session.markSealed, Session.epoch, current]
      exact List.mem_cons_self ..
    · obtain ⟨key, leaderKey, served⟩ := inv.marked leads other before otherKey found
      exact ⟨key, leaderKey, List.mem_cons_of_mem _ served⟩
  · intro leads other otherId otherKey sent now
    have old := inv.pending leads other otherId otherKey sent now
    exact ⟨covers old, old.agrees⟩
  · intro leads key held other otherKey different found
    exact List.mem_cons_of_mem _ (inv.installed leads key held other otherKey different found)
  · intro other otherKey different found
    rcases covers (reach leads) other otherKey different found with marked | member
    · exact .inl marked
    · rcases List.mem_cons.mp member with same | ahead
      · cases same; exact .inl (List.mem_cons_self ..)
      · exact .inr ahead
  · exact fun other otherKey held member => (reach leads).agrees other otherKey held (List.mem_cons_of_mem _ member)

theorem step (inv : s.Covered) (once : s.OneKey) (timely : s.PublishTimely label) (steady : s.KeySetSteady label)
    (follows : s.OpensAsFollower label) (taken : SessionStep s label after) : after.Covered := by
  have same := Quiet.dequeue s label
  have erased := inv.quiet same
  have onceErased := once.quiet same
  have cachedBy {msg : KeySetMsg PubKey} (takes : s.takes label = some msg) :
      ((s.dequeue label).cacheKeySet msg).Covered := by
    obtain ⟨notOlder, repeats⟩ := steady msg takes
    exact (inv.cacheKeySet once notOlder repeats).quiet (Quiet.cacheKeySet_dequeue ..)
  cases step_change taken with
  | quiet rest => exact inv.quiet rest
  | registered epoch _ rest => exact (erased.adoptEpoch epoch).quiet rest
  | cached msg takes rest => exact (cachedBy takes).quiet rest
  | distributing msg caller takes _ _ _ outcome =>
    obtain ⟨minted, -, shape⟩ := mint_spec ((s.dequeue label).cacheKeySet msg) label.2
    refine ((cachedBy takes).mint label.2).loop ?_ (fun leads => ?_) outcome
    · rw [minted, shape]; rfl
    · rw [shape]
      refine ⟨fun peerId publicKey _ found => .inr (FiniteMap.mem_toList.mpr found), ?_⟩
      intro peerId publicKey held member found
      rw [FiniteMap.mem_toList] at member
      exact Option.some.inj (found.symm.trans member)
  | served work peerId publicKey replied sent outcome =>
    have current := timely _ replied
    have keyed := once.keyed _ _ _ sent current
    rw [← same.epoch, ← same.leaderKey] at keyed
    rw [← same.epoch] at current
    obtain ⟨marked, reach⟩ := erased.markSealed peerId publicKey current keyed fun leads =>
      (inv.pending (leads.quiet same) _ _ _ sent (current.trans same.epoch)).quiet same
    exact marked.loop keyed reach outcome
  | opened msg key replied rest =>
    have led := follows (by rw [replied]; simp)
    have followed : (((s.dequeue label).recordOrigin msg.epoch key).install key msg.epoch).Covered := by
      refine ⟨erased.taken, erased.cached, erased.marked, fun leads => ?_, fun leads => ?_⟩
      · intro work peerId publicKey sent current
        obtain ⟨covers, agrees⟩ := erased.pending leads work peerId publicKey sent current
        exact ⟨covers, agrees⟩
      · obtain ⟨found, held, current, leader⟩ := leads
        have keySet := erased.cached found held current
        rw [same.keySet] at keySet
        have leads : s.isLeader = true := by
          rw [isLeader, keySet, ← same.localId, decide_eq_true_eq]
          exact leader
        rw [led] at leads
        cases leads
    exact followed.quiet rest

end Covered

/-- Replies and key sets reach the session in an order its bookkeeping can follow. -/
structure Orderly (s : Session PubKey PrivKey PairKey Key Blob)
    (label : Event PubKey PrivKey PairKey Key Blob × Key) : Prop where
  timely : s.PublishTimely label
  clean : s.RegisterClean label
  steady : s.KeySetSteady label
  follows : s.OpensAsFollower label

instance [DecidableEq PubKey] (s : Session PubKey PrivKey PairKey Key Blob)
    (label : Event PubKey PrivKey PairKey Key Blob × Key) : Decidable (s.KeySetSteady label) :=
  have (msg : KeySetMsg PubKey) : Decidable (s.KeepsServed msg) :=
    inferInstanceAs (Decidable (∀ one ∈ s.served, _ → ∀ publicKey ∈ msg.publicKeys.lookup one.peerId, _))
  have (msg : KeySetMsg PubKey) : Decidable (s.Repeats msg) :=
    inferInstanceAs (Decidable (∃ old ∈ s.accepted, _ ∧ _))
  inferInstanceAs (Decidable (∀ msg ∈ s.takes label, _ ∧ _))

instance (s : Session PubKey PrivKey PairKey Key Blob) (label : Event PubKey PrivKey PairKey Key Blob × Key) :
    Decidable (s.OpensAsFollower label) :=
  decidable_of_iff ((s.opens label).isSome = true → s.isLeader = false)
    (by rw [OpensAsFollower, Option.isSome_iff_ne_none])

instance [DecidableEq PubKey] (s : Session PubKey PrivKey PairKey Key Blob)
    (label : Event PubKey PrivKey PairKey Key Blob × Key) : Decidable (s.Orderly label) :=
  decidable_of_iff (s.PublishTimely label ∧ s.RegisterClean label ∧ s.KeySetSteady label ∧ s.OpensAsFollower label)
    ⟨fun ⟨timely, clean, steady, follows⟩ => ⟨timely, clean, steady, follows⟩,
      fun ⟨timely, clean, steady, follows⟩ => ⟨timely, clean, steady, follows⟩⟩

/-- What an orderly run keeps. -/
structure Kept (s : Session PubKey PrivKey PairKey Key Blob) : Prop where
  once : s.OneKey
  covered : s.Covered

theorem Kept.everyoneServed (kept : s.Kept) : s.EveryoneServed := by
  intro _ _ msg found current leader key held peerId publicKey other keyed
  rw [← kept.covered.cached msg found current] at keyed
  exact kept.covered.installed ⟨msg, found, current, leader⟩ key held peerId publicKey other keyed

end Session

/-- Alice, the leader, seals to Bob at epoch 0. -/
def firstStart : List (Event Nat Nat Nat Nat Nat × Nat) :=
  [(.start, 0), (.resume 0 (.keypair ⟨10, 10⟩), 0), (.resume 1 (.registered 0), 0),
   (.resume 2 (.keySet ⟨0, AList.insert "alice" 10 (AList.insert "bob" 20 ∅)⟩), 77),
   (.resume 3 (.pair 1), 0), (.resume 4 (.sealed 5), 0), (.resume 5 .accepted, 0), (.resume 6 .settled, 0)]

/-- She reconnects: the register reply moves the epoch, and Bob stays marked. -/
def secondStart : List (Event Nat Nat Nat Nat Nat × Nat) :=
  [(.start, 0), (.resume 7 (.keypair ⟨11, 11⟩), 0), (.resume 8 (.registered 1), 0),
   (.resume 9 (.keySet ⟨1, AList.insert "alice" 11 (AList.insert "bob" 20 ∅)⟩), 78), (.resume 10 .settled, 0)]

end Burble.E2EE
