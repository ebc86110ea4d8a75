import Burble.E2EE.SessionChange

namespace Burble.E2EE
variable {PubKey PrivKey PairKey Key Blob : Type}

namespace Session
variable {s after : Session PubKey PrivKey PairKey Key Blob}
  {label : Event PubKey PrivKey PairKey Key Blob × Key}

/-- A publish reply is handled while the session is at the epoch it was sent for. -/
def PublishTimely (s : Session PubKey PrivKey PairKey Key Blob)
    (label : Event PubKey PrivKey PairKey Key Blob × Key) : Prop :=
  ∀ sent ∈ s.publishes label, sent.1.epoch = s.epoch

/-- A register reply that moves the epoch finds nothing sealed in the epoch it ends. -/
def RegisterClean (s : Session PubKey PrivKey PairKey Key Blob)
    (label : Event PubKey PrivKey PairKey Key Blob × Key) : Prop :=
  ∀ epoch ∈ s.registers label, s.epoch < epoch → s.sealedSent = []

instance (s : Session PubKey PrivKey PairKey Key Blob) (label : Event PubKey PrivKey PairKey Key Blob × Key) :
    Decidable (s.PublishTimely label) := inferInstanceAs (Decidable (∀ sent ∈ s.publishes label, _))

instance (s : Session PubKey PrivKey PairKey Key Blob) (label : Event PubKey PrivKey PairKey Key Blob × Key) :
    Decidable (s.RegisterClean label) := inferInstanceAs (Decidable (∀ epoch ∈ s.registers label, _ → _))

/-- One key an epoch: a suspended distribution of the current epoch sends the leader's
key, and every peer marked as sealed to has had that key accepted. -/
structure OneKey (s : Session PubKey PrivKey PairKey Key Blob) : Prop where
  leader : ∀ epoch key, s.leaderKey = some (epoch, key) → epoch ≤ s.epoch
  bounded : ∀ work peerId publicKey, s.Sends work peerId publicKey → work.epoch ≤ s.epoch
  keyed : ∀ work peerId publicKey, s.Sends work peerId publicKey → work.epoch = s.epoch →
    s.leaderKey = some (s.epoch, work.groupKey)
  sealed : ∀ peerId ∈ s.sealedSent, ∃ key publicKey,
    s.leaderKey = some (s.epoch, key) ∧ (⟨s.epoch, key, peerId, publicKey⟩ : Served PubKey Key) ∈ s.served

namespace OneKey

theorem create (localId : String) : OneKey (create localId : Session PubKey PrivKey PairKey Key Blob) where
  leader := by simp [Session.create]
  bounded := by rintro _ _ _ ⟨_, _, atId, _⟩; cases atId
  keyed := by rintro _ _ _ ⟨_, _, atId, _⟩; cases atId
  sealed := by simp [Session.create]

theorem quiet (inv : s.OneKey) (same : Quiet s after) : after.OneKey where
  leader epoch key found := by
    rw [same.epoch]; exact inv.leader epoch key (same.leaderKey ▸ found)
  bounded work peerId publicKey sent := by
    rw [same.epoch]; exact inv.bounded _ _ _ (same.sends sent)
  keyed work peerId publicKey sent current := by
    rw [same.leaderKey, same.epoch]; exact inv.keyed _ _ _ (same.sends sent) (same.epoch ▸ current)
  sealed peerId member := by
    rw [same.leaderKey, same.epoch, same.served]; exact inv.sealed peerId (same.sealedSent ▸ member)

/-- Past the epoch of everything sent, the leader's key and the suspended distributions
no longer speak about the current epoch. -/
theorem advance (inv : s.OneKey) (later : s.epoch ≤ after.epoch) (sameLeader : after.leaderKey = s.leaderKey)
    (sends : ∀ {work peerId publicKey}, after.Sends work peerId publicKey → s.Sends work peerId publicKey)
    (served : after.served = s.served)
    (sealed : after.sealedSent = [] ∨ after.epoch = s.epoch ∧ after.sealedSent = s.sealedSent) : after.OneKey where
  leader epoch key found := (inv.leader epoch key (sameLeader ▸ found)).trans later
  bounded work peerId publicKey sent := (inv.bounded _ _ _ (sends sent)).trans later
  keyed work peerId publicKey sent current := by
    have before := inv.bounded _ _ _ (sends sent)
    have same : after.epoch = s.epoch := by omega
    rw [sameLeader, same]
    exact inv.keyed _ _ _ (sends sent) (current.trans same)
  sealed peerId member := by
    rcases sealed with nobody | ⟨same, kept⟩
    · rw [nobody] at member; cases member
    · rw [sameLeader, same, served]; exact inv.sealed peerId (kept ▸ member)

theorem cacheKeySet (inv : s.OneKey) (msg : KeySetMsg PubKey) : (s.cacheKeySet msg).OneKey := by
  refine inv.advance ?_ rfl id rfl ?_
  · rw [epoch_cacheKeySet]; exact le_max_left ..
  · rw [sealedSent_cacheKeySet, epoch_cacheKeySet]
    split
    next older => exact .inr ⟨max_eq_left older, rfl⟩
    next => exact .inl rfl

theorem mint (inv : s.OneKey) (fresh : Key) : (s.mint fresh).1.OneKey := by
  obtain ⟨minted, kept, shape⟩ := mint_spec s fresh
  rw [shape]
  refine ⟨fun epoch key found => ?_, inv.bounded, fun work peerId publicKey sent current => ?_,
    fun peerId member => ?_⟩
  · rw [minted] at found; cases found; exact le_refl _
  · have found := inv.keyed _ _ _ sent current
    rw [← kept _ found]; exact minted
  · obtain ⟨key, publicKey, found, accepted⟩ := inv.sealed peerId member
    rw [← kept _ found] at accepted
    exact ⟨_, publicKey, minted, accepted⟩

theorem install (inv : s.OneKey) (key : Key) (epoch : Nat) : (s.install key epoch).OneKey :=
  ⟨inv.leader, inv.bounded, inv.keyed, inv.sealed⟩

theorem loop (inv : s.OneKey) {work : Distribution PubKey Key Blob} {entries : List (String × PubKey)}
    (bounded : work.epoch ≤ s.epoch) (keyed : work.epoch = s.epoch → s.leaderKey = some (s.epoch, work.groupKey))
    (outcome : Loop s work entries after) : after.OneKey := by
  cases outcome with
  | installed _ same => exact (inv.install ..).quiet same
  | stopped same => exact inv.quiet same
  | suspended _ rest peerId publicKey privateKey _ _ _ _ awaits =>
    subst awaits
    refine ⟨inv.leader, fun other _ _ sent => ?_, fun other _ _ sent current => ?_, inv.sealed⟩
    · rcases sends_await sent with old | same
      · exact inv.bounded _ _ _ old
      · cases same; exact bounded
    · rcases sends_await sent with old | same
      · exact inv.keyed _ _ _ old current
      · cases same; exact keyed current

theorem markSealed (inv : s.OneKey) {work : Distribution PubKey Key Blob} (peerId : String) (publicKey : PubKey)
    (current : work.epoch = s.epoch) (keyed : s.leaderKey = some (s.epoch, work.groupKey)) :
    (s.markSealed work peerId publicKey).OneKey := by
  refine ⟨inv.leader, inv.bounded, inv.keyed, fun other member => ?_⟩
  rcases List.mem_cons.mp member with rfl | before
  · refine ⟨work.groupKey, publicKey, keyed, ?_⟩
    simp only [Session.markSealed, Session.epoch, current]
    exact List.mem_cons_self ..
  · obtain ⟨key, held, found, accepted⟩ := inv.sealed other before
    exact ⟨key, held, found, List.mem_cons_of_mem _ accepted⟩

theorem step (inv : s.OneKey) (timely : s.PublishTimely label) (clean : s.RegisterClean label)
    (taken : SessionStep s label after) : after.OneKey := by
  have erased := inv.quiet (Quiet.dequeue s label)
  cases step_change taken with
  | quiet same => exact inv.quiet same
  | registered epoch replied rest =>
    have adopted : ((s.dequeue label).adoptEpoch epoch).1.OneKey := by
      refine erased.advance ?_ rfl id rfl ?_
      · rw [epoch_adoptEpoch]; exact le_max_left ..
      · rw [epoch_adoptEpoch, (Quiet.dequeue s label).epoch]
        rcases le_or_gt epoch s.epoch with older | newer
        · exact .inr ⟨max_eq_left older, rfl⟩
        · exact .inl ((Quiet.dequeue s label).sealedSent.trans (clean epoch replied newer))
    exact adopted.quiet rest
  | cached msg _ rest => exact (erased.cacheKeySet msg).quiet rest
  | distributing msg caller _ _ _ _ outcome =>
    obtain ⟨minted, -, shape⟩ := mint_spec ((s.dequeue label).cacheKeySet msg) label.2
    have epoch : (((s.dequeue label).cacheKeySet msg).mint label.2).1.epoch =
        ((s.dequeue label).cacheKeySet msg).epoch := by rw [shape]; rfl
    refine ((erased.cacheKeySet msg).mint label.2).loop (le_of_eq epoch.symm) (fun _ => ?_) outcome
    rw [epoch]
    exact minted
  | served work peerId publicKey replied sent outcome =>
    have current := timely _ replied
    have keyed := inv.keyed _ _ _ sent current
    have same := Quiet.dequeue s label
    rw [← same.epoch] at current keyed
    rw [← same.leaderKey] at keyed
    exact (erased.markSealed peerId publicKey current keyed).loop (le_of_eq current) (fun _ => keyed) outcome
  | opened msg key _ rest =>
    refine OneKey.quiet (OneKey.install ?_ key msg.epoch) rest
    exact ⟨erased.leader, erased.bounded, erased.keyed, erased.sealed⟩

/-- A loop that comes to its end has had somebody served with the key it installs. -/
theorem loop_roomKey (inv : s.OneKey) {work : Distribution PubKey Key Blob} {entries : List (String × PubKey)}
    (keyed : s.leaderKey = some (s.epoch, work.groupKey))
    (someone : s.sealedSent ≠ [] ∨ ∃ entry ∈ entries, entry.1 ≠ s.localId) (outcome : Loop s work entries after)
    {key : Key} (held : after.roomKey = some key) :
    s.roomKey = some key ∨ ∃ one ∈ after.served, one.epoch = after.epoch ∧ one.key = key := by
  cases outcome with
  | installed done same =>
    rw [same.roomKey] at held
    cases held
    have marked : ∃ peerId, peerId ∈ s.sealedSent := by
      rcases someone with marked | ⟨entry, member, other⟩
      · exact List.exists_mem_of_ne_nil _ marked
      · exact ⟨entry.1, (done entry member).resolve_left other⟩
    obtain ⟨peerId, marked⟩ := marked
    obtain ⟨key, publicKey, leaderKey, served⟩ := inv.sealed peerId marked
    rw [keyed] at leaderKey
    cases leaderKey
    rw [same.served, same.epoch]
    exact .inr ⟨_, served, rfl, rfl⟩
  | stopped same => exact .inl (same.roomKey ▸ held)
  | suspended _ _ _ _ _ _ _ _ _ awaits => subst awaits; exact .inl held

/-- A room key was there before, has been served to somebody, or was opened in the step. -/
theorem step_roomKey (inv : s.OneKey) (timely : s.PublishTimely label) (taken : SessionStep s label after)
    {key : Key} (held : after.roomKey = some key) :
    s.roomKey = some key ∧ after.epoch = s.epoch ∨ (∃ one ∈ after.served, one.epoch = after.epoch ∧ one.key = key) ∨
      (∃ msg, s.opens label = some (msg, key)) ∧ after.epoch = s.epoch := by
  have erased := Quiet.dequeue s label
  have kept {epoch : Nat} (found : ((s.dequeue label).adoptEpoch epoch).1.roomKey = some key)
      (moved : after.epoch = max (s.dequeue label).epoch epoch) : s.roomKey = some key ∧ after.epoch = s.epoch := by
    rw [roomKey_adoptEpoch] at found
    split at found
    next older => exact ⟨erased.roomKey ▸ found, by rw [moved, max_eq_left older, erased.epoch]⟩
    next => cases found
  cases step_change taken with
  | quiet same => exact .inl ⟨same.roomKey ▸ held, same.epoch⟩
  | registered epoch _ rest =>
    exact .inl (kept (rest.roomKey ▸ held) (rest.epoch.trans (epoch_adoptEpoch ..)))
  | cached msg _ rest =>
    exact .inl (kept (rest.roomKey ▸ held) (rest.epoch.trans (epoch_cacheKeySet ..)))
  | distributing msg caller _ many unheld _ outcome =>
    obtain ⟨minted, -, shape⟩ := mint_spec ((s.dequeue label).cacheKeySet msg) label.2
    have once := ((inv.quiet erased).cacheKeySet msg).mint label.2
    have someone := FiniteMap.exists_other many (((s.dequeue label).cacheKeySet msg).mint label.2).1.localId
    have keyed : (((s.dequeue label).cacheKeySet msg).mint label.2).1.leaderKey =
        some ((((s.dequeue label).cacheKeySet msg).mint label.2).1.epoch,
          (((s.dequeue label).cacheKeySet msg).mint label.2).2) := by
      rw [minted, shape]
      rfl
    rcases once.loop_roomKey keyed (.inr someone) outcome held with before | served
    · rw [shape] at before
      exact absurd (before.symm.trans unheld) (by simp)
    · exact .inr (.inl served)
  | served work peerId publicKey replied sent outcome =>
    have current := timely _ replied
    have keyed := inv.keyed _ _ _ sent current
    rw [← erased.epoch] at current keyed
    rw [← erased.leaderKey] at keyed
    have once := (inv.quiet erased).markSealed peerId publicKey current keyed
    rcases once.loop_roomKey keyed (.inl (List.cons_ne_nil _ _)) outcome held with before | served
    · exact .inl ⟨erased.roomKey ▸ before, outcome.epoch.trans erased.epoch⟩
    · exact .inr (.inl served)
  | opened msg opened replied rest =>
    rw [rest.roomKey] at held
    cases held
    exact .inr (.inr ⟨⟨msg, replied⟩, rest.epoch.trans erased.epoch⟩)

end OneKey
end Session
end Burble.E2EE
