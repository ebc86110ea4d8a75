import Burble.Sessions.AdmissionSound

namespace Burble.Sessions
variable {Pid Digest : Type} {secrets : Secrets Digest} {clock : Clock} {a b after : Authority Pid Digest}

/-- An authority after some of its seats were disconnected and some of its sessions revoked. -/
inductive Freed (a : Authority Pid Digest) : Authority Pid Digest → Prop
  | refl : Freed a a
  | disconnect {b : Authority Pid Digest} (id role : String) (fence : Bool) :
      Freed a b → Freed a (disconnect id role fence b)
  | revoke {b : Authority Pid Digest} (id : String) : Freed a b → Freed a (revoke id b)

namespace Freed

theorem expire (clock : Clock) (a : Authority Pid Digest) : Freed a (expire clock a) :=
  expire_keeps _ clock .refl fun _ id freed => freed.revoke id

theorem drawn (freed : Freed a b) : b.drawn = a.drawn := by
  induction freed with
  | refl => rfl
  | disconnect id role fence _ ih => rw [disconnect_drawn, ih]
  | revoke id _ ih => rw [revoke_drawn, ih]

theorem refs (freed : Freed a b) : b.refs = a.refs := by
  induction freed with
  | refl => rfl
  | disconnect id role fence _ ih => rw [disconnect_refs, ih]
  | revoke id _ ih => rw [revoke_refs, ih]

/-- What disconnections and revocations keep. -/
theorem keeps {holds : Authority Pid Digest → Prop} (freed : Freed a b) (sound : holds a)
    (disconnected : ∀ c id role fence, holds c → holds (Sessions.disconnect id role fence c))
    (revoked : ∀ c id, holds c → holds (Sessions.revoke id c)) : holds b := by
  induction freed with
  | refl => exact sound
  | disconnect id role fence _ ih => exact disconnected _ id role fence ih
  | revoke id _ ih => exact revoked _ id ih

end Freed

/-- What is left to a request once seats are disconnected and sessions revoked. -/
inductive Outcome [DecidableEq Digest] (secrets : Secrets Digest) (clock : Clock) (b : Authority Pid Digest) :
    Request Pid → Reply → Authority Pid Digest → Prop
  | quiet (request : Request Pid) (reply : Reply) (provisions : ∀ p, reply ≠ .provisioned p)
      (claims : ∀ lease receipt, reply ≠ .claimed lease receipt) : Outcome secrets clock b request reply b
  | restarted (request : Request Pid) : Outcome secrets clock b request .unavailable b.restart
  | unwatched (request : Request Pid) (ref : Nat) : Outcome secrets clock b request .silent (b.unwatch (some ref))
  | sequenced (request : Request Pid) {id role : String} {session : Session Pid Digest} {seat : Seat Pid Digest}
      (there : OnRecord b id session role seat) (seq : Int) :
      Outcome secrets clock b request .ok (b.putSeat id role { seat with lastSeq := some seq })
  | provisioned (request : Request Pid) {id : String} (audience : String) (roster : FiniteMap String String) (ttl : Int)
      (revision : Nat) (absent : b.sessions.lookup id = none) :
      Outcome secrets clock b request
        (.provisioned (provision secrets clock b.drawn id audience roster ttl revision : Session Pid Digest × _).2.1)
        { b.putSession id (provision secrets clock b.drawn id audience roster ttl revision).1 with
          drawn := (provision secrets clock b.drawn id audience roster ttl revision : Session Pid Digest × _).2.2 }
  | claimed (pid : Pid) (identity : Option Identity) (audience : String) {id role : String} {credential : Credential}
      {session : Session Pid Digest} {seat : Seat Pid Digest} (there : OnRecord b id session role seat)
      (free : seat = seat.disconnected) (checked : checkCredential secrets seat credential = .ok ()) (expiresAt : Int) :
      Outcome secrets clock b (.claim pid identity id audience role session.epoch credential)
        (.claimed ⟨id, session.epoch, role, seat.subject, secrets.secret (b.drawn + 1)⟩
          ⟨protocol, id, session.epoch, session.revision, role, seat.subject, secrets.secret b.drawn, "accepted",
            "burble-admission"⟩)
        { b.putSeat id role
            (seat.claimed pid b.refs (secrets.secret (b.drawn + 1)) expiresAt (secrets.digest (secrets.secret b.drawn))) with
          monitors := b.monitors.insert b.refs (id, role, secrets.secret (b.drawn + 1)), refs := b.refs + 1,
          drawn := b.drawn + 2 }

section Handling
variable [DecidableEq Digest] {reply : Reply}

theorem create_outcome {id audience : String} {roster : FiniteMap String String} {ttl : Int} {request : Request Pid}
    (served : create secrets clock id audience roster ttl a = (reply, after)) :
    Outcome secrets clock (expire clock a) request reply after := by
  unfold create at served
  simp only at served
  split at served
  · cases served
    exact .quiet _ _ (by simp) (by simp)
  · split at served
    · cases served
      exact .quiet _ _ (by simp) (by simp)
    next absent =>
      split at served
      · cases served
        exact .quiet _ _ (by simp) (by simp)
      · cases served
        exact .provisioned request audience roster ttl 1 (by simpa using absent)

theorem rotate_outcome {id : String} {request : Request Pid} (served : rotate secrets clock id a = (reply, after)) :
    ∃ b, Freed a b ∧ Outcome secrets clock b request reply after := by
  unfold rotate at served
  simp only at served
  split at served
  next old _ =>
    cases served
    exact ⟨_, (Freed.expire clock a).revoke id,
      .provisioned request old.audience _ old.ttl (old.revision + 1) (by rw [revoke_lookup, if_pos rfl])⟩
  next =>
    cases served
    exact ⟨_, Freed.expire clock a, .quiet _ _ (by simp) (by simp)⟩

theorem claim_outcome {pid : Pid} {identity : Option Identity} {id audience role epoch : String} {credential : Credential}
    (served : claim secrets clock pid identity id audience role epoch credential a = (reply, after)) :
    ∃ b, Freed a b ∧ Outcome secrets clock b (.claim pid identity id audience role epoch credential) reply after := by
  unfold claim at served
  simp only at served
  split at served
  next =>
    cases served
    exact ⟨_, Freed.expire clock a, .quiet _ _ (by simp) (by simp)⟩
  next expiresAt session seat passed =>
    obtain ⟨before, rfl, checked, _⟩ := claimChecks_ok passed
    obtain ⟨next, there, epoch, revision⟩ := disconnect_here true before
    cases served
    refine ⟨_, (Freed.expire clock a).disconnect id role true, ?_⟩
    have stillChecked : checkCredential secrets seat.disconnected credential = .ok () := checked
    have outcome : Outcome secrets clock _ _ _ _ := .claimed pid identity audience there rfl stillChecked expiresAt
    rw [epoch, revision] at outcome
    exact outcome

theorem down_outcome {ref : Nat} {request : Request Pid} (served : down ref a = (reply, after)) :
    ∃ b, Freed a b ∧ Outcome secrets clock b request reply after := by
  unfold down at served
  split at served
  next id role leaseId _ =>
    have fell (same : a.unwatch (some ref) = after) (silent : Reply.silent = reply) :
        ∃ b, Freed a b ∧ Outcome secrets clock b request reply after := by
      subst same silent
      exact ⟨a, .refl, .unwatched request ref⟩
    split at served
    · split at served
      · split at served
        · cases served
          exact ⟨_, Freed.refl.disconnect id role false, .quiet _ _ (by simp) (by simp)⟩
        · cases served
          exact fell rfl rfl
      · cases served
        exact fell rfl rfl
    · cases served
      exact fell rfl rfl
  next =>
    cases served
    exact ⟨a, .refl, .quiet _ _ (by simp) (by simp)⟩

variable [DecidableEq Pid]

theorem effect_outcome {pid : Pid} {lease : Option Lease} {seq : Sequence} {result : EffectResult} {request : Request Pid}
    (served : effect clock pid lease seq result a = (reply, after)) :
    Outcome secrets clock (expire clock a) request reply after := by
  unfold effect at served
  simp only at served
  split at served
  next =>
    cases served
    exact .quiet _ _ (by simp) (by simp)
  next =>
    cases served
    exact .quiet _ _ (by simp) (by simp)
  next shown seat held =>
    obtain ⟨_, session, _, isShown, there, _⟩ := current_ok held
    obtain rfl := Option.some.inj isShown
    split at served
    next =>
      cases served
      exact .quiet _ _ (by simp) (by simp)
    next passed =>
      split at served
      next seq =>
        cases served
        exact .sequenced request there seq
      next =>
        cases served
        exact .quiet _ _ (by simp) (by simp)
      next =>
        cases served
        exact .quiet _ _ (by simp) (by simp)
      next =>
        cases served
        exact .restarted request

theorem leave_outcome {pid : Pid} {lease : Option Lease} {request : Request Pid}
    (served : leave clock pid lease a = (reply, after)) :
    ∃ b, Freed a b ∧ Outcome secrets clock b request reply after := by
  unfold leave at served
  split at served
  · cases served
    exact ⟨a, .refl, .quiet _ _ (by simp) (by simp)⟩
  · cases served
    exact ⟨a, .refl, .quiet _ _ (by simp) (by simp)⟩
  next shown _ _ =>
    cases served
    exact ⟨_, Freed.refl.disconnect shown.sessionId shown.role false, .quiet _ _ (by simp) (by simp)⟩

/-- Every request frees some seats and then does one thing. -/
theorem handle_outcome {request : Request Pid} (served : handle secrets clock request a = (reply, after)) :
    ∃ b, Freed a b ∧ Outcome secrets clock b request reply after := by
  cases request with
  | create id audience roster ttl => exact ⟨_, Freed.expire clock a, create_outcome served⟩
  | rotate id => exact rotate_outcome served
  | close id =>
    cases served
    exact ⟨_, Freed.refl.revoke id, .quiet _ _ (by simp) (by simp)⟩
  | claim pid identity id audience role epoch credential => exact claim_outcome served
  | effect pid lease seq result => exact ⟨_, Freed.expire clock a, effect_outcome served⟩
  | leave pid lease => exact leave_outcome served
  | down ref => exact down_outcome served
  | expire =>
    cases served
    exact ⟨_, Freed.expire clock a, .quiet _ _ (by simp) (by simp)⟩

end Handling
end Burble.Sessions

namespace Burble.Sessions
variable {Pid Digest : Type} {secrets : Secrets Digest} {clock : Clock} {a b after : Authority Pid Digest}

/-- Every monitor is that of a seat, and a seat has a process exactly when it has a monitor. -/
structure Backed (a : Authority Pid Digest) : Prop where
  entries {ref : Nat} {id role leaseId : String} : a.monitors.lookup ref = some (id, role, leaseId) →
    ∃ session seat, OnRecord a id session role seat ∧ seat.monitor = some ref ∧ seat.leaseId = some leaseId
  holders {id role : String} {session : Session Pid Digest} {seat : Seat Pid Digest} :
    OnRecord a id session role seat → (seat.pid.isSome ↔ seat.monitor.isSome)

/-- The monitors are those of the connected seats, one entry for each, under the seat's monitor; so
the message of a monitor that goes off always finds its seat. -/
structure MonitorsExact (a : Authority Pid Digest) : Prop where
  entries (ref : Nat) (id role leaseId : String) : a.monitors.lookup ref = some (id, role, leaseId) ↔
    ∃ session seat, OnRecord a id session role seat ∧ seat.pid.isSome ∧ seat.monitor = some ref ∧
      seat.leaseId = some leaseId
  connected (id role : String) (session : Session Pid Digest) (seat : Seat Pid Digest) :
    OnRecord a id session role seat → seat.pid.isSome → ∃ ref leaseId, seat.monitor = some ref ∧ seat.leaseId = some leaseId
  noFallback (ref : Nat) (id role leaseId : String) : a.monitors.lookup ref = some (id, role, leaseId) →
    down ref a = (.silent, disconnect id role false a)

/-- A seat after some roles of a session were disconnected. -/
theorem disconnectAll_onRecord {id role : String} {session : Session Pid Digest} {seat : Seat Pid Digest}
    (roles : List String) (found : OnRecord (roles.foldl (fun a role => disconnect id role true a) a) id session role seat) :
    (role ∈ roles → seat.monitor = none) ∧
      ∃ old before, OnRecord a id old role before ∧ (seat = before ∨ seat.monitor = none) := by
  induction roles generalizing a with
  | nil => exact ⟨fun member => absurd member List.not_mem_nil, session, seat, found, .inl rfl⟩
  | cons first rest ih =>
    obtain ⟨emptied, middle, held, there, kept⟩ := ih found
    obtain ⟨old, before, onRecord, _, _, same⟩ := disconnect_onRecord there
    have freed (isFirst : role = first) : seat.monitor = none := by
      have none : held.monitor = none := by
        rcases same with ⟨elsewhere, _⟩ | rfl
        · exact absurd ⟨rfl, isFirst⟩ elsewhere
        · rfl
      rcases kept with rfl | none'
      · exact none
      · exact none'
    refine ⟨fun member => ?_, old, before, onRecord, ?_⟩
    · rcases List.mem_cons.mp member with isFirst | later
      · exact freed isFirst
      · exact emptied later
    · rcases kept with rfl | none
      · rcases same with ⟨_, rfl⟩ | rfl
        · exact .inl rfl
        · exact .inr rfl
      · exact .inr none

namespace Backed

theorem start : Backed (init : Authority Pid Digest) where
  entries found := absurd found (by simp [init])
  holders found := absurd found.atSession (by simp [init])

theorem restart : Backed a.restart where
  entries found := absurd found (by simp [Authority.restart])
  holders found := absurd found.atSession (by simp [Authority.restart])

theorem disconnect (backed : Backed a) (id role : String) (fence : Bool) : Backed (disconnect id role fence a) where
  entries {ref other part leaseId} found := by
    rcases disconnect_cases id role fence a with ⟨same, _⟩ | ⟨session, seat, told, there, same⟩
    · rw [same] at found ⊢
      exact backed.entries found
    · rw [same] at found ⊢
      simp only [unwatch_lookup, putSeat_monitors] at found
      by_cases watched : seat.monitor = some ref
      · rw [if_pos watched] at found
        cases found
      rw [if_neg watched] at found
      obtain ⟨next, held, onRecord, monitor, leased⟩ := backed.entries found
      -- the entry that is left is of another seat
      have elsewhere : ¬ (other = id ∧ part = role) := by
        rintro ⟨rfl, rfl⟩
        obtain rfl := Option.some.inj (onRecord.atSession.symm.trans there.atSession)
        obtain rfl := Option.some.inj (onRecord.atSeat.symm.trans there.atSeat)
        exact watched monitor
      obtain ⟨changed, kept, _⟩ := putSeat_keeps onRecord elsewhere seat.disconnected
      refine ⟨changed, held, ⟨?_, kept.atSeat⟩, monitor, leased⟩
      simp only [unwatch_sessions]
      exact kept.atSession
  holders found := by
    obtain ⟨old, before, onRecord, _, _, ⟨_, rfl⟩ | rfl⟩ := disconnect_onRecord found
    · exact backed.holders onRecord
    · exact Iff.rfl

theorem revoke (backed : Backed a) (id : String) : Backed (revoke id a) := by
  have all (roles : List String) : Backed (roles.foldl (fun a role => Sessions.disconnect id role true a) a) := by
    induction roles generalizing a with
    | nil => exact backed
    | cons role rest ih => exact ih (backed.disconnect id role true)
  unfold Sessions.revoke
  split
  next => exact backed
  next session atSession =>
    have freed := all session.seats.keys
    generalize emptied : session.seats.keys.foldl (fun a role => Sessions.disconnect id role true a) a = c at freed
    have kept {other : String} {next : Session Pid Digest} (found : (c.sessions.erase id).lookup other = some next) :
        c.sessions.lookup other = some next := by
      rw [FiniteMap.lookup_erase_if] at found
      split at found
      · cases found
      · exact found
    refine ⟨fun {ref other role leaseId} found => ?_, fun found => freed.holders ⟨kept found.atSession, found.atSeat⟩⟩
    obtain ⟨next, seat, onRecord, monitor, leased⟩ := freed.entries found
    -- all seats of the session that is dropped have been disconnected
    have elsewhere : other ≠ id := by
      rintro rfl
      subst emptied
      obtain ⟨free, old, before, there, _⟩ := disconnectAll_onRecord _ onRecord
      obtain rfl := Option.some.inj (there.atSession.symm.trans atSession)
      have isRole : role ∈ old.seats.keys :=
        AList.mem_keys.mp (AList.lookup_isSome.mp (by rw [there.atSeat]; rfl))
      rw [free isRole] at monitor
      cases monitor
    refine ⟨next, seat, ⟨?_, onRecord.atSeat⟩, monitor, leased⟩
    rw [FiniteMap.lookup_erase_if, if_neg elsewhere]
    exact onRecord.atSession

theorem freed (backed : Backed a) (free : Freed a b) : Backed b :=
  free.keeps backed (fun _ id role fence kept => kept.disconnect id role fence) fun _ id kept => kept.revoke id

theorem unwatch (backed : Backed a) (ref : Nat) : Backed (a.unwatch (some ref)) where
  entries found := by
    rw [unwatch_lookup] at found
    split at found
    · cases found
    · obtain ⟨session, seat, there, rest⟩ := backed.entries found
      exact ⟨session, seat, ⟨there.atSession, there.atSeat⟩, rest⟩
  holders found := backed.holders ⟨found.atSession, found.atSeat⟩

/-- A seat that keeps its process, its monitor and its lease. -/
theorem putSeat (backed : Backed a) {id role : String} {session : Session Pid Digest} {seat changed : Seat Pid Digest}
    (there : OnRecord a id session role seat) (pid : changed.pid = seat.pid) (monitor : changed.monitor = seat.monitor)
    (leaseId : changed.leaseId = seat.leaseId) : Backed (a.putSeat id role changed) where
  entries {ref other part lease} found := by
    rw [putSeat_monitors] at found
    obtain ⟨next, held, onRecord, watching, leased⟩ := backed.entries found
    by_cases here : other = id ∧ part = role
    · obtain ⟨rfl, rfl⟩ := here
      obtain rfl := Option.some.inj (onRecord.atSession.symm.trans there.atSession)
      obtain rfl := Option.some.inj (onRecord.atSeat.symm.trans there.atSeat)
      obtain ⟨after, found, _⟩ := putSeat_here there changed
      exact ⟨after, changed, found, monitor.trans watching, leaseId.trans leased⟩
    · obtain ⟨after, found, _⟩ := putSeat_keeps onRecord here changed
      exact ⟨after, held, found, watching, leased⟩
  holders found := by
    obtain ⟨old, atOld, _, _, ⟨rfl, rfl, rfl⟩ | ⟨_, kept⟩⟩ := putSeat_onRecord found
    · rw [pid, monitor]
      exact backed.holders there
    · exact backed.holders kept

/-- A free seat that is given to a process, under a new monitor. -/
theorem putLease (backed : Backed a) {id role : String} {session : Session Pid Digest} {seat : Seat Pid Digest} (there : OnRecord a id session role seat)
    (free : seat = seat.disconnected) (pid : Pid) (leaseId : String) (expiresAt : Int) (rejoin : Digest) (drawn : Nat) :
    Backed { a.putSeat id role (seat.claimed pid a.refs leaseId expiresAt rejoin) with
      monitors := a.monitors.insert a.refs (id, role, leaseId), refs := a.refs + 1, drawn } where
  entries {ref other part lease} found := by
    rw [FiniteMap.lookup_insert_if] at found
    split at found
    next isNew =>
      cases found
      obtain ⟨after, found, _⟩ := putSeat_here there (seat.claimed pid a.refs leaseId expiresAt rejoin)
      exact ⟨after, _, ⟨found.atSession, found.atSeat⟩, congrArg some isNew.symm, rfl⟩
    next =>
      obtain ⟨next, held, onRecord, watching, leased⟩ := backed.entries found
      have elsewhere : ¬ (other = id ∧ part = role) := by
        rintro ⟨rfl, rfl⟩
        obtain rfl := Option.some.inj (onRecord.atSession.symm.trans there.atSession)
        obtain rfl := Option.some.inj (onRecord.atSeat.symm.trans there.atSeat)
        rw [free] at watching
        cases watching
      obtain ⟨after, found, _⟩ := putSeat_keeps onRecord elsewhere (seat.claimed pid a.refs leaseId expiresAt rejoin)
      exact ⟨after, held, ⟨found.atSession, found.atSeat⟩, watching, leased⟩
  holders found := by
    obtain ⟨old, atOld, _, _, ⟨rfl, rfl, rfl⟩ | ⟨_, kept⟩⟩ := putSeat_onRecord ⟨found.atSession, found.atSeat⟩
    · exact iff_of_true rfl rfl
    · exact backed.holders kept

/-- A new session has vacant seats. -/
theorem putSession (backed : Backed a) {id : String} {session : Session Pid Digest} (absent : a.sessions.lookup id = none)
    (vacant : ∀ {role seat}, session.seats.lookup role = some seat → ∃ subject digest, seat = .vacant subject digest)
    (drawn : Nat) : Backed { a.putSession id session with drawn } where
  entries {ref other role leaseId} found := by
    obtain ⟨next, held, onRecord, rest⟩ := backed.entries found
    refine ⟨next, held, ⟨?_, onRecord.atSeat⟩, rest⟩
    have elsewhere : other ≠ id := by
      rintro rfl
      cases absent.symm.trans onRecord.atSession
    exact (putSession_lookup ..).trans ((if_neg elsewhere).trans onRecord.atSession)
  holders {other role next seat} found := by
    have atSession : (a.putSession id session).sessions.lookup other = some next := found.atSession
    rw [putSession_lookup] at atSession
    split at atSession
    · cases atSession
      obtain ⟨_, _, rfl⟩ := vacant found.atSeat
      exact Iff.rfl
    · exact backed.holders ⟨atSession, found.atSeat⟩

variable [DecidableEq Digest] {request : Request Pid} {reply : Reply}

theorem outcome (backed : Backed b) (outcome : Outcome secrets clock b request reply after) : Backed after := by
  cases outcome with
  | quiet => exact backed
  | restarted => exact restart
  | unwatched _ ref => exact backed.unwatch ref
  | sequenced _ there => exact backed.putSeat there rfl rfl rfl
  | provisioned _ audience roster ttl revision absent =>
    exact backed.putSession absent (fun found => provision_seats _ _ _ _ _ _ _ _ found) _
  | claimed pid _ _ there free _ expiresAt => exact backed.putLease there free pid _ expiresAt _ _

end Backed

/-- What the seats and the monitors say of each other, together. -/
theorem Sound.monitorsExact {history : List (Exchange Pid)} (sound : Sound secrets history a) (backed : Backed a) :
    MonitorsExact a where
  entries ref id role leaseId := by
    constructor
    · intro found
      obtain ⟨session, seat, there, monitor, leased⟩ := backed.entries found
      exact ⟨session, seat, there, (backed.holders there).mpr (by rw [monitor]; rfl), monitor, leased⟩
    · rintro ⟨session, seat, there, _, monitor, leased⟩
      obtain ⟨lease, isLease, entry⟩ := sound.watched there monitor
      cases leased.symm.trans isLease
      exact entry
  connected id role session seat there holder := by
    obtain ⟨ref, monitor⟩ := Option.isSome_iff_exists.mp ((backed.holders there).mp holder)
    obtain ⟨leaseId, leased, _⟩ := sound.watched there monitor
    exact ⟨ref, leaseId, monitor, leased⟩
  noFallback ref id role leaseId found := by
    obtain ⟨session, seat, there, _, leased⟩ := backed.entries found
    simp only [Sessions.down, found, there.atSession, there.atSeat, leased, if_true]

end Burble.Sessions
