import Mathlib.Data.Set.Function
import Mathlib.Order.Interval.Set.Basic
import Burble.Sessions.AdmissionHistory

namespace Burble.Sessions
variable {Pid Digest : Type} {secrets : Secrets Digest} {history : List (Exchange Pid)}
variable {a : Authority Pid Digest} {clock : Clock} {monitor : Nat}

/-- No session on record is past its deadline. -/
def Live (clock : Clock) (a : Authority Pid Digest) : Prop :=
  ∀ id session, a.sessions.lookup id = some session → clock.sweep < session.deadline

theorem expire_live (clock : Clock) (a : Authority Pid Digest) : Live clock (expire clock a) :=
  fun _ _ found => (expire_session clock found).2

theorem Live.disconnect (live : Live clock a) (id role : String) (fence : Bool) :
    Live clock (disconnect id role fence a) := by
  intro other session found
  obtain ⟨old, before, _, deadline⟩ := disconnect_session found
  rw [deadline]
  exact live other old before

theorem Live.revoke (live : Live clock a) (id : String) : Live clock (revoke id a) := by
  intro other session found
  rw [revoke_lookup] at found
  by_cases same : other = id
  · simp [same] at found
  · rw [if_neg same] at found
    exact live other session found

namespace Sound

/-- A call that only sweeps: it is refused, or runs an effect and records no number. -/
theorem swept (sound : Sound secrets history a) (live : Live clock a) {request : Request Pid} {reply : Reply}
    (sweeps : request.sweeps = true) (provisions : ∀ p, reply ≠ .provisioned p)
    (claims : ∀ lease receipt, reply ≠ .claimed lease receipt) (served : reply ≠ .unavailable)
    (silent : ∀ seat, Exchange.recorded seat ⟨clock, request, monitor, reply⟩ = none) :
    Sound secrets (history ++ [⟨clock, request, monitor, reply⟩]) a := by
  refine sound.record (fun {id session} found => ?_) (fun _ _ _ => ?_) silent
  · have alive := live id session found
    rintro (⟨p, provisioned, _⟩ | rfl | gone | ⟨_, late⟩)
    · exact provisions p provisioned
    · cases sweeps
    · exact served gone
    · exact absurd alive (Int.not_lt.mpr late)
  · rintro (⟨lease, receipt, claimed, _⟩ | ⟨pid, rfl, _⟩ | rfl)
    · exact claims lease receipt claimed
    · cases sweeps
    · cases sweeps

/-- A new session under a fresh epoch, with vacant seats. -/
theorem putSession (sound : Sound secrets history a) {id : String} {session : Session Pid Digest} {drawn : Nat}
    (distinct : Set.InjOn secrets.secret (Set.Iio drawn)) (later : a.drawn < drawn)
    (epoch : session.epoch = secrets.secret a.drawn) (begun : EpochCurrent history id session.epoch session.deadline)
    (vacant : ∀ {role seat}, session.seats.lookup role = some seat → ∃ subject digest, seat = .vacant subject digest) :
    Sound secrets history { a.putSession id session with drawn } := by
  have kept {other : String} {next : Session Pid Digest}
      (found : (a.putSession id session).sessions.lookup other = some next) :
      other = id ∧ next = session ∨ other ≠ id ∧ a.sessions.lookup other = some next := by
    rw [putSession_lookup] at found
    by_cases same : other = id
    · rw [if_pos same] at found
      exact .inl ⟨same, (Option.some.inj found).symm⟩
    · rw [if_neg same] at found
      exact .inr ⟨same, found⟩
  have none (role : String) : accepted (id, session.epoch, role) history = [] := by
    by_contra some
    obtain ⟨n, before, same⟩ := sound.drawnAccepted _ _ _ some
    have equal := distinct (Set.mem_Iio.mpr later) (Set.mem_Iio.mpr (before.trans later)) (epoch.symm.trans same)
    omega
  refine ⟨?_, ?_, ?_, ?_, ?_, sound.monitored, sound.ordered, ?_⟩
  · intro other next found
    obtain ⟨rfl, rfl⟩ | ⟨_, before⟩ := kept found
    · exact begun
    · exact sound.epochs before
  · intro other next found
    obtain ⟨rfl, rfl⟩ | ⟨_, before⟩ := kept found
    · exact ⟨a.drawn, later, epoch⟩
    · obtain ⟨n, bound, same⟩ := sound.drawn before
      exact ⟨n, bound.trans later, same⟩
  · intro other role next seat found
    obtain ⟨rfl, rfl⟩ | ⟨_, before⟩ := kept found.atSession
    · obtain ⟨subject, digest, rfl⟩ := vacant found.atSeat
      rw [none]
      rfl
    · exact sound.highWater ⟨before, found.atSeat⟩
  · intro other role leaseId next seat found leased
    obtain ⟨rfl, rfl⟩ | ⟨_, before⟩ := kept found.atSession
    · obtain ⟨subject, digest, rfl⟩ := vacant found.atSeat
      cases leased
    · exact sound.held ⟨before, found.atSeat⟩ leased
  · intro other role next seat ref found watched
    obtain ⟨rfl, rfl⟩ | ⟨_, before⟩ := kept found.atSession
    · obtain ⟨subject, digest, rfl⟩ := vacant found.atSeat
      cases watched
    · exact sound.watched ⟨before, found.atSeat⟩ watched
  · intro other epoch role some
    obtain ⟨n, bound, same⟩ := sound.drawnAccepted other epoch role some
    exact ⟨n, bound.trans later, same⟩

/-- A provision under a session id that is not on record. -/
theorem provision (sound : Sound secrets history a) (live : Live clock a) {request : Request Pid}
    (sweeps : request.sweeps = true) {id audience : String} (absent : a.sessions.lookup id = none)
    (roster : FiniteMap String String) (ttl : Int) (revision : Nat) :
    let granted := Sessions.provision secrets clock a.drawn id audience roster ttl revision
    Set.InjOn secrets.secret (Set.Iio granted.2.2) → Sound secrets (history ++ [⟨clock, request, monitor, .provisioned granted.2.1⟩])
      { a.putSession id granted.1 with drawn := granted.2.2 } := by
  intro granted distinct
  have recorded : Sound secrets (history ++ [⟨clock, request, monitor, .provisioned granted.2.1⟩]) a := by
    refine sound.record (fun {other session} found => ?_) (fun _ _ _ => ?_) fun seat => ?_
    · have alive := live other session found
      rintro (⟨p, provisioned, rfl⟩ | rfl | gone | ⟨_, late⟩)
      · cases provisioned
        exact absurd absent (by rw [show granted.2.1.sessionId = id from rfl] at found; rw [found]; simp)
      · cases sweeps
      · cases gone
      · exact absurd alive (Int.not_lt.mpr late)
    · rintro (⟨lease, receipt, claimed, _⟩ | ⟨pid, rfl, _⟩ | rfl)
      · cases claimed
      · cases sweeps
      · cases sweeps
    · simp [Exchange.recorded]
  refine recorded.putSession distinct (provision_drawn ..) rfl ?_ fun found => provision_seats _ _ _ _ _ _ _ _ found
  refine Since.now history ⟨granted.2.1, rfl, rfl, rfl, ?_⟩
  show clock.start + ttl = clock.start + (clock.system + ttl - clock.system)
  omega

/-- A new lease for a seat that is on record and not connected. -/
theorem putLease (sound : Sound secrets history a) {id role leaseId : String} {seat : Seat Pid Digest} {pid : Pid}
    {expiresAt : Int} {rejoin : Digest} {drawn : Nat} (later : a.drawn ≤ drawn)
    (onRecord : ∃ session, OnRecord a id session role seat.disconnected)
    (granted : ∀ session, a.sessions.lookup id = some session →
      LeaseHeld history pid ⟨id, session.epoch, role, seat.subject, leaseId⟩ expiresAt a.refs session.deadline) :
    Sound secrets history
      { a.putSeat id role (seat.claimed pid a.refs leaseId expiresAt rejoin) with
        monitors := a.monitors.insert a.refs (id, role, leaseId), refs := a.refs + 1, drawn } := by
  obtain ⟨session, there⟩ := onRecord
  have moved {other part : String} {next : Session Pid Digest} {held : Seat Pid Digest}
      (found : OnRecord { a.putSeat id role (seat.claimed pid a.refs leaseId expiresAt rejoin) with
        monitors := a.monitors.insert a.refs (id, role, leaseId), refs := a.refs + 1, drawn } other next part held) :=
    putSeat_onRecord ⟨found.atSession, found.atSeat⟩
  refine ⟨?_, ?_, ?_, ?_, ?_, ?_, sound.ordered, ?_⟩
  · intro other next found
    obtain ⟨old, before, epoch, deadline⟩ := putSeat_session found
    rw [epoch, deadline]
    exact sound.epochs before
  · intro other next found
    obtain ⟨old, before, epoch, _⟩ := putSeat_session found
    obtain ⟨n, bound, same⟩ := sound.drawn before
    exact ⟨n, bound.trans_le later, epoch.trans same⟩
  · intro other part next held found
    obtain ⟨old, before, epoch, _, ⟨rfl, rfl, rfl⟩ | ⟨_, kept⟩⟩ := moved found
    · obtain rfl := Option.some.inj (before.symm.trans there.atSession)
      have mark := sound.highWater there
      rw [epoch]
      exact mark
    · rw [epoch]
      exact sound.highWater kept
  · intro other part lease next held found leased
    obtain ⟨old, before, epoch, deadline, ⟨rfl, rfl, rfl⟩ | ⟨_, kept⟩⟩ := moved found
    · cases leased
      refine ⟨pid, expiresAt, a.refs, rfl, rfl, rfl, ?_⟩
      rw [epoch, deadline]
      exact granted old before
    · rw [epoch, deadline]
      exact sound.held kept leased
  · intro other part next held ref found watched
    obtain ⟨old, before, _, _, ⟨rfl, rfl, rfl⟩ | ⟨_, kept⟩⟩ := moved found
    · cases watched
      exact ⟨leaseId, rfl, AList.lookup_insert _⟩
    · obtain ⟨lease, leased, entry⟩ := sound.watched kept watched
      have known : ref ≠ a.refs := by
        rintro rfl
        rw [sound.monitored le_rfl] at entry
        cases entry
      exact ⟨lease, leased, by rw [AList.lookup_insert_ne known, entry]⟩
  · intro ref later
    have past : a.refs + 1 ≤ ref := later
    have beyond : ref ≠ a.refs := by omega
    show (a.monitors.insert a.refs (id, role, leaseId)).lookup ref = none
    rw [AList.lookup_insert_ne beyond]
    exact sound.monitored (by omega)
  · intro other epoch part some
    obtain ⟨n, bound, same⟩ := sound.drawnAccepted other epoch part some
    exact ⟨n, bound.trans_le later, same⟩

/-- An accepted sequence number becomes the seat's high-water mark. -/
theorem putSequence (sound : Sound secrets history a) {lease : Lease} {session : Session Pid Digest}
    {seat : Seat Pid Digest} {request : Request Pid} {seq : Int} (live : Live clock a)
    (there : OnRecord a lease.sessionId session lease.role seat) (epoch : session.epoch = lease.epoch)
    (fresh : ∀ high ∈ seat.lastSeq, high < seq) (sweeps : request.sweeps = true)
    (recorded : ∀ other, Exchange.recorded other ⟨clock, request, monitor, .ok⟩ =
      if lease.seat = other then some seq else none) :
    Sound secrets (history ++ [⟨clock, request, monitor, .ok⟩])
      (a.putSeat lease.sessionId lease.role { seat with lastSeq := some seq }) := by
  have calm {id : String} {next : Session Pid Digest} (found : a.sessions.lookup id = some next) :
      ¬ Exchange.Supersedes ⟨clock, request, monitor, .ok⟩ id next.deadline := by
    have alive := live id next found
    rintro (⟨p, provisioned, _⟩ | rfl | gone | ⟨_, late⟩)
    · cases provisioned
    · cases sweeps
    · cases gone
    · exact absurd alive (Int.not_lt.mpr late)
  have quiet (held : Lease) (ref : Nat) : ¬ Exchange.Ends ⟨clock, request, monitor, .ok⟩ held ref := by
    rintro (⟨newer, receipt, claimed, _⟩ | ⟨pid, rfl, _⟩ | rfl)
    · cases claimed
    · cases sweeps
    · cases sweeps
  have grown (other : String × String × String) :
      accepted other (history ++ [⟨clock, request, monitor, .ok⟩]) =
        accepted other history ++ if lease.seat = other then [seq] else [] := by
    by_cases same : lease.seat = other
    · simp [accepted, List.filterMap_append, recorded, same]
    · simp [accepted, List.filterMap_append, recorded, same]
  have mark := sound.highWater there
  rw [epoch] at mark
  -- the high-water mark is the last number accepted, and the numbers so far increase
  have above : ∀ seen ∈ accepted lease.seat history, seen < seq := by
    intro seen member
    obtain ⟨front, final, same⟩ := List.eq_nil_or_concat' (accepted lease.seat history) |>.resolve_left
      (List.ne_nil_of_mem member)
    have high : final < seq := by
      refine fresh final ?_
      rw [mark, show (lease.sessionId, lease.epoch, lease.role) = lease.seat from rfl, same]
      exact List.getLast?_concat
    have sorted := sound.ordered lease.seat
    rw [same, List.pairwise_append] at sorted
    rw [same, List.mem_append, List.mem_singleton] at member
    rcases member with earlier | rfl
    · exact Int.lt_trans (sorted.2.2 seen earlier final List.mem_cons_self) high
    · exact high
  refine ⟨?_, ?_, ?_, ?_, ?_, ?_, ?_, ?_⟩
  · intro id next found
    obtain ⟨old, before, same, deadline⟩ := putSeat_session found
    rw [same, deadline]
    exact (sound.epochs before).next (calm before)
  · intro id next found
    obtain ⟨old, before, same, _⟩ := putSeat_session found
    rw [same, putSeat_drawn]
    exact sound.drawn before
  · intro id role next held found
    obtain ⟨old, before, same, _, ⟨rfl, rfl, rfl⟩ | ⟨elsewhere, kept⟩⟩ := putSeat_onRecord found
    · obtain rfl := Option.some.inj (before.symm.trans there.atSession)
      rw [grown, same, epoch, if_pos (show lease.seat = (lease.sessionId, lease.epoch, lease.role) from rfl)]
      exact List.getLast?_concat.symm
    · have other : lease.seat ≠ (id, next.epoch, role) := by
        intro equal
        simp only [Lease.seat, Prod.mk.injEq] at equal
        exact elsewhere ⟨equal.1.symm, equal.2.2.symm⟩
      rw [grown, if_neg other, List.append_nil, same]
      exact sound.highWater kept
  · intro id role leaseId next held found leased
    have served : ∃ old holder, OnRecord a id old role holder ∧ next.epoch = old.epoch ∧
        next.deadline = old.deadline ∧ holder.leaseId = some leaseId ∧ holder.pid = held.pid ∧
        holder.expiresAt = held.expiresAt ∧ holder.monitor = held.monitor ∧ holder.subject = held.subject := by
      obtain ⟨old, before, same, deadline, ⟨rfl, rfl, rfl⟩ | ⟨_, kept⟩⟩ := putSeat_onRecord found
      · obtain rfl := Option.some.inj (before.symm.trans there.atSession)
        exact ⟨old, seat, there, same, deadline, leased, rfl, rfl, rfl, rfl⟩
      · exact ⟨old, held, kept, same, deadline, leased, rfl, rfl, rfl, rfl⟩
    obtain ⟨old, holder, before, same, deadline, lease, pid, expiry, watching, subject⟩ := served
    obtain ⟨taker, expiresAt, ref, isPid, expires, isRef, grant⟩ := sound.held before lease
    rw [same, deadline, ← pid, ← expiry, ← watching, ← subject]
    refine ⟨taker, expiresAt, ref, isPid, expires, isRef, grant.next ?_⟩
    rintro (ended | superseded)
    · exact quiet _ _ ended
    · exact calm before.atSession superseded
  · intro id role next held ref found watched
    rw [putSeat_monitors]
    obtain ⟨old, before, _, _, ⟨rfl, rfl, rfl⟩ | ⟨_, kept⟩⟩ := putSeat_onRecord found
    · have entry : ∃ leaseId, seat.leaseId = some leaseId ∧
          a.monitors.lookup ref = some (lease.sessionId, lease.role, leaseId) := sound.watched there watched
      exact entry
    · exact sound.watched kept watched
  · intro ref later
    rw [putSeat_refs] at later
    rw [putSeat_monitors]
    exact sound.monitored later
  · intro other
    rw [grown]
    by_cases same : lease.seat = other
    · subst same
      rw [if_pos rfl, List.pairwise_append]
      refine ⟨sound.ordered _, List.pairwise_singleton .., fun seen member last isLast => ?_⟩
      rw [List.mem_singleton.mp isLast]
      exact above seen member
    · rw [if_neg same, List.append_nil]
      exact sound.ordered other
  · intro id next role some
    rw [grown] at some
    rw [putSeat_drawn]
    by_cases same : lease.seat = (id, next, role)
    · simp only [Lease.seat, Prod.mk.injEq] at same
      obtain ⟨n, bound, drawn⟩ := sound.drawn there.atSession
      exact ⟨n, bound, by rw [← same.2.1, ← epoch, drawn]⟩
    · rw [if_neg same, List.append_nil] at some
      exact sound.drawnAccepted id next role some

variable {after : Authority Pid Digest} {reply : Reply}

theorem create (sound : Sound secrets history a) {id audience : String} {roster : FiniteMap String String} {ttl : Int}
    (distinct : Set.InjOn secrets.secret (Set.Iio after.drawn))
    (served : Sessions.create secrets clock id audience roster ttl a = (reply, after)) :
    Sound secrets (history ++ [⟨clock, .create id audience roster ttl, monitor, reply⟩]) after := by
  have swept := sound.expire clock
  have live := expire_live clock a
  have refused (reason : Error) : Sound secrets
      (history ++ [⟨clock, .create id audience roster ttl, monitor, .error reason⟩]) (Sessions.expire clock a) :=
    swept.swept live rfl (by simp) (by simp) (by simp) fun _ => rfl
  unfold Sessions.create at served
  simp only at served
  split at served
  · cases served
    exact refused _
  · split at served
    · cases served
      exact refused _
    next absent =>
      split at served
      · cases served
        exact refused _
      · cases served
        exact swept.provision live rfl (by simpa using absent) roster ttl 1 distinct

theorem rotate (sound : Sound secrets history a) {id : String}
    (distinct : Set.InjOn secrets.secret (Set.Iio after.drawn))
    (served : Sessions.rotate secrets clock id a = (reply, after)) :
    Sound secrets (history ++ [⟨clock, .rotate id, monitor, reply⟩]) after := by
  have swept := sound.expire clock
  have live := expire_live clock a
  unfold Sessions.rotate at served
  simp only at served
  split at served
  next old _ =>
    cases served
    have absent : (Sessions.revoke id (Sessions.expire clock a)).sessions.lookup id = none := by
      rw [revoke_lookup, if_pos rfl]
    exact (swept.revoke id).provision (live.revoke id) rfl absent (old.seats.mapValues Seat.subject) old.ttl
      (old.revision + 1) distinct
  next =>
    cases served
    exact swept.swept live rfl (by simp) (by simp) (by simp) fun _ => rfl

theorem close (sound : Sound secrets history a) {id : String} (served : Sessions.close id a = (reply, after)) :
    Sound secrets (history ++ [⟨clock, .close id, monitor, reply⟩]) after := by
  cases served
  refine (sound.revoke id).record (fun {other session} found => ?_) (fun _ _ _ => ?_) fun _ => rfl
  · rw [revoke_lookup] at found
    rintro (⟨p, provisioned, _⟩ | closed | gone | ⟨sweeps, _⟩)
    · cases provisioned
    · cases closed
      simp at found
    · cases gone
    · cases sweeps
  · rintro (⟨newer, receipt, claimed, _⟩ | ⟨pid, left, _⟩ | fell)
    · cases claimed
    · cases left
    · cases fell

theorem claim [DecidableEq Digest] (sound : Sound secrets history a) {pid : Pid} {identity : Option Identity}
    {id audience role epoch : String} {credential : Credential}
    (served : Sessions.claim secrets clock pid identity id audience role epoch credential a = (reply, after)) :
    Sound secrets (history ++ [⟨clock, .claim pid identity id audience role epoch credential, a.refs, reply⟩])
      after := by
  have swept := sound.expire clock
  have live := expire_live clock a
  unfold Sessions.claim at served
  simp only at served
  split at served
  next =>
    cases served
    exact swept.swept live rfl (by simp) (by simp) (by simp) fun _ => rfl
  next expiresAt session seat passed =>
    obtain ⟨before, rfl, _, shown, rfl, subject, expiry⟩ := claimChecks_ok passed
    obtain ⟨freed, there, sameEpoch, _⟩ := disconnect_here true before
    have alive := live.disconnect id role true
    have refs : (Sessions.disconnect id role true (Sessions.expire clock a)).refs = a.refs := by
      rw [disconnect_refs, expire_refs]
    cases served
    rw [← refs]
    refine Sound.putLease (Sound.record (swept.disconnect id role true) (fun {other next} found => ?_)
      (fun {other next part held leaseId ref} found leased _ => ?_) fun _ => rfl) (Nat.le_add_right ..) ⟨freed, there⟩
      fun next found => ?_
    · have above := alive other next found
      rintro (⟨p, provisioned, _⟩ | closed | gone | ⟨_, late⟩)
      · cases provisioned
      · cases closed
      · cases gone
      · exact absurd above (Int.not_lt.mpr late)
    -- the only seat the new lease competes for has just been emptied
    · rintro (⟨newer, receipt, claimed, seatEq⟩ | ⟨other, left, _⟩ | fell)
      · cases claimed
        simp only [Lease.seat, Prod.mk.injEq] at seatEq
        obtain ⟨rfl, _, rfl⟩ := seatEq
        obtain rfl := Option.some.inj (found.atSession.symm.trans there.atSession)
        have same : held = seat.disconnected := Option.some.inj (found.atSeat.symm.trans there.atSeat)
        rw [same] at leased
        cases leased
      · cases left
      · cases fell
    · obtain rfl := Option.some.inj (found.symm.trans there.atSession)
      rw [sameEpoch]
      exact Since.now history ⟨⟨shown, audience, credential, _, rfl, rfl, subject, expiry⟩, rfl⟩

theorem effect [DecidableEq Pid] (sound : Sound secrets history a) {pid : Pid} {lease : Option Lease} {seq : Sequence}
    {result : EffectResult} (served : Sessions.effect clock pid lease seq result a = (reply, after)) :
    Sound secrets (history ++ [⟨clock, .effect pid lease seq result, monitor, reply⟩]) after := by
  have swept := sound.expire clock
  have live := expire_live clock a
  unfold Sessions.effect at served
  simp only at served
  split at served
  next =>
    cases served
    exact swept.swept live rfl (by simp) (by simp) (by simp) fun seat => Exchange.recorded_none seat (by simp)
  next =>
    cases served
    exact swept.swept live rfl (by simp) (by simp) (by simp) fun _ => rfl
  next shown seat held =>
    obtain ⟨_, session, expiry, isShown, there, epoch, _⟩ := current_ok held
    obtain rfl := Option.some.inj isShown
    split at served
    next =>
      cases served
      exact swept.swept live rfl (by simp) (by simp) (by simp) fun seat => Exchange.recorded_none seat (by simp)
    next passed =>
      split at served
      next seq =>
        cases served
        exact swept.putSequence live there epoch (checkSequence_ok passed) rfl fun _ => rfl
      next unsequenced =>
        cases served
        refine swept.swept live rfl (by simp) (by simp) (by simp) fun _ => ?_
        cases seq with
        | integer seq => exact absurd rfl (unsequenced seq)
        | unsequenced => rfl
        | other => rfl
      next =>
        cases served
        exact swept.swept live rfl (by simp) (by simp) (by simp) fun seat => Exchange.recorded_none seat (by simp)
      next =>
        cases served
        refine Sound.record swept.restart (fun found => ?_) (fun found => ?_) fun seat => Exchange.recorded_none seat (by simp)
        · simp [Authority.restart] at found
        · exact absurd found.atSession (by simp [Authority.restart])

theorem leave [DecidableEq Pid] (sound : Sound secrets history a) {pid : Pid} {lease : Option Lease}
    (served : Sessions.leave clock pid lease a = (reply, after)) :
    Sound secrets (history ++ [⟨clock, .leave pid lease, monitor, reply⟩]) after := by
  have refused (reason : Error) : Sound secrets
      (history ++ [⟨clock, .leave pid lease, monitor, .error reason⟩]) a := by
    refine sound.record (fun _ => ?_) (fun _ _ _ => ?_) fun seat => Exchange.recorded_none seat (by simp)
    · rintro (⟨p, provisioned, _⟩ | closed | gone | ⟨sweeps, _⟩)
      · cases provisioned
      · cases closed
      · cases gone
      · cases sweeps
    · rintro (⟨newer, receipt, claimed, _⟩ | ⟨other, _, done⟩ | fell)
      · cases claimed
      · cases done
      · cases fell
  unfold Sessions.leave at served
  split at served
  · cases served
    exact refused _
  · cases served
    exact refused _
  next shown seat held =>
    obtain ⟨_, session, expiry, isShown, there, epoch, _⟩ := current_ok held
    obtain rfl := Option.some.inj isShown
    obtain ⟨_, empty, _⟩ := disconnect_here false there
    cases served
    refine Sound.record (sound.disconnect ..) (fun _ => ?_) (fun {id next role freed leaseId ref} found leased _ => ?_)
      fun _ => rfl
    · rintro (⟨p, provisioned, _⟩ | closed | gone | ⟨sweeps, _⟩)
      · cases provisioned
      · cases closed
      · cases gone
      · cases sweeps
    -- the lease given up is the one of the seat just emptied
    · rintro (⟨newer, receipt, claimed, _⟩ | ⟨other, left, _⟩ | fell)
      · cases claimed
      · cases left
        obtain rfl := Option.some.inj (found.atSession.symm.trans empty.atSession)
        have same : freed = seat.disconnected := Option.some.inj (found.atSeat.symm.trans empty.atSeat)
        rw [same] at leased
        cases leased
      · cases fell

theorem unwatch (sound : Sound secrets history a) {ref : Nat}
    (unused : ∀ {id role session seat}, OnRecord a id session role seat → seat.monitor ≠ some ref) :
    Sound secrets history (a.unwatch ref) where
  epochs := sound.epochs
  drawn := sound.drawn
  highWater found := sound.highWater ⟨found.atSession, found.atSeat⟩
  held found := sound.held ⟨found.atSession, found.atSeat⟩
  watched found watching := by
    have before : OnRecord a _ _ _ _ := ⟨found.atSession, found.atSeat⟩
    obtain ⟨leaseId, leased, entry⟩ := sound.watched before watching
    have other : ¬ some ref = some _ := fun same => unused before (watching.trans same.symm)
    exact ⟨leaseId, leased, by rw [unwatch_lookup, if_neg other, entry]⟩
  monitored later := by
    rw [unwatch_lookup, sound.monitored later, ite_self]
  ordered := sound.ordered
  drawnAccepted := sound.drawnAccepted

/-- Whichever branch a `:DOWN` message takes, no seat is left with the monitor that went off. -/
theorem down (sound : Sound secrets history a) {ref : Nat} (served : Sessions.down ref a = (reply, after)) :
    Sound secrets (history ++ [⟨clock, .down ref, monitor, reply⟩]) after := by
  have recorded {b : Authority Pid Digest} (kept : Sound secrets history b)
      (gone : ∀ {id role session seat}, OnRecord b id session role seat → seat.monitor ≠ some ref) :
      Sound secrets (history ++ [⟨clock, .down ref, monitor, .silent⟩]) b := by
    refine kept.record (fun _ => ?_) (fun found _ watching => ?_) fun _ => rfl
    · rintro (⟨p, provisioned, _⟩ | closed | gone | ⟨sweeps, _⟩)
      · cases provisioned
      · cases closed
      · cases gone
      · cases sweeps
    · rintro (⟨newer, receipt, claimed, _⟩ | ⟨other, left, _⟩ | fell)
      · cases claimed
      · cases left
      · cases fell
        exact gone found watching
  unfold Sessions.down at served
  split at served
  next id role leaseId entry =>
    -- a seat with this monitor is the one the entry names
    have named {other part session seat} (found : OnRecord a other session part seat)
        (watching : seat.monitor = some ref) : other = id ∧ part = role ∧ seat.leaseId = some leaseId := by
      obtain ⟨lease, leased, taken⟩ := sound.watched found watching
      have same := Option.some.inj (taken.symm.trans entry)
      simp only [Prod.mk.injEq] at same
      exact ⟨same.1, same.2.1, by rw [leased, same.2.2]⟩
    have stale (unused : ∀ {other part session seat}, OnRecord a other session part seat →
        seat.monitor ≠ some ref) : Sound secrets (history ++ [⟨clock, .down ref, monitor, .silent⟩])
          (a.unwatch ref) :=
      recorded (sound.unwatch unused) fun found => unused ⟨found.atSession, found.atSeat⟩
    split at served
    next session atSession =>
      split at served
      next seat atSeat =>
        split at served
        next =>
          cases served
          refine recorded (sound.disconnect ..) fun found watching => ?_
          obtain ⟨old, held, before, _, _, ⟨elsewhere, rfl⟩ | rfl⟩ := disconnect_onRecord found
          · have same := named before watching
            exact elsewhere ⟨same.1, same.2.1⟩
          · cases watching
        next other =>
          cases served
          refine stale fun found watching => ?_
          obtain ⟨rfl, rfl, leased⟩ := named found watching
          obtain rfl := Option.some.inj (found.atSession.symm.trans atSession)
          obtain rfl := Option.some.inj (found.atSeat.symm.trans atSeat)
          exact other leased
      next absent =>
        cases served
        refine stale fun found watching => ?_
        obtain ⟨rfl, rfl, _⟩ := named found watching
        obtain rfl := Option.some.inj (found.atSession.symm.trans atSession)
        exact absurd found.atSeat (by rw [absent]; simp)
    next absent =>
      cases served
      refine stale fun found watching => ?_
      obtain ⟨rfl, rfl, _⟩ := named found watching
      exact absurd found.atSession (by rw [absent]; simp)
  next absent =>
    cases served
    refine recorded sound fun found watching => ?_
    obtain ⟨lease, _, entry⟩ := sound.watched found watching
    rw [absent] at entry
    cases entry

end Sound

theorem handle_drawn [DecidableEq Pid] [DecidableEq Digest] (secrets : Secrets Digest) (clock : Clock)
    (request : Request Pid) (a : Authority Pid Digest) : a.drawn ≤ (handle secrets clock request a).2.drawn := by
  cases request with
  | create id audience roster ttl =>
    have more : a.drawn < (provision secrets clock a.drawn id audience roster ttl 1 : Session Pid Digest × _).2.2 :=
      provision_drawn ..
    simp only [handle, create, expire_drawn]
    split
    · simp
    · split
      · simp
      · split
        · simp
        · exact more.le
  | rotate id =>
    simp only [handle, rotate]
    split
    next old _ =>
      have more : a.drawn < (provision secrets clock a.drawn id old.audience (old.seats.mapValues Seat.subject)
        old.ttl (old.revision + 1) : Session Pid Digest × _).2.2 := provision_drawn ..
      simpa using more.le
    next => simp
  | close id => simp [handle, close]
  | claim pid identity id audience role epoch credential =>
    simp only [handle, claim]
    split
    · simp
    · simp
  | effect pid lease seq result =>
    simp only [handle, effect]
    split
    · simp
    · simp
    · split
      · simp
      · split <;> simp [Authority.restart]
  | leave pid lease =>
    simp only [handle, leave]
    split <;> simp
  | down ref =>
    simp only [handle, down]
    split
    · split
      · split
        · split <;> simp
        · simp
      · simp
    · simp
  | expire => simp [handle]

namespace Sound
variable [DecidableEq Pid] [DecidableEq Digest]

/-- Every request keeps what the authority holds in step with its history. -/
theorem step (sound : Sound secrets history a) {e : Exchange Pid}
    (distinct : Set.InjOn secrets.secret (Set.Iio after.drawn)) (taken : Serves secrets a e after) :
    Sound secrets (history ++ [e]) after := by
  obtain ⟨clock, request, monitor, reply⟩ := e
  obtain ⟨rfl, served⟩ := taken
  cases request with
  | create => exact sound.create distinct served
  | rotate => exact sound.rotate distinct served
  | close => exact sound.close served
  | claim => exact sound.claim served
  | effect => exact sound.effect served
  | leave => exact sound.leave served
  | down => exact sound.down served
  | expire =>
    cases served
    exact (sound.expire clock).swept (expire_live clock a) rfl (by simp) (by simp) (by simp) fun _ => rfl

theorem of_run (run : Run (Serves secrets) init history a)
    (distinct : Set.InjOn secrets.secret (Set.Iio a.drawn)) : Sound secrets history a := by
  induction run with
  | start => exact .start
  | @next history before e after _ taken ih =>
    have grows : before.drawn ≤ after.drawn := by
      have drawn := handle_drawn secrets e.clock e.request before
      rwa [taken.2] at drawn
    exact (ih (distinct.mono (Set.Iio_subset_Iio grows))).step distinct taken

end Sound
end Burble.Sessions
