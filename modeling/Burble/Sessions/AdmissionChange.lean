import Burble.Sessions.Admission

namespace Burble.Sessions
variable {Pid Digest : Type} {a : Authority Pid Digest} {id role : String}

/-- A session and one of its seats, as the authority holds them. -/
structure OnRecord (a : Authority Pid Digest) (id : String) (session : Session Pid Digest) (role : String)
    (seat : Seat Pid Digest) : Prop where
  atSession : a.sessions.lookup id = some session
  atSeat : session.seats.lookup role = some seat

theorem putSession_lookup (a : Authority Pid Digest) (id other : String) (session : Session Pid Digest) :
    (a.putSession id session).sessions.lookup other = if other = id then some session else a.sessions.lookup other :=
  FiniteMap.lookup_insert_if ..

@[simp] theorem unwatch_sessions (a : Authority Pid Digest) (monitor : Option Nat) :
    (a.unwatch monitor).sessions = a.sessions := by
  cases monitor <;> rfl

@[simp] theorem unwatch_drawn (a : Authority Pid Digest) (monitor : Option Nat) :
    (a.unwatch monitor).drawn = a.drawn := by
  cases monitor <;> rfl

@[simp] theorem unwatch_refs (a : Authority Pid Digest) (monitor : Option Nat) :
    (a.unwatch monitor).refs = a.refs := by
  cases monitor <;> rfl

/-- The session a seat was put into, or another session as it was. -/
theorem putSeat_session {after : Session Pid Digest} {seat : Seat Pid Digest} {other : String}
    (found : (a.putSeat id role seat).sessions.lookup other = some after) :
    ∃ old, a.sessions.lookup other = some old ∧ after.epoch = old.epoch ∧ after.deadline = old.deadline := by
  unfold Authority.putSeat at found
  split at found
  next session before =>
    rw [putSession_lookup] at found
    by_cases same : other = id
    · rw [if_pos same] at found
      obtain rfl := Option.some.inj found
      exact ⟨session, same ▸ before, rfl, rfl⟩
    · rw [if_neg same] at found
      exact ⟨after, found, rfl, rfl⟩
  next => exact ⟨after, found, rfl, rfl⟩

/-- The seat put, or another seat as it was. -/
theorem putSeat_onRecord {after : Session Pid Digest} {seat held : Seat Pid Digest} {other part : String}
    (found : OnRecord (a.putSeat id role seat) other after part held) :
    ∃ old, a.sessions.lookup other = some old ∧ after.epoch = old.epoch ∧ after.deadline = old.deadline ∧
      (other = id ∧ part = role ∧ held = seat ∨ ¬ (other = id ∧ part = role) ∧ OnRecord a other old part held) := by
  obtain ⟨atSession, atSeat⟩ := found
  unfold Authority.putSeat at atSession
  split at atSession
  next session before =>
    rw [putSession_lookup] at atSession
    by_cases same : other = id
    · rw [if_pos same] at atSession
      obtain rfl := Option.some.inj atSession
      refine ⟨session, same ▸ before, rfl, rfl, ?_⟩
      rw [FiniteMap.lookup_insert_if] at atSeat
      by_cases there : part = role
      · rw [if_pos there] at atSeat
        exact .inl ⟨same, there, (Option.some.inj atSeat).symm⟩
      · rw [if_neg there] at atSeat
        exact .inr ⟨fun both => there both.2, same ▸ before, atSeat⟩
    · rw [if_neg same] at atSession
      exact ⟨after, atSession, rfl, rfl, .inr ⟨fun both => same both.1, atSession, atSeat⟩⟩
  next absent =>
    have elsewhere : other ≠ id := by
      rintro rfl
      rw [absent] at atSession
      cases atSession
    exact ⟨after, atSession, rfl, rfl, .inr ⟨fun both => elsewhere both.1, atSession, atSeat⟩⟩

/-- The seat put is on record, in its session. -/
theorem putSeat_here {session : Session Pid Digest} {old : Seat Pid Digest} (there : OnRecord a id session role old)
    (seat : Seat Pid Digest) : ∃ next, OnRecord (a.putSeat id role seat) id next role seat ∧ next.epoch = session.epoch ∧
      next.revision = session.revision := by
  refine ⟨{ session with seats := session.seats.insert role seat }, ⟨?_, AList.lookup_insert _⟩, rfl, rfl⟩
  simp only [Authority.putSeat, there.atSession, putSession_lookup, if_true]

/-- The other seats stay on record. -/
theorem putSeat_keeps {other part : String} {session : Session Pid Digest} {held : Seat Pid Digest}
    (there : OnRecord a other session part held) (elsewhere : ¬ (other = id ∧ part = role)) (seat : Seat Pid Digest) :
    ∃ next, OnRecord (a.putSeat id role seat) other next part held ∧ next.epoch = session.epoch := by
  unfold Authority.putSeat
  split
  next before atId =>
    by_cases same : other = id
    · subst same
      obtain rfl := Option.some.inj (there.atSession.symm.trans atId)
      refine ⟨{ session with seats := session.seats.insert role seat }, ⟨?_, ?_⟩, rfl⟩
      · rw [putSession_lookup, if_pos rfl]
      · rw [FiniteMap.lookup_insert_if, if_neg fun isRole => elsewhere ⟨rfl, isRole⟩]
        exact there.atSeat
    · exact ⟨session, ⟨by rw [putSession_lookup, if_neg same]; exact there.atSession, there.atSeat⟩, rfl⟩
  next => exact ⟨session, there, rfl⟩

@[simp] theorem putSeat_drawn (a : Authority Pid Digest) (id role : String) (seat : Seat Pid Digest) :
    (a.putSeat id role seat).drawn = a.drawn := by
  unfold Authority.putSeat
  split <;> rfl

@[simp] theorem putSeat_refs (a : Authority Pid Digest) (id role : String) (seat : Seat Pid Digest) :
    (a.putSeat id role seat).refs = a.refs := by
  unfold Authority.putSeat
  split <;> rfl

@[simp] theorem putSeat_monitors (a : Authority Pid Digest) (id role : String) (seat : Seat Pid Digest) :
    (a.putSeat id role seat).monitors = a.monitors := by
  unfold Authority.putSeat
  split <;> rfl

/-- Disconnecting either finds no seat, or empties the one it finds and forgets its monitor. -/
theorem disconnect_cases (id role : String) (fence : Bool) (a : Authority Pid Digest) :
    (disconnect id role fence a = a ∧ ∀ session seat, ¬ OnRecord a id session role seat) ∨
    ∃ session seat told, OnRecord a id session role seat ∧
      disconnect id role fence a =
        { (a.putSeat id role seat.disconnected).unwatch seat.monitor with fenced := told } := by
  unfold disconnect
  split
  next session atSession =>
    split
    next seat atSeat => exact .inr ⟨session, seat, _, ⟨atSession, atSeat⟩, rfl⟩
    next absent =>
      refine .inl ⟨rfl, fun other seat found => ?_⟩
      have same : other = session := Option.some.inj (found.atSession.symm.trans atSession)
      exact absurd (same ▸ found.atSeat) (by rw [absent]; simp)
  next absent => exact .inl ⟨rfl, fun session seat found => absurd found.atSession (by rw [absent]; simp)⟩

theorem disconnect_session {fence : Bool} {other : String} {after : Session Pid Digest}
    (found : (disconnect id role fence a).sessions.lookup other = some after) :
    ∃ old, a.sessions.lookup other = some old ∧ after.epoch = old.epoch ∧ after.deadline = old.deadline := by
  rcases disconnect_cases id role fence a with ⟨same, _⟩ | ⟨session, seat, told, before, same⟩
  · rw [same] at found
    exact ⟨after, found, rfl, rfl⟩
  · rw [same] at found
    simp only [unwatch_sessions] at found
    exact putSeat_session found

/-- A seat after a disconnection: another one as it was, or the one disconnected. -/
theorem disconnect_onRecord {fence : Bool} {other part : String} {after : Session Pid Digest} {held : Seat Pid Digest}
    (found : OnRecord (disconnect id role fence a) other after part held) :
    ∃ old seat, OnRecord a other old part seat ∧ after.epoch = old.epoch ∧ after.deadline = old.deadline ∧
      (¬ (other = id ∧ part = role) ∧ held = seat ∨ held = seat.disconnected) := by
  rcases disconnect_cases id role fence a with ⟨same, absent⟩ | ⟨session, seat, told, before, same⟩
  · rw [same] at found
    refine ⟨after, held, found, rfl, rfl, .inl ⟨?_, rfl⟩⟩
    rintro ⟨rfl, rfl⟩
    exact absent after held found
  · rw [same] at found
    obtain ⟨atSession, atSeat⟩ := found
    simp only [unwatch_sessions] at atSession
    obtain ⟨old, atOld, epoch, deadline, ⟨rfl, rfl, rfl⟩ | ⟨elsewhere, kept⟩⟩ := putSeat_onRecord ⟨atSession, atSeat⟩
    · obtain rfl := Option.some.inj (atOld.symm.trans before.atSession)
      exact ⟨old, seat, before, epoch, deadline, .inr rfl⟩
    · exact ⟨old, held, kept, epoch, deadline, .inl ⟨elsewhere, rfl⟩⟩

theorem unwatch_lookup (monitor : Option Nat) (ref : Nat) :
    (a.unwatch monitor).monitors.lookup ref = if monitor = some ref then none else a.monitors.lookup ref := by
  cases monitor with
  | none => exact (if_neg (by simp)).symm
  | some other =>
    rw [Authority.unwatch, FiniteMap.lookup_erase_if]
    simp only [Option.some.injEq, eq_comm]

/-- The monitors a disconnection leaves: all but the one of the seat it empties. -/
theorem disconnect_monitors (id role : String) (fence : Bool) (ref : Nat) (a : Authority Pid Digest) :
    (disconnect id role fence a).monitors.lookup ref = a.monitors.lookup ref ∨
    (disconnect id role fence a).monitors.lookup ref = none ∧
      ∃ session seat, OnRecord a id session role seat ∧ seat.monitor = some ref := by
  rcases disconnect_cases id role fence a with ⟨same, _⟩ | ⟨session, seat, told, before, same⟩
  · exact .inl (by rw [same])
  · rw [same]
    simp only [unwatch_lookup, putSeat_monitors]
    by_cases watched : seat.monitor = some ref
    · exact .inr ⟨if_pos watched, session, seat, before, watched⟩
    · exact .inl (if_neg watched)

theorem putSeat_other {other : String} (elsewhere : other ≠ id) (role : String) (seat : Seat Pid Digest)
    (a : Authority Pid Digest) : (a.putSeat id role seat).sessions.lookup other = a.sessions.lookup other := by
  unfold Authority.putSeat
  split
  · rw [putSession_lookup, if_neg elsewhere]
  · rfl

theorem disconnect_other {other : String} (elsewhere : other ≠ id) (role : String) (fence : Bool)
    (a : Authority Pid Digest) : (disconnect id role fence a).sessions.lookup other = a.sessions.lookup other := by
  rcases disconnect_cases id role fence a with ⟨same, _⟩ | ⟨session, seat, told, _, same⟩
  · rw [same]
  · rw [same]
    simp only [unwatch_sessions, putSeat_other elsewhere]

@[simp] theorem disconnect_drawn (id role : String) (fence : Bool) (a : Authority Pid Digest) :
    (disconnect id role fence a).drawn = a.drawn := by
  rcases disconnect_cases id role fence a with ⟨same, _⟩ | ⟨session, seat, told, _, same⟩
  · rw [same]
  · rw [same]
    simp only [unwatch_drawn, putSeat_drawn]

@[simp] theorem disconnect_refs (id role : String) (fence : Bool) (a : Authority Pid Digest) :
    (disconnect id role fence a).refs = a.refs := by
  rcases disconnect_cases id role fence a with ⟨same, _⟩ | ⟨session, seat, told, _, same⟩
  · rw [same]
  · rw [same]
    simp only [unwatch_refs, putSeat_refs]

/-- What every disconnection keeps, a revocation keeps when dropping the session keeps it too. -/
theorem revoke_keeps (holds : Authority Pid Digest → Prop) (sound : holds a)
    (freed : ∀ b role, holds b → holds (disconnect id role true b))
    (dropped : ∀ b, holds b → holds { b with sessions := b.sessions.erase id }) : holds (revoke id a) := by
  have emptied : ∀ (roles : List String) (b : Authority Pid Digest), holds b →
      holds (roles.foldl (fun b role => disconnect id role true b) b) := by
    intro roles
    induction roles with
    | nil => exact fun _ kept => kept
    | cons role rest ih => exact fun b kept => ih _ (freed b role kept)
  unfold revoke
  split
  next => exact sound
  next session _ => exact dropped _ (emptied session.seats.keys a sound)

theorem revoke_other {other : String} (elsewhere : other ≠ id) (a : Authority Pid Digest) :
    (revoke id a).sessions.lookup other = a.sessions.lookup other := by
  refine revoke_keeps (fun b => b.sessions.lookup other = a.sessions.lookup other) rfl ?_ ?_
  · intro b role kept
    rw [disconnect_other elsewhere, kept]
  · intro b kept
    rw [← kept]
    exact AList.lookup_erase_ne elsewhere

theorem revoke_lookup (id other : String) (a : Authority Pid Digest) :
    (revoke id a).sessions.lookup other = if other = id then none else a.sessions.lookup other := by
  by_cases same : other = id
  · subst same
    rw [if_pos rfl]
    unfold revoke
    split
    next absent => exact absent
    next => exact AList.lookup_erase _ _
  · rw [if_neg same, revoke_other same]

@[simp] theorem revoke_drawn (id : String) (a : Authority Pid Digest) : (revoke id a).drawn = a.drawn := by
  refine revoke_keeps (fun b => b.drawn = a.drawn) rfl ?_ fun _ kept => kept
  intro b role kept
  rw [disconnect_drawn, kept]

@[simp] theorem revoke_refs (id : String) (a : Authority Pid Digest) : (revoke id a).refs = a.refs := by
  refine revoke_keeps (fun b => b.refs = a.refs) rfl ?_ fun _ kept => kept
  intro b role kept
  rw [disconnect_refs, kept]

/-- What every revocation keeps, a sweep keeps. -/
theorem expire_keeps (holds : Authority Pid Digest → Prop) (clock : Clock) (sound : holds a)
    (revoked : ∀ b id, holds b → holds (revoke id b)) : holds (expire clock a) := by
  unfold expire
  generalize a.sessions.toList = entries
  induction entries generalizing a with
  | nil => exact sound
  | cons entry rest ih =>
    simp only [List.foldl_cons]
    split
    · exact ih (revoked a entry.1 sound)
    · exact ih sound

@[simp] theorem expire_drawn (clock : Clock) (a : Authority Pid Digest) : (expire clock a).drawn = a.drawn := by
  refine expire_keeps (fun b => b.drawn = a.drawn) clock rfl fun b id kept => ?_
  rw [revoke_drawn, kept]

@[simp] theorem expire_refs (clock : Clock) (a : Authority Pid Digest) : (expire clock a).refs = a.refs := by
  refine expire_keeps (fun b => b.refs = a.refs) clock rfl fun b id kept => ?_
  rw [revoke_refs, kept]

/-- A sweep drops the sessions whose deadline passed and leaves every other as it was. -/
theorem expire_lookup (clock : Clock) (a : Authority Pid Digest) (id : String) :
    (expire clock a).sessions.lookup id =
      (a.sessions.lookup id).filter fun session => decide (clock.sweep < session.deadline) := by
  have swept : ∀ (entries : List (String × Session Pid Digest)) (b : Authority Pid Digest),
      (entries.foldl (fun b entry => if entry.2.deadline ≤ clock.sweep then revoke entry.1 b else b) b).sessions.lookup
          id = if entries.any fun entry => entry.1 = id ∧ entry.2.deadline ≤ clock.sweep then none
        else b.sessions.lookup id := by
    intro entries
    induction entries with
    | nil => exact fun b => by rw [List.any_nil, if_neg Bool.false_ne_true]; rfl
    | cons entry rest ih =>
      intro b
      rw [List.foldl_cons, ih, List.any_cons]
      by_cases late : entry.2.deadline ≤ clock.sweep
      · by_cases same : entry.1 = id
        · simp [late, same, revoke_lookup]
        · rw [decide_eq_false fun both => same both.1, Bool.false_or]
          simp only [if_pos late, revoke_lookup, if_neg (Ne.symm same)]
      · rw [decide_eq_false fun both => late both.2, Bool.false_or]
        simp only [if_neg late]
  have late : (a.sessions.toList.any fun entry => entry.1 = id ∧ entry.2.deadline ≤ clock.sweep) = true ↔
      ∃ session, a.sessions.lookup id = some session ∧ session.deadline ≤ clock.sweep := by
    simp only [List.any_eq_true, decide_eq_true_eq, Prod.exists, FiniteMap.mem_toList]
    constructor
    · rintro ⟨_, session, found, rfl, passed⟩
      exact ⟨session, found, passed⟩
    · rintro ⟨session, found, passed⟩
      exact ⟨id, session, found, rfl, passed⟩
  refine (swept _ _).trans ?_
  cases atId : a.sessions.lookup id with
  | none => simp
  | some session =>
    by_cases passed : session.deadline ≤ clock.sweep
    · rw [if_pos (late.mpr ⟨session, atId, passed⟩), Option.filter_some_neg (by simpa using passed)]
    · have none := fun found => passed ((Option.some.inj (atId.symm.trans (late.mp found).choose_spec.1)) ▸
        (late.mp found).choose_spec.2)
      rw [if_neg none, Option.filter_some_pos (by simpa using passed)]

theorem expire_session {session : Session Pid Digest} (clock : Clock)
    (found : (expire clock a).sessions.lookup id = some session) :
    a.sessions.lookup id = some session ∧ clock.sweep < session.deadline := by
  rw [expire_lookup, Option.filter_eq_some_iff] at found
  exact ⟨found.1, of_decide_eq_true found.2⟩

/-- What a provision consists of: one fresh seat for each role. -/
theorem provision_seats (secrets : Secrets Digest) (clock : Clock) (drawn : Nat) (id audience : String)
    (roster : FiniteMap String String) (ttl : Int) (revision : Nat) {seat : Seat Pid Digest}
    (found : (provision secrets clock drawn id audience roster ttl revision).1.seats.lookup role = some seat) :
    ∃ subject digest, seat = .vacant subject digest := by
  have built : ∀ (entries : List (String × String))
      (start : FiniteMap String (Seat Pid Digest) × FiniteMap String Grant × Nat),
      (∀ seat, start.1.lookup role = some seat → ∃ subject digest, seat = .vacant subject digest) →
      ∀ seat, (entries.foldl (provisionSeat secrets) start).1.lookup role = some seat →
        ∃ subject digest, seat = .vacant subject digest := by
    intro entries
    induction entries with
    | nil => exact fun _ fresh => fresh
    | cons entry rest ih =>
      intro start fresh
      refine ih _ fun seat found => ?_
      simp only [provisionSeat, FiniteMap.lookup_insert_if] at found
      split at found
      · exact ⟨_, _, (Option.some.inj found).symm⟩
      · exact fresh seat found
  exact built _ _ (fun _ none => absurd none (by simp)) seat found

/-- A provision draws its epoch first, and more secrets after it. -/
theorem provision_drawn (secrets : Secrets Digest) (clock : Clock) (drawn : Nat) (id audience : String)
    (roster : FiniteMap String String) (ttl : Int) (revision : Nat) :
    drawn < (provision secrets clock drawn id audience roster ttl revision : Session Pid Digest × Provision × Nat).2.2 := by
  have counted : ∀ (entries : List (String × String))
      (start : FiniteMap String (Seat Pid Digest) × FiniteMap String Grant × Nat),
      start.2.2 ≤ (entries.foldl (provisionSeat secrets) start).2.2 := by
    intro entries
    induction entries with
    | nil => exact fun _ => le_rfl
    | cons entry rest ih =>
      intro start
      have onward := ih (provisionSeat secrets start entry)
      exact (Nat.le_succ _).trans onward
  exact counted _ (∅, ∅, drawn + 1)

theorem fetchSession_ok {epoch : String} {session : Session Pid Digest} (fetched : fetchSession a id epoch = .ok session) :
    a.sessions.lookup id = some session ∧ session.epoch = epoch := by
  unfold fetchSession at fetched
  split at fetched
  next found atId =>
    split at fetched
    next same =>
      obtain rfl := Except.ok.inj fetched
      exact ⟨atId, same⟩
    next => cases fetched
  next => cases fetched

/-- A lease is current for the process its seat was given to, under the epoch on record, until it expires. -/
theorem current_ok [DecidableEq Pid] {clock : Clock} {pid : Pid} {lease : Option Lease} {seat : Seat Pid Digest}
    (held : current clock a pid lease = .ok seat) :
    ∃ shown session expiry, lease = some shown ∧ OnRecord a shown.sessionId session shown.role seat ∧
      session.epoch = shown.epoch ∧ seat.pid = some pid ∧ seat.subject = shown.subject ∧
      seat.leaseId = some shown.id ∧ seat.expiresAt = some expiry ∧ clock.system < expiry := by
  unfold current at held
  split at held
  next shown =>
    split at held
    next => cases held
    next session fetched =>
      obtain ⟨atSession, epoch⟩ := fetchSession_ok fetched
      split at held
      next found atSeat =>
        split at held
        next checks =>
          obtain rfl := Except.ok.inj held
          obtain ⟨holder, subject, leaseId, expiry, expires, alive⟩ := checks
          exact ⟨shown, session, expiry, rfl, ⟨atSession, atSeat⟩, epoch, holder, subject, leaseId, expires, alive⟩
        next => cases held
      next => cases held
  next => cases held

/-- A claim passes its checks for a seat of the session's current epoch, under the seat's subject. -/
theorem claimChecks_ok [DecidableEq Digest] {secrets : Secrets Digest} {clock : Clock} {identity : Option Identity}
    {audience epoch : String} {credential : Credential} {expiresAt : Int} {session : Session Pid Digest}
    {seat : Seat Pid Digest}
    (passed : claimChecks secrets clock identity id audience role epoch credential a = .ok (expiresAt, session, seat)) :
    OnRecord a id session role seat ∧ session.epoch = epoch ∧ checkCredential secrets seat credential = .ok () ∧
      ∃ shown, identity = some shown ∧ shown.subject = seat.subject ∧ shown.expiresAt = expiresAt := by
  unfold claimChecks at passed
  cases proven : authenticate clock identity with
  | error => rw [proven] at passed; cases passed
  | ok who =>
    cases fetched : fetchSession a id epoch with
    | error => rw [proven, fetched] at passed; cases passed
    | ok found =>
      rw [proven, fetched] at passed
      obtain ⟨atSession, epochEq⟩ := fetchSession_ok fetched
      simp only [bind, Except.bind] at passed
      split at passed
      next held atSeat =>
        split at passed
        next scope =>
          cases checked : checkCredential secrets held credential with
          | error => rw [checked] at passed; cases passed
          | ok =>
            rw [checked] at passed
            cases passed
            refine ⟨⟨atSession, atSeat⟩, epochEq, checked, ?_⟩
            unfold authenticate at proven
            split at proven
            next shown =>
              split at proven
              · cases proven
                exact ⟨shown, rfl, scope.2.symm, rfl⟩
              · cases proven
            next => cases proven
        next => cases passed
      next => cases passed

theorem checkSequence_ok {seq : Int} {last : Option Int} (passed : checkSequence (.integer seq) last = .ok ()) :
    ∀ high ∈ last, high < seq := by
  simp only [checkSequence] at passed
  split at passed
  · split at passed
    · cases passed
    next fresh =>
      intro high found
      by_contra reached
      exact fresh ⟨high, found, Int.not_lt.mp reached⟩
  · cases passed

/-- The seat that is disconnected stays on record, empty. -/
theorem disconnect_here {session : Session Pid Digest} {seat : Seat Pid Digest} (fence : Bool)
    (before : OnRecord a id session role seat) :
    ∃ after, OnRecord (disconnect id role fence a) id after role seat.disconnected ∧ after.epoch = session.epoch ∧
      after.revision = session.revision := by
  obtain ⟨next, found, same⟩ := putSeat_here before seat.disconnected
  refine ⟨next, ⟨?_, found.atSeat⟩, same⟩
  unfold disconnect
  rw [before.atSession]
  simp only [before.atSeat, unwatch_sessions]
  exact found.atSession

end Burble.Sessions
