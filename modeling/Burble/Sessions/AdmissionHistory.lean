import Burble.Runs
import Burble.Sessions.AdmissionChange

namespace Burble.Sessions
variable {Pid Digest : Type}

/-- One request as it was served: what the clocks read, the reference a monitor set up
meanwhile gets, and the reply. -/
structure Exchange (Pid : Type) where
  clock : Clock
  request : Request Pid
  monitor : Nat
  reply : Reply

/-- The authority serves one request. -/
def Serves [DecidableEq Pid] [DecidableEq Digest] (secrets : Secrets Digest) (a : Authority Pid Digest)
    (e : Exchange Pid) (after : Authority Pid Digest) : Prop :=
  e.monitor = a.refs ∧ handle secrets e.clock e.request a = (e.reply, after)

/-- The seat a lease is for: its session, epoch and role. -/
def Lease.seat (lease : Lease) : String × String × String := (lease.sessionId, lease.epoch, lease.role)

/-- The requests that begin with a sweep of the expired sessions. -/
def Request.sweeps : Request Pid → Bool
  | .create .. | .rotate _ | .claim .. | .effect .. | .expire => true
  | .close _ | .leave .. | .down _ => false

namespace Exchange

/-- A session is provisioned with an epoch, to last until `deadline` on the monotonic clock. -/
def Provisions (e : Exchange Pid) (id epoch : String) (deadline : Int) : Prop :=
  ∃ p, e.reply = .provisioned p ∧ p.sessionId = id ∧ p.epoch = epoch ∧
    deadline = e.clock.start + (p.expiresAt - e.clock.system)

/-- An epoch of a session ends: a new provision, a close, the deadline, or the end of the authority. -/
def Supersedes (e : Exchange Pid) (id : String) (deadline : Int) : Prop :=
  (∃ p, e.reply = .provisioned p ∧ p.sessionId = id) ∨ e.request = .close id ∨ e.reply = .unavailable ∨
    e.request.sweeps = true ∧ deadline ≤ e.clock.sweep

/-- A process claims a seat and is given the lease, for as long as its identity lasts. -/
def Grants (e : Exchange Pid) (pid : Pid) (lease : Lease) (expiresAt : Int) : Prop :=
  ∃ identity audience credential receipt,
    e.request = .claim pid (some identity) lease.sessionId audience lease.role lease.epoch credential ∧
    e.reply = .claimed lease receipt ∧ identity.subject = lease.subject ∧ identity.expiresAt = expiresAt

/-- A lease ends: a newer lease of its seat, its holder leaving, or its monitor going off. -/
def Ends (e : Exchange Pid) (lease : Lease) (monitor : Nat) : Prop :=
  (∃ newer receipt, e.reply = .claimed newer receipt ∧ newer.seat = lease.seat) ∨
    (∃ pid, e.request = .leave pid (some lease) ∧ e.reply = .ok) ∨ e.request = .down monitor

/-- The sequence number of an effect accepted for a seat. -/
def recorded (seat : String × String × String) (e : Exchange Pid) : Option Int :=
  match e.request, e.reply with
  | .effect _ (some lease) (.integer seq) _, .ok => if lease.seat = seat then some seq else none
  | _, _ => none

theorem recorded_none {e : Exchange Pid} (seat : String × String × String) (refused : e.reply ≠ .ok) :
    e.recorded seat = none := by
  unfold recorded
  split
  next replied => exact absurd replied refused
  next => rfl

end Exchange

/-- The epoch is the one the session was last provisioned with, and it has not ended. -/
def EpochCurrent (history : List (Exchange Pid)) (id epoch : String) (deadline : Int) : Prop :=
  Since (·.Provisions id epoch deadline) (·.Supersedes id deadline) history

/-- The lease is the last one issued for its seat, went to the process, and has not ended. -/
def LeaseHeld (history : List (Exchange Pid)) (pid : Pid) (lease : Lease) (expiresAt : Int) (monitor : Nat)
    (deadline : Int) : Prop :=
  Since (fun e => e.Grants pid lease expiresAt ∧ e.monitor = monitor)
    (fun e => e.Ends lease monitor ∨ e.Supersedes lease.sessionId deadline) history

/-- The sequence numbers accepted for a seat, in order. -/
def accepted (seat : String × String × String) (history : List (Exchange Pid)) : List Int :=
  history.filterMap (·.recorded seat)

/-- What the authority holds is what its history says. -/
structure Sound (secrets : Secrets Digest) (history : List (Exchange Pid)) (a : Authority Pid Digest) : Prop where
  epochs {id : String} {session : Session Pid Digest} : a.sessions.lookup id = some session →
    EpochCurrent history id session.epoch session.deadline
  drawn {id : String} {session : Session Pid Digest} : a.sessions.lookup id = some session →
    ∃ n < a.drawn, session.epoch = secrets.secret n
  highWater {id role : String} {session : Session Pid Digest} {seat : Seat Pid Digest} :
    OnRecord a id session role seat → seat.lastSeq = (accepted (id, session.epoch, role) history).getLast?
  held {id role leaseId : String} {session : Session Pid Digest} {seat : Seat Pid Digest} :
    OnRecord a id session role seat → seat.leaseId = some leaseId →
    ∃ pid expiresAt monitor, seat.pid = some pid ∧ seat.expiresAt = some expiresAt ∧ seat.monitor = some monitor ∧
      LeaseHeld history pid ⟨id, session.epoch, role, seat.subject, leaseId⟩ expiresAt monitor session.deadline
  watched {id role : String} {session : Session Pid Digest} {seat : Seat Pid Digest} {monitor : Nat} :
    OnRecord a id session role seat → seat.monitor = some monitor →
    ∃ leaseId, seat.leaseId = some leaseId ∧ a.monitors.lookup monitor = some (id, role, leaseId)
  monitored {monitor : Nat} : a.refs ≤ monitor → a.monitors.lookup monitor = none
  ordered (seat : String × String × String) : (accepted seat history).Pairwise (· < ·)
  drawnAccepted (id epoch role : String) : accepted (id, epoch, role) history ≠ [] →
    ∃ n < a.drawn, epoch = secrets.secret n

section Keeping
variable {secrets : Secrets Digest} {history : List (Exchange Pid)} {a : Authority Pid Digest} {e : Exchange Pid}

theorem Sound.start : Sound secrets ([] : List (Exchange Pid)) init where
  epochs found := absurd found (by simp [init])
  drawn found := absurd found (by simp [init])
  highWater found := absurd found.atSession (by simp [init])
  held found := absurd found.atSession (by simp [init])
  watched found := absurd found.atSession (by simp [init])
  monitored _ := by simp [init]
  ordered _ := .nil
  drawnAccepted _ _ _ some := absurd rfl some

theorem Sound.restart (sound : Sound secrets history a) : Sound secrets history a.restart where
  epochs found := absurd found (by simp [Authority.restart])
  drawn found := absurd found (by simp [Authority.restart])
  highWater found := absurd found.atSession (by simp [Authority.restart])
  held found := absurd found.atSession (by simp [Authority.restart])
  watched found := absurd found.atSession (by simp [Authority.restart])
  monitored _ := by simp [Authority.restart]
  ordered := sound.ordered
  drawnAccepted := sound.drawnAccepted

/-- A disconnected seat keeps its high-water mark and holds no lease. -/
theorem Sound.disconnect (sound : Sound secrets history a) (id role : String) (fence : Bool) :
    Sound secrets history (disconnect id role fence a) where
  epochs found := by
    obtain ⟨old, before, epoch, deadline⟩ := disconnect_session found
    rw [epoch, deadline]
    exact sound.epochs before
  drawn found := by
    obtain ⟨old, before, epoch, _⟩ := disconnect_session found
    rw [epoch, disconnect_drawn]
    exact sound.drawn before
  highWater found := by
    obtain ⟨old, seat, before, epoch, _, kept⟩ := disconnect_onRecord found
    rw [epoch, ← sound.highWater before]
    rcases kept with ⟨_, rfl⟩ | rfl <;> rfl
  held found leased := by
    obtain ⟨old, seat, before, epoch, deadline, ⟨_, rfl⟩ | rfl⟩ := disconnect_onRecord found
    · rw [epoch, deadline]
      exact sound.held before leased
    · simp [Seat.disconnected] at leased
  watched found monitored := by
    obtain ⟨old, seat, before, _, _, ⟨elsewhere, rfl⟩ | rfl⟩ := disconnect_onRecord found
    · obtain ⟨leaseId, leased, entry⟩ := sound.watched before monitored
      refine ⟨leaseId, leased, ?_⟩
      rcases disconnect_monitors id role fence _ a with same | ⟨_, session, freed, there, erased⟩
      · rw [same, entry]
      · obtain ⟨_, _, taken⟩ := sound.watched there erased
        have same := Option.some.inj (entry.symm.trans taken)
        simp only [Prod.mk.injEq] at same
        exact absurd ⟨same.1, same.2.1⟩ elsewhere
    · simp [Seat.disconnected] at monitored
  monitored later := by
    rw [disconnect_refs] at later
    rcases disconnect_monitors id role fence _ a with same | ⟨none, _⟩
    · rw [same, sound.monitored later]
    · exact none
  ordered := sound.ordered
  drawnAccepted id epoch role some := by
    rw [disconnect_drawn]
    exact sound.drawnAccepted id epoch role some

theorem Sound.drop (sound : Sound secrets history a) (id : String) :
    Sound secrets history { a with sessions := a.sessions.erase id } := by
  have kept {other : String} {session : Session Pid Digest}
      (found : (a.sessions.erase id).lookup other = some session) : a.sessions.lookup other = some session := by
    rw [FiniteMap.lookup_erase_if] at found
    by_cases same : other = id
    · simp [same] at found
    · rwa [if_neg same] at found
  exact {
    epochs := fun found => sound.epochs (kept found)
    drawn := fun found => sound.drawn (kept found)
    highWater := fun found => sound.highWater ⟨kept found.atSession, found.atSeat⟩
    held := fun found => sound.held ⟨kept found.atSession, found.atSeat⟩
    watched := fun found => sound.watched ⟨kept found.atSession, found.atSeat⟩
    monitored := sound.monitored
    ordered := sound.ordered
    drawnAccepted := sound.drawnAccepted }

theorem Sound.revoke (sound : Sound secrets history a) (id : String) : Sound secrets history (revoke id a) :=
  revoke_keeps _ sound (fun _ role kept => kept.disconnect id role true) fun _ kept => kept.drop id

theorem Sound.expire (sound : Sound secrets history a) (clock : Clock) : Sound secrets history (expire clock a) :=
  expire_keeps _ clock sound fun _ id kept => kept.revoke id

/-- An exchange that ends no epoch and no lease on record, and records no sequence number. -/
theorem Sound.record (sound : Sound secrets history a)
    (calm : ∀ {id session}, a.sessions.lookup id = some session → ¬ e.Supersedes id session.deadline)
    (quiet : ∀ {id session role seat leaseId monitor}, OnRecord a id session role seat →
      seat.leaseId = some leaseId → seat.monitor = some monitor →
      ¬ e.Ends ⟨id, session.epoch, role, seat.subject, leaseId⟩ monitor)
    (silent : ∀ seat, e.recorded seat = none) : Sound secrets (history ++ [e]) a := by
  have same (seat : String × String × String) : accepted seat (history ++ [e]) = accepted seat history := by
    simp [accepted, List.filterMap_append, silent seat]
  refine { sound with epochs := ?_, highWater := ?_, held := ?_, ordered := ?_, drawnAccepted := ?_ }
  · intro id session found
    exact (sound.epochs found).next (calm found)
  · intro id role session seat found
    rw [same]
    exact sound.highWater found
  · intro id role leaseId session seat found leased
    obtain ⟨pid, expiresAt, monitor, holder, expiry, watching, grant⟩ := sound.held found leased
    refine ⟨pid, expiresAt, monitor, holder, expiry, watching, grant.next ?_⟩
    rintro (ended | superseded)
    · exact quiet found leased watching ended
    · exact calm found.atSession superseded
  · intro seat
    rw [same]
    exact sound.ordered seat
  · intro id epoch role some
    rw [same] at some
    exact sound.drawnAccepted id epoch role some

end Keeping
end Burble.Sessions
