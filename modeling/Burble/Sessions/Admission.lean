import Burble.FiniteMap

namespace Burble.Sessions

def protocol : String := "admission-v1"
def maxSessions : Nat := 256
def maxSeats : Nat := 16
def maxLifetime : Int := 3600
def maxSeq : Int := 9007199254740991

/-- The error atoms of the admission authority. -/
inductive Error
  | invalidSession
  | sessionExists
  | sessionCapacity
  | unknownSession
  | unauthenticated
  | staleEpoch
  | scopeMismatch
  | invalidTicket
  | ticketConsumed
  | invalidRejoin
  | staleLease
  | invalidSequence
  | staleOrDuplicate
  deriving DecidableEq, Repr

/-- The secrets in the order the authority draws them, and SHA-256. -/
structure Secrets (Digest : Type) where
  secret : Nat → String
  digest : String → Digest

/-- What the clocks read during one message: the monotonic clock when expired sessions are
swept, the system clock, and the monotonic clock again when a session is provisioned. -/
structure Clock where
  sweep : Int
  system : Int
  start : Int
  deriving DecidableEq

/-- One role of a session: whom it is for, what admits to it, and who holds it. -/
structure Seat (Pid Digest : Type) where
  subject : String
  ticketDigest : Digest
  used : Bool
  pid : Option Pid
  monitor : Option Nat
  leaseId : Option String
  rejoinDigest : Option Digest
  expiresAt : Option Int
  lastSeq : Option Int
  deriving DecidableEq

structure Session (Pid Digest : Type) where
  audience : String
  epoch : String
  revision : Nat
  expiresAt : Int
  deadline : Int
  ttl : Int
  seats : FiniteMap String (Seat Pid Digest)
  deriving DecidableEq

structure Grant where
  participantId : String
  ticket : String
  deriving DecidableEq

structure Provision where
  protocol : String
  sessionId : String
  audience : String
  epoch : String
  rosterRevision : Nat
  expiresAt : Int
  grants : FiniteMap String Grant
  deriving DecidableEq

structure Lease where
  sessionId : String
  epoch : String
  role : String
  subject : String
  id : String
  deriving DecidableEq

structure Receipt where
  protocol : String
  sessionId : String
  epoch : String
  rosterRevision : Nat
  role : String
  participantId : String
  rejoinToken : String
  evidence : String
  issuer : String
  deriving DecidableEq

/-- Who a socket authenticated, and until when. A term of any other shape is no identity. -/
structure Identity where
  subject : String
  expiresAt : Int
  deriving DecidableEq

inductive Credential
  | ticket (token : String)
  | rejoin (token : String)
  | other
  deriving DecidableEq

/-- The sequence argument of an effect: an integer, `:unsequenced`, or some other term. -/
inductive Sequence
  | unsequenced
  | integer (seq : Int)
  | other
  deriving DecidableEq

/-- What running an effect comes to. Anything but `:ok` and `{:error, _}` ends the authority. -/
inductive EffectResult
  | ok
  | error
  | crash
  deriving DecidableEq

/-- The authority's state, and what the runtime keeps for it: how many secrets were drawn and
monitors set up, and the processes that were told `:session_fenced`, newest first. -/
structure Authority (Pid Digest : Type) where
  sessions : FiniteMap String (Session Pid Digest)
  monitors : FiniteMap Nat (String × String × String)
  drawn : Nat
  refs : Nat
  fenced : List Pid
  deriving DecidableEq

inductive Reply
  | ok
  | provisioned (provision : Provision)
  | claimed (lease : Lease) (receipt : Receipt)
  | error (reason : Error)
  /-- the effect's own `{:error, _}` -/
  | failed
  /-- the authority ended before it replied -/
  | unavailable
  /-- a message that is not a call -/
  | silent
  deriving DecidableEq

variable {Pid Digest : Type}

def init : Authority Pid Digest := ⟨∅, ∅, 0, 0, []⟩

/-- A restarted authority knows no sessions and watches no process. -/
def Authority.restart (a : Authority Pid Digest) : Authority Pid Digest :=
  { a with sessions := ∅, monitors := ∅ }

def Authority.putSession (a : Authority Pid Digest) (id : String) (session : Session Pid Digest) :
    Authority Pid Digest :=
  { a with sessions := a.sessions.insert id session }

/-- `put_in` for one seat, of a session on record. -/
def Authority.putSeat (a : Authority Pid Digest) (id role : String) (seat : Seat Pid Digest) :
    Authority Pid Digest :=
  match a.sessions.lookup id with
  | some session => a.putSession id { session with seats := session.seats.insert role seat }
  | none => a

def validId (id : String) : Bool :=
  1 ≤ byteSize id ∧ byteSize id ≤ 128 ∧
    id.toList.all fun c => c.isAlphanum || c = '_' || c = '.' || c = '-'

/-- Between 1 and 16 roles, for distinct participants. -/
def validRoster (roster : FiniteMap String String) : Bool :=
  1 ≤ roster.size ∧ roster.size ≤ maxSeats ∧
    (roster.toList.all fun (role, subject) => validId role ∧ validId subject) ∧
    roster.size = (roster.toList.map Prod.snd).dedup.length

def authenticate (clock : Clock) : Option Identity → Except Error (String × Int)
  | some identity =>
    if validId identity.subject ∧ clock.system < identity.expiresAt then .ok (identity.subject, identity.expiresAt)
    else .error .unauthenticated
  | none => .error .unauthenticated

def Seat.vacant (subject : String) (ticketDigest : Digest) : Seat Pid Digest :=
  ⟨subject, ticketDigest, false, none, none, none, none, none, none⟩

/-- Add one role of the roster, with a fresh ticket. -/
def provisionSeat (secrets : Secrets Digest) :
    FiniteMap String (Seat Pid Digest) × FiniteMap String Grant × Nat → String × String →
      FiniteMap String (Seat Pid Digest) × FiniteMap String Grant × Nat
  | (seats, grants, drawn), (role, subject) =>
    let ticket := secrets.secret drawn
    (seats.insert role (.vacant subject (secrets.digest ticket)), grants.insert role ⟨subject, ticket⟩, drawn + 1)

def provision (secrets : Secrets Digest) (clock : Clock) (drawn : Nat) (id audience : String)
    (roster : FiniteMap String String) (ttl : Int) (revision : Nat) : Session Pid Digest × Provision × Nat :=
  let epoch := secrets.secret drawn
  let (seats, grants, drawn) := roster.toList.foldl (provisionSeat secrets) (∅, ∅, drawn + 1)
  let session := { audience, epoch, revision, expiresAt := clock.system + ttl, deadline := clock.start + ttl, ttl, seats }
  (session, ⟨protocol, id, audience, epoch, revision, session.expiresAt, grants⟩, drawn)

def tokenMatches [DecidableEq Digest] (secrets : Secrets Digest) (token : String) (expected : Option Digest) : Bool :=
  byteSize token = 43 ∧ some (secrets.digest token) = expected

def checkCredential [DecidableEq Digest] (secrets : Secrets Digest) (seat : Seat Pid Digest) :
    Credential → Except Error Unit
  | .ticket token =>
    if seat.used then .error .ticketConsumed
    else if tokenMatches secrets token (some seat.ticketDigest) then .ok ()
    else .error .invalidTicket
  | .rejoin token =>
    if seat.used then
      if tokenMatches secrets token seat.rejoinDigest then .ok () else .error .invalidRejoin
    else .error .invalidTicket
  | .other => .error .invalidTicket

def fetchSession (a : Authority Pid Digest) (id epoch : String) : Except Error (Session Pid Digest) :=
  match a.sessions.lookup id with
  | some session => if session.epoch = epoch then .ok session else .error .staleEpoch
  | none => .error .unknownSession

/-- The seat of a lease its process still holds. -/
def current [DecidableEq Pid] (clock : Clock) (a : Authority Pid Digest) (pid : Pid) :
    Option Lease → Except Error (Seat Pid Digest)
  | some lease =>
    match fetchSession a lease.sessionId lease.epoch with
    | .error reason => .error reason
    | .ok session =>
      match session.seats.lookup lease.role with
      | some seat =>
        if seat.pid = some pid ∧ seat.subject = lease.subject ∧ seat.leaseId = some lease.id ∧
            ∃ expiry ∈ seat.expiresAt, clock.system < expiry then .ok seat
        else .error .staleLease
      | none => .error .staleLease
  | none => .error .staleLease

def checkSequence (seq : Sequence) (last : Option Int) : Except Error Unit :=
  match seq with
  | .unsequenced => .ok ()
  | .integer seq =>
    if 0 ≤ seq ∧ seq ≤ maxSeq then
      if ∃ high ∈ last, seq ≤ high then .error .staleOrDuplicate else .ok ()
    else .error .invalidSequence
  | .other => .error .invalidSequence

def Seat.disconnected (seat : Seat Pid Digest) : Seat Pid Digest :=
  { seat with pid := none, monitor := none, leaseId := none, expiresAt := none }

def Authority.unwatch (a : Authority Pid Digest) (monitor : Option Nat) : Authority Pid Digest :=
  match monitor with
  | some ref => { a with monitors := a.monitors.erase ref }
  | none => a

/-- Take a seat from its process, and tell the process when it is fenced. The seat is on record
at every call. -/
def disconnect (id role : String) (fence : Bool) (a : Authority Pid Digest) : Authority Pid Digest :=
  match a.sessions.lookup id with
  | some session =>
    match session.seats.lookup role with
    | some seat =>
      let told := if fence then seat.pid.toList else []
      { (a.putSeat id role seat.disconnected).unwatch seat.monitor with fenced := told ++ a.fenced }
    | none => a
  | none => a

def revoke (id : String) (a : Authority Pid Digest) : Authority Pid Digest :=
  match a.sessions.lookup id with
  | none => a
  | some session =>
    let a := session.seats.keys.foldl (fun a role => disconnect id role true a) a
    { a with sessions := a.sessions.erase id }

def expire (clock : Clock) (a : Authority Pid Digest) : Authority Pid Digest :=
  a.sessions.toList.foldl (fun a (id, session) => if session.deadline ≤ clock.sweep then revoke id a else a) a

def create (secrets : Secrets Digest) (clock : Clock) (id audience : String) (roster : FiniteMap String String)
    (ttl : Int) (a : Authority Pid Digest) : Reply × Authority Pid Digest :=
  let a := expire clock a
  if ¬ validId id ∨ ¬ validId audience ∨ ¬ validRoster roster ∨ ¬ (1 ≤ ttl ∧ ttl ≤ maxLifetime) then
    (.error .invalidSession, a)
  else if (a.sessions.lookup id).isSome then (.error .sessionExists, a)
  else if maxSessions ≤ a.sessions.size then (.error .sessionCapacity, a)
  else
    let (session, provision, drawn) := provision secrets clock a.drawn id audience roster ttl 1
    (.provisioned provision, { a.putSession id session with drawn })

def rotate (secrets : Secrets Digest) (clock : Clock) (id : String) (a : Authority Pid Digest) :
    Reply × Authority Pid Digest :=
  let a := expire clock a
  match a.sessions.lookup id with
  | some old =>
    let roster := old.seats.mapValues Seat.subject
    let a := revoke id a
    let (session, provision, drawn) :=
      provision secrets clock a.drawn id old.audience roster old.ttl (old.revision + 1)
    (.provisioned provision, { a.putSession id session with drawn })
  | none => (.error .unknownSession, a)

def close (id : String) (a : Authority Pid Digest) : Reply × Authority Pid Digest := (.ok, revoke id a)

/-- The checks of a claim: who asks, for which seat, with which credential. -/
def claimChecks [DecidableEq Digest] (secrets : Secrets Digest) (clock : Clock) (identity : Option Identity)
    (id audience role epoch : String) (credential : Credential) (a : Authority Pid Digest) :
    Except Error (Int × Session Pid Digest × Seat Pid Digest) := do
  let (subject, expiresAt) ← authenticate clock identity
  let session ← fetchSession a id epoch
  match session.seats.lookup role with
  | some seat =>
    if session.audience = audience ∧ seat.subject = subject then
      checkCredential secrets seat credential
      pure (expiresAt, session, seat)
    else .error .scopeMismatch
  | none => .error .scopeMismatch

/-- Bind a seat to a process under a new lease. -/
def Seat.claimed (seat : Seat Pid Digest) (pid : Pid) (monitor : Nat) (leaseId : String) (expiresAt : Int)
    (rejoinDigest : Digest) : Seat Pid Digest :=
  { seat with
    used := true, pid := some pid, monitor := some monitor, leaseId := some leaseId, expiresAt := some expiresAt,
    rejoinDigest := some rejoinDigest }

def claim [DecidableEq Digest] (secrets : Secrets Digest) (clock : Clock) (pid : Pid) (identity : Option Identity)
    (id audience role epoch : String) (credential : Credential) (a : Authority Pid Digest) :
    Reply × Authority Pid Digest :=
  let a := expire clock a
  match claimChecks secrets clock identity id audience role epoch credential a with
  | .error reason => (.error reason, a)
  | .ok (expiresAt, session, seat) =>
    let a := disconnect id role true a
    let rejoin := secrets.secret a.drawn
    let leaseId := secrets.secret (a.drawn + 1)
    let seat := seat.claimed pid a.refs leaseId expiresAt (secrets.digest rejoin)
    (.claimed ⟨id, epoch, role, seat.subject, leaseId⟩
        ⟨protocol, id, epoch, session.revision, role, seat.subject, rejoin, "accepted", "burble-admission"⟩,
      { a.putSeat id role seat with
        monitors := a.monitors.insert a.refs (id, role, leaseId), refs := a.refs + 1, drawn := a.drawn + 2 })

/-- Run an effect for the holder of a lease and record its sequence number. -/
def effect [DecidableEq Pid] (clock : Clock) (pid : Pid) (lease : Option Lease) (seq : Sequence)
    (result : EffectResult) (a : Authority Pid Digest) : Reply × Authority Pid Digest :=
  let a := expire clock a
  match lease, current clock a pid lease with
  | _, .error reason => (.error reason, a)
  | none, .ok _ => (.error .staleLease, a)
  | some lease, .ok seat =>
    match checkSequence seq seat.lastSeq with
    | .error reason => (.error reason, a)
    | .ok () =>
      match result, seq with
      | .ok, .integer seq =>
        (.ok, a.putSeat lease.sessionId lease.role { seat with lastSeq := some seq })
      | .ok, _ => (.ok, a)
      | .error, _ => (.failed, a)
      | .crash, _ => (.unavailable, a.restart)

def leave [DecidableEq Pid] (clock : Clock) (pid : Pid) (lease : Option Lease) (a : Authority Pid Digest) :
    Reply × Authority Pid Digest :=
  match lease, current clock a pid lease with
  | _, .error reason => (.error reason, a)
  | none, .ok _ => (.error .staleLease, a)
  | some lease, .ok _ => (.ok, disconnect lease.sessionId lease.role false a)

/-- `{:DOWN, ref, :process, _, _}`, whether or not `ref` still is a monitor of the authority. -/
def down (ref : Nat) (a : Authority Pid Digest) : Reply × Authority Pid Digest :=
  match a.monitors.lookup ref with
  | some (id, role, leaseId) =>
    match a.sessions.lookup id with
    | some session =>
      match session.seats.lookup role with
      | some seat =>
        if seat.leaseId = some leaseId then (.silent, disconnect id role false a)
        else (.silent, a.unwatch ref)
      | none => (.silent, a.unwatch ref)
    | none => (.silent, a.unwatch ref)
  | none => (.silent, a)

/-- The calls and the messages the authority serves, one at a time. -/
inductive Request (Pid : Type)
  | create (id audience : String) (roster : FiniteMap String String) (ttl : Int)
  | rotate (id : String)
  | close (id : String)
  | claim (pid : Pid) (identity : Option Identity) (id audience role epoch : String) (credential : Credential)
  | effect (pid : Pid) (lease : Option Lease) (seq : Sequence) (result : EffectResult)
  | leave (pid : Pid) (lease : Option Lease)
  | down (ref : Nat)
  | expire
  deriving DecidableEq

def handle [DecidableEq Pid] [DecidableEq Digest] (secrets : Secrets Digest) (clock : Clock) (request : Request Pid)
    (a : Authority Pid Digest) : Reply × Authority Pid Digest :=
  match request with
  | .create id audience roster ttl => create secrets clock id audience roster ttl a
  | .rotate id => rotate secrets clock id a
  | .close id => close id a
  | .claim pid identity id audience role epoch credential =>
    claim secrets clock pid identity id audience role epoch credential a
  | .effect pid lease seq result => effect clock pid lease seq result a
  | .leave pid lease => leave clock pid lease a
  | .down ref => down ref a
  | .expire => (.silent, expire clock a)

end Burble.Sessions
