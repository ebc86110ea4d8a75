import Burble.Runs
import Burble.Groove.Server

namespace Burble.Groove

/-- What one handler does to the state, a change at a time, each to one session or to the queue. -/
inductive Change
  | queued
  | connected (handle : String)
  | expired (handle : String)
  | disconnected (handle : String)
  | refreshed (handle : String)
  | adjusted (handle : String)
  | dropped (handle : String)
  deriving DecidableEq

/-- An entry that is changed but stays that of the same session, under the same lease. -/
structure ConnInfo.SameSession (info after : ConnInfo) : Prop where
  leased : after.leased = info.leased
  peerId : after.peerId = info.peerId
  capabilities : after.matchedCapabilities = info.matchedCapabilities

def Server.setConnection (server : Server) (handle : String) (info : ConnInfo) : Server :=
  { server with connections := server.connections.insert handle info }

/-- A session is not past its deadline when the clock reads `now`. -/
def ConnInfo.AliveAt (info : ConnInfo) (now : Int) : Prop := ∀ leased ∈ info.leased, now < leased.deadline

section
variable (hashOf : AttestationBody → String) (moment : Moment)

inductive Changes (before : Server) : Change → Server → Prop
  | pushed (message : Message) : Changes before .queued (before.push message)
  | popped : Changes before .queued { before with queue := [], depth := 0 }
  | connected (n : Nat) (handle : String) (info : ConnInfo) (lease : Option Lease) (timestamp : String)
      (leased : info.leased = lease.map fun lease => ⟨lease, moment.read n + lease.ttlMs⟩) :
      Changes before (.connected handle)
        ((before.setConnection handle info).recordAttestation hashOf handle "groove:connect" info.peerId
          info.matchedCapabilities timestamp none)
  | expired (n : Nat) {handle : String} {info : ConnInfo} {leased : Leased}
      (found : before.connections.lookup handle = some info) (isLeased : info.leased = some leased)
      (late : leased.deadline ≤ moment.read n) :
      Changes before (.expired handle) (before.expireLease hashOf moment.stamp handle info)
  | disconnected (n : Nat) {handle : String} {info : ConnInfo} (found : before.connections.lookup handle = some info)
      (alive : info.AliveAt (moment.read n)) :
      Changes before (.disconnected handle) (before.finish hashOf "groove:disconnect" none moment.stamp handle info)
  | refreshed (n m : Nat) {handle : String} {info : ConnInfo} (found : before.connections.lookup handle = some info)
      (alive : info.AliveAt (moment.read n)) :
      Changes before (.refreshed handle)
        (before.setConnection handle
          (Server.refreshLease (moment.read m) { info with lastHeartbeat := moment.read m, state := .active }))
  | adjusted {handle : String} {info after : ConnInfo} (found : before.connections.lookup handle = some info)
      (same : info.SameSession after) :
      Changes before (.adjusted handle) (before.setConnection handle after)
  | dropped {handle : String} {info : ConnInfo} (found : before.connections.lookup handle = some info)
      (legacy : info.leased = none) :
      Changes before (.dropped handle) { before with connections := before.connections.erase handle }

end

/-- The session id that an operation draws for a connection. -/
def Op.draws : Op → Option String
  | .connect _ drawn => some drawn.handle
  | .voiceConnect _ _ _ _ _ drawn => some drawn.handle
  | _ => none

/-- The session that an operation is on, other than as one of all. -/
def Op.session : Op → Option String
  | .disconnect handle | .heartbeat handle => some handle
  | .voiceOperation _ handle .. => some handle
  | _ => none

def Op.isDisconnect : Op → Bool
  | .disconnect _ => true
  | .voiceOperation action .. => action = "disconnect"
  | _ => false

def Op.isQueueing : Op → Bool
  | .push _ | .pop => true
  | _ => false

/-- Which changes an operation with a reply may make. -/
def Op.Makes (op : Op) (reply : Reply) : Change → Prop
  | .queued => op.isQueueing = true
  | .connected handle => op.draws = some handle
  | .disconnected handle => op.session = some handle ∧ op.isDisconnect = true ∧ reply = .ok
  | .refreshed handle => op.session = some handle
  | .expired _ | .adjusted _ => op.isQueueing = false
  | .dropped _ => op = .checkHeartbeats

/-- The session that a change is to. -/
def Change.session : Change → Option String
  | .queued => none
  | .connected handle | .expired handle | .disconnected handle | .refreshed handle | .adjusted handle | .dropped handle =>
    some handle

section
variable {hashOf : AttestationBody → String} {moment : Moment} {before after : Server}

variable (hashOf moment) in
theorem expireIfElapsed_cases (n : Nat) (handle : String) (before : Server) :
    (before.expireIfElapsed hashOf (moment.read n) moment.stamp handle = before ∧
      ∀ info, before.connections.lookup handle = some info → info.AliveAt (moment.read n)) ∨
    ∃ info leased, before.connections.lookup handle = some info ∧ info.leased = some leased ∧
      leased.deadline ≤ moment.read n ∧
      before.expireIfElapsed hashOf (moment.read n) moment.stamp handle =
        before.expireLease hashOf moment.stamp handle info := by
  unfold Server.expireIfElapsed
  split
  next info found =>
    split
    next leased isLeased =>
      split
      next late => exact .inr ⟨info, leased, found, isLeased, late, rfl⟩
      next early =>
        refine .inl ⟨rfl, fun other same shown member => ?_⟩
        cases found.symm.trans same
        cases isLeased.symm.trans member
        exact Int.not_le.mp early
    next unleased =>
      refine .inl ⟨rfl, fun other same shown member => ?_⟩
      cases found.symm.trans same
      cases unleased.symm.trans member
  next absent => exact .inl ⟨rfl, fun other same => by cases absent.symm.trans same⟩

variable (hashOf moment) in
theorem expireIfElapsed_changes (n : Nat) (handle : String) (before : Server) :
    ∃ changes, Run (Changes hashOf moment) before changes
      (before.expireIfElapsed hashOf (moment.read n) moment.stamp handle) ∧ ∀ change ∈ changes, change = .expired handle := by
  rcases expireIfElapsed_cases hashOf moment n handle before with
    ⟨same, _⟩ | ⟨info, leased, found, isLeased, late, same⟩
  · rw [same]
    exact ⟨[], .start, by simp⟩
  · rw [same]
    exact ⟨[.expired handle], .single (.expired n found isLeased late), by simp⟩

/-- After the check, the session is alive or gone. -/
theorem expireIfElapsed_alive (n : Nat) {handle : String} {info : ConnInfo}
    (found : (before.expireIfElapsed hashOf (moment.read n) moment.stamp handle).connections.lookup handle = some info) :
    info.AliveAt (moment.read n) := by
  rcases expireIfElapsed_cases hashOf moment n handle before with
    ⟨same, alive⟩ | ⟨_, _, _, _, _, same⟩
  · rw [same] at found
    exact alive info found
  · rw [same] at found
    simp [Server.expireLease, Server.finish, Server.recordAttestation] at found

theorem disconnectSession_changes {n : Nat} {handle : String} {reply : Reply}
    (served : before.disconnectSession hashOf (moment.read n) moment.stamp handle = (reply, after)) :
    ∃ changes, Run (Changes hashOf moment) before changes after ∧
      ∀ change ∈ changes, change = .expired handle ∨ change = .disconnected handle ∧ reply = .ok := by
  obtain ⟨changes, run, only⟩ := expireIfElapsed_changes hashOf moment n handle before
  unfold Server.disconnectSession at served
  simp only at served
  split at served
  next =>
    cases served
    exact ⟨changes, run, fun change member => .inl (only change member)⟩
  next info found =>
    cases served
    refine ⟨changes ++ [.disconnected handle], run.next (.disconnected n found (expireIfElapsed_alive n found)), ?_⟩
    intro change member
    rcases List.mem_append.mp member with before | last
    · exact .inl (only change before)
    · exact .inr ⟨List.mem_singleton.mp last, rfl⟩

/-- A heartbeat expires the session, or refreshes it last of all. -/
theorem heartbeatSession_changes {n m : Nat} {handle : String} {reply : Reply}
    (served : before.heartbeatSession hashOf (moment.read n) (moment.read m) moment.stamp handle = (reply, after)) :
    ∃ changes last, Run (Changes hashOf moment) before (changes ++ last) after ∧ (∀ change ∈ changes, change = .expired handle) ∧
      (last = [] ∨ last = [.refreshed handle]) := by
  obtain ⟨changes, run, only⟩ := expireIfElapsed_changes hashOf moment n handle before
  unfold Server.heartbeatSession at served
  simp only at served
  split at served
  next =>
    cases served
    exact ⟨changes, [], by simpa using run, only, .inl rfl⟩
  next info found =>
    cases served
    exact ⟨changes, [.refreshed handle], run.next (.refreshed n m found (expireIfElapsed_alive n found)), only, .inr rfl⟩

/-- A change is to no other session. -/
theorem Changes.elsewhere {change : Change} (changes : Changes hashOf moment before change after) {other : String}
    (elsewhere : change.session ≠ some other) : after.connections.lookup other = before.connections.lookup other := by
  cases changes with
  | pushed message =>
    unfold Server.push
    split <;> rfl
  | popped => rfl
  | connected n handle =>
    exact AList.lookup_insert_ne fun same => elsewhere (congrArg some same.symm)
  | expired n found isLeased late => exact AList.lookup_erase_ne fun same => elsewhere (congrArg some same.symm)
  | disconnected n found alive => exact AList.lookup_erase_ne fun same => elsewhere (congrArg some same.symm)
  | refreshed n m found alive => exact AList.lookup_insert_ne fun same => elsewhere (congrArg some same.symm)
  | adjusted found same => exact AList.lookup_insert_ne fun same => elsewhere (congrArg some same.symm)
  | dropped found legacy => exact AList.lookup_erase_ne fun same => elsewhere (congrArg some same.symm)

theorem run_elsewhere {changes : List Change} (run : Run (Changes hashOf moment) before changes after) {other : String}
    (elsewhere : ∀ change ∈ changes, change.session ≠ some other) :
    after.connections.lookup other = before.connections.lookup other := by
  induction run with
  | start => rfl
  | next _ taken ih =>
    rw [taken.elsewhere (elsewhere _ (List.mem_append_right _ List.mem_cons_self))]
    exact ih fun change member => elsewhere change (List.mem_append_left _ member)

/-- Three windows are missed from two windows past the expiry on. -/
theorem missed_iff (leased : Leased) (now : Int) :
    leaseMaxMissedWindows ≤ leased.missed now ↔ leased.expiresAt + 2 * leased.lease.ttlMs ≤ now := by
  have positive := leased.lease.positive
  unfold Leased.missed leaseMaxMissedWindows
  by_cases early : now < leased.expiresAt
  · rw [if_pos early]
    omega
  · rw [if_neg early]
    have windows := Int.le_ediv_iff_mul_le (a := 2) (b := now - leased.expiresAt) positive
    omega

/-- What a sweep does to one session: it expires it, marks it as degraded, or drops it. -/
def Change.OfSweep (handle : String) (change : Change) : Prop :=
  change = .expired handle ∨ change = .adjusted handle ∨ change = .dropped handle

variable (hashOf moment) in
theorem sweepConnection_changes (n : Nat) {handle : String} {info : ConnInfo}
    (found : before.connections.lookup handle = some info) :
    ∃ changes, Run (Changes hashOf moment) before changes
      (before.sweepConnection hashOf (moment.read n) moment.stamp (handle, info)) ∧
      ∀ change ∈ changes, change.OfSweep handle := by
  have expires {leased : Leased} (isLeased : info.leased = some leased) (late : leased.deadline ≤ moment.read n) :
      ∃ changes, Run (Changes hashOf moment) before changes (before.expireLease hashOf moment.stamp handle info) ∧
        ∀ change ∈ changes, change.OfSweep handle :=
    ⟨[.expired handle], .single (.expired n found isLeased late), by simp [Change.OfSweep]⟩
  have adjusts {marked : ConnInfo} (same : info.SameSession marked) :
      ∃ changes, Run (Changes hashOf moment) before changes (before.setConnection handle marked) ∧
        ∀ change ∈ changes, change.OfSweep handle :=
    ⟨[.adjusted handle], .single (.adjusted found same), by simp [Change.OfSweep]⟩
  have quiet : ∃ changes, Run (Changes hashOf moment) before changes before ∧ ∀ change ∈ changes, change.OfSweep handle :=
    ⟨[], .start, by simp⟩
  unfold Server.sweepConnection
  simp only
  split
  next leased isLeased =>
    split
    next soft =>
      split
      next late => exact expires isLeased (by simpa only [Leased.deadline, soft] using late)
      next => exact quiet
    next hard =>
      split
      next => exact quiet
      next =>
        split
        next missed => exact expires isLeased (by simpa only [Leased.deadline, hard] using (missed_iff leased _).mp missed)
        next => exact adjusts ⟨rfl, rfl, rfl⟩
  next legacy =>
    split
    · split
      · exact ⟨[.dropped handle], .single (.dropped found legacy), by simp [Change.OfSweep]⟩
      · exact adjusts ⟨rfl, rfl, rfl⟩
    · exact quiet

variable (hashOf moment) in
/-- The sessions of a sweep are as they were when it began until it gets to them. -/
theorem sweep_changes (n : Nat) (before : Server) :
    ∃ changes, Run (Changes hashOf moment) before changes (before.sweep hashOf (moment.read n) moment.stamp) ∧
      ∀ change ∈ changes, ∃ handle, change.OfSweep handle := by
  have swept : ∀ (entries : List (String × ConnInfo)) (server : Server), (entries.map Prod.fst).Nodup →
      (∀ entry ∈ entries, server.connections.lookup entry.1 = some entry.2) →
      ∃ changes, Run (Changes hashOf moment) server changes
        (entries.foldl (Server.sweepConnection hashOf (moment.read n) moment.stamp) server) ∧
        ∀ change ∈ changes, ∃ handle, change.OfSweep handle := by
    intro entries
    induction entries with
    | nil => exact fun server _ _ => ⟨[], .start, by simp⟩
    | cons entry rest ih =>
      intro server nodup found
      obtain ⟨apart, nodup⟩ := List.nodup_cons.mp nodup
      obtain ⟨changes, run, only⟩ := sweepConnection_changes hashOf moment n
        (found entry List.mem_cons_self)
      have kept : ∀ other ∈ rest, (server.sweepConnection hashOf (moment.read n) moment.stamp entry).connections.lookup
          other.1 = some other.2 := by
        intro other member
        rw [run_elsewhere run, found other (List.mem_cons_of_mem _ member)]
        rintro change made same
        have isHandle : change.session = some entry.1 := by
          rcases only change made with rfl | rfl | rfl <;> rfl
        have equal : entry.1 = other.1 := Option.some.inj (isHandle.symm.trans same)
        exact apart (equal ▸ List.mem_map_of_mem member)
      obtain ⟨later, runLater, onlyLater⟩ := ih _ nodup kept
      refine ⟨changes ++ later, run.append runLater, fun change member => ?_⟩
      rcases List.mem_append.mp member with first | second
      · exact ⟨entry.1, only change first⟩
      · exact onlyLater change second
  exact swept before.connections.toList before (FiniteMap.distinct_keys before.connections)
    fun entry member => FiniteMap.mem_toList.mp member

/-- What a delivery does to a session: it expires it, or adds to its inbox. -/
def Change.OfDelivery (change : Change) : Prop := ∃ handle, change = .expired handle ∨ change = .adjusted handle

variable (hashOf moment) in
theorem deliverTo_changes (n : Nat) (delivery : Delivery) (before : Server) (handle : String) :
    ∃ changes, Run (Changes hashOf moment) before changes
      (before.deliverTo hashOf (moment.read n) moment.stamp delivery handle) ∧ ∀ change ∈ changes, change.OfDelivery := by
  obtain ⟨changes, run, only⟩ := expireIfElapsed_changes hashOf moment n handle before
  have expired : ∀ change ∈ changes, change.OfDelivery := fun change member => ⟨handle, .inl (only change member)⟩
  unfold Server.deliverTo
  simp only
  split
  next info found =>
    split
    · have same : info.SameSession { info with voiceInbox := info.voiceInbox ++ [delivery.bytes] } := ⟨rfl, rfl, rfl⟩
      refine ⟨changes ++ [.adjusted handle], run.next (.adjusted found same), fun change member => ?_⟩
      rcases List.mem_append.mp member with before | last
      · exact expired change before
      · exact ⟨handle, .inr (List.mem_singleton.mp last)⟩
    · exact ⟨changes, run, expired⟩
  next => exact ⟨changes, run, expired⟩

variable (hashOf moment) in
theorem voiceDelivery_changes (delivery : Delivery) (before : Server) :
    ∃ changes, Run (Changes hashOf moment) before changes (before.voiceDelivery hashOf moment delivery) ∧
      ∀ change ∈ changes, change.OfDelivery := by
  unfold Server.voiceDelivery
  generalize before.connections.keys.zipIdx = entries
  induction entries generalizing before with
  | nil => exact ⟨[], .start, by simp⟩
  | cons entry rest ih =>
    obtain ⟨changes, run, only⟩ := deliverTo_changes hashOf moment entry.2 delivery before entry.1
    obtain ⟨later, runLater, onlyLater⟩ := ih (before.deliverTo hashOf (moment.read entry.2) moment.stamp delivery entry.1)
    refine ⟨changes ++ later, run.append runLater, fun change member => ?_⟩
    rcases List.mem_append.mp member with first | second
    · exact only change first
    · exact onlyLater change second

theorem accept_changes {n : Nat} {timestamp : String} {drawn : Drawn} {peerId : String} {consumes : List String} {rawLease : Json}
    {reply : Reply}
    (served : before.accept hashOf (moment.read n) timestamp drawn peerId consumes rawLease = (reply, after)) :
    (after = before ∧ ∃ reason, reply = .error reason) ∨
      Changes hashOf moment before (.connected drawn.handle) after ∧ ∃ lease, reply = .connected drawn.handle lease := by
  unfold Server.accept at served
  simp only at served
  split at served
  · cases served
    exact .inl ⟨rfl, _, rfl⟩
  · split at served
    · cases served
      exact .inl ⟨rfl, _, rfl⟩
    · split at served
      · cases served
        exact .inl ⟨rfl, _, rfl⟩
      next lease _ =>
        cases served
        exact .inr ⟨.connected n drawn.handle _ lease timestamp rfl, lease, rfl⟩

/-- A voice session is a session that is then given its scope. -/
theorem voiceConnect_changes {auth : Auth} {scope : Scope} {lease : Json} {requestDeadline : Int} {room : RoomAnswer}
    {drawn : Drawn} {reply : Reply}
    (served : before.voiceConnect hashOf moment auth scope lease requestDeadline room drawn = (reply, after)) :
    (after = before ∧ ∃ reason, reply = .error reason) ∨ ∃ changes, (changes = [] ∨ changes = [.adjusted drawn.handle]) ∧
      Run (Changes hashOf moment) before (.connected drawn.handle :: changes) after := by
  unfold Server.voiceConnect at served
  split at served
  · cases served
    exact .inl ⟨rfl, _, rfl⟩
  · split at served
    next handle accepted next joined =>
      rcases accept_changes joined with ⟨_, _, none⟩ | ⟨connects, _, same⟩
      · cases none
      · cases same
        cases served
        split
        next info found =>
          have same : info.SameSession { info with voiceScope := some scope } := ⟨rfl, rfl, rfl⟩
          exact .inr ⟨[.adjusted drawn.handle], .inr rfl, (Run.single connects).next (.adjusted found same)⟩
        next => exact .inr ⟨[], .inl rfl, .single connects⟩
    next next joined =>
      cases served
      rcases accept_changes joined with ⟨same, _⟩ | ⟨connects, _⟩
      · exact .inl ⟨same, _, rfl⟩
      · exact .inr ⟨[], .inl rfl, .single connects⟩

/-- The changes of one operation: each is one that the operation makes, and a refresh comes last. -/
def Traced (hashOf : AttestationBody → String) (moment : Moment) (op : Op) (reply : Reply) (before after : Server) : Prop :=
  ∃ changes last, Run (Changes hashOf moment) before (changes ++ last) after ∧
    (∀ change ∈ changes ++ last, op.Makes reply change) ∧ (∀ handle, .refreshed handle ∉ changes) ∧ last.length ≤ 1

theorem Traced.of_run {op : Op} {reply : Reply} {changes : List Change} (run : Run (Changes hashOf moment) before changes after)
    (makes : ∀ change ∈ changes, op.Makes reply change) (plain : ∀ handle, .refreshed handle ∉ changes) :
    Traced hashOf moment op reply before after :=
  ⟨changes, [], by simpa using run, by simpa using makes, plain, by simp⟩

theorem Traced.quiet (op : Op) (reply : Reply) : Traced hashOf moment op reply before before :=
  .of_run .start (by simp) (by simp)

theorem voiceOperation_traced {action handle : String} {auth : Auth} {peer : String} {bytes : List UInt8}
    {requestDeadline : Int} {room : RoomAnswer} {unique : Int} {reply : Reply} {sent : Option Delivery}
    (served : before.voiceOperation hashOf moment action handle auth peer bytes requestDeadline room unique =
      (reply, after, sent)) :
    Traced hashOf moment (.voiceOperation action handle auth peer bytes requestDeadline room unique) reply before after := by
  obtain ⟨first, runFirst, onlyFirst⟩ := expireIfElapsed_changes hashOf moment 0 handle before
  have expires (reply : Reply) (change : Change) (member : change ∈ first) :
      (Op.voiceOperation action handle auth peer bytes requestDeadline room unique).Makes reply change := by
    rw [onlyFirst change member]
    rfl
  have plain (other : String) : .refreshed other ∉ first := fun member => by cases onlyFirst _ member
  have stays (reply : Reply) : Traced hashOf moment (.voiceOperation action handle auth peer bytes requestDeadline room unique)
      reply before (before.expireIfElapsed hashOf (moment.read 0) moment.stamp handle) := .of_run runFirst (expires reply) plain
  unfold Server.voiceOperation at served
  simp only at served
  split at served
  · cases served
    exact stays _
  next info found =>
    split at served
    · cases served
      exact stays _
    next scope _ =>
      split at served
      · split at served
        · cases served
          exact stays _
        · split at served
          next heartbeat =>
            -- a heartbeat
            generalize beats : Server.heartbeatSession hashOf _ _ _ _ _ = result at served
            obtain ⟨_, _⟩ := result
            cases served
            obtain ⟨changes, last, run, only, isLast⟩ := heartbeatSession_changes beats
            refine ⟨first ++ changes, last, by simpa only [List.append_assoc] using runFirst.append run, ?_, ?_, ?_⟩
            · intro change member
              rcases List.mem_append.mp member with front | back
              · rcases List.mem_append.mp front with one | two
                · exact expires _ change one
                · rw [only change two]
                  rfl
              · rcases isLast with rfl | rfl
                · exact absurd back List.not_mem_nil
                · rw [List.mem_singleton.mp back]
                  rfl
            · intro other member
              rcases List.mem_append.mp member with one | two
              · exact plain other one
              · cases only _ two
            · rcases isLast with rfl | rfl <;> simp
          next =>
            split at served
            next isDisconnect =>
              generalize ends : Server.disconnectSession hashOf _ _ _ _ = result at served
              obtain ⟨_, _⟩ := result
              cases served
              obtain ⟨changes, run, only⟩ := disconnectSession_changes ends
              refine .of_run (runFirst.append run) (fun change member => ?_) fun other member => ?_
              · rcases List.mem_append.mp member with one | two
                · exact expires _ change one
                · rcases only change two with rfl | ⟨rfl, isOk⟩
                  · rfl
                  · exact ⟨rfl, by simpa [Op.isDisconnect] using isDisconnect, isOk⟩
              · rcases List.mem_append.mp member with one | two
                · exact plain other one
                · rcases only _ two with same | ⟨same, _⟩ <;> cases same
            next =>
              split at served
              · split at served
                · cases served
                  exact stays _
                next frame rest _ =>
                  cases served
                  have same : info.SameSession { info with voiceInbox := rest } := ⟨rfl, rfl, rfl⟩
                  refine .of_run (runFirst.next (.adjusted found same)) (fun change member => ?_) fun other member => ?_
                  · rcases List.mem_append.mp member with one | two
                    · exact expires _ change one
                    · rw [List.mem_singleton.mp two]
                      rfl
                  · rcases List.mem_append.mp member with one | two
                    · exact plain other one
                    · cases List.mem_singleton.mp two
              · cases served
                exact stays _
      · cases served
        exact stays _

section Handled
variable {reply : Reply} {sent : Option Delivery} {handle : String}

/-- A peer connects, or it is refused. -/
theorem handle_connect {manifest : JsonMap} {drawn : Drawn}
    (served : before.handle hashOf moment (.connect manifest drawn) = (reply, after, sent)) :
    (after = before ∧ ∃ reason, reply = .error reason) ∨
      Changes hashOf moment before (.connected drawn.handle) after ∧ ∃ lease, reply = .connected drawn.handle lease := by
  simp only [Server.handle] at served
  split at served
  next peerId consumes _ =>
    generalize accepts : Server.accept hashOf _ _ _ _ _ _ _ = result at served
    obtain ⟨_, _⟩ := result
    cases served
    exact accept_changes accepts
  next =>
    cases served
    exact .inl ⟨rfl, _, rfl⟩

theorem handle_disconnect (served : before.handle hashOf moment (.disconnect handle) = (reply, after, sent)) :
    (after = before ∧ reply = .error .notFound) ∨
      before.disconnectSession hashOf (moment.read 0) moment.stamp handle = (reply, after) := by
  simp only [Server.handle] at served
  split at served
  · cases served
    exact .inl ⟨rfl, rfl⟩
  · cases served
    exact .inr rfl

theorem handle_heartbeat (served : before.handle hashOf moment (.heartbeat handle) = (reply, after, sent)) :
    (after = before ∧ reply = .error .notFound) ∨
      before.heartbeatSession hashOf (moment.read 0) (moment.read 1) moment.stamp handle = (reply, after) := by
  simp only [Server.handle] at served
  split at served
  · cases served
    exact .inl ⟨rfl, rfl⟩
  · cases served
    exact .inr rfl

end Handled

/-- What the handler of each operation does, a change at a time. -/
theorem handle_traced {op : Op} {reply : Reply} {sent : Option Delivery}
    (served : before.handle hashOf moment op = (reply, after, sent)) : Traced hashOf moment op reply before after := by
  cases op with
  | push message =>
    cases served
    exact .of_run (.single (.pushed message)) (by simp [Op.Makes, Op.isQueueing]) (by simp)
  | pop =>
    cases served
    exact .of_run (.single .popped) (by simp [Op.Makes, Op.isQueueing]) (by simp)
  | depth =>
    cases served
    exact .quiet _ _
  | attestations =>
    cases served
    exact .quiet _ _
  | connect manifest drawn =>
    rcases handle_connect served with ⟨rfl, _⟩ | ⟨connects, _⟩
    · exact .quiet _ _
    · exact .of_run (.single connects) (by simp [Op.Makes, Op.draws]) (by simp)
  | disconnect handle =>
    rcases handle_disconnect served with ⟨rfl, _⟩ | ends
    · exact .quiet _ _
    · obtain ⟨changes, run, only⟩ := disconnectSession_changes ends
      refine .of_run run (fun change member => ?_) fun other member => ?_
      · rcases only change member with rfl | ⟨rfl, isOk⟩
        · rfl
        · exact ⟨rfl, rfl, isOk⟩
      · rcases only _ member with same | ⟨same, _⟩ <;> cases same
  | heartbeat handle =>
    rcases handle_heartbeat served with ⟨rfl, _⟩ | beats
    · exact .quiet _ _
    · obtain ⟨changes, last, run, only, isLast⟩ := heartbeatSession_changes beats
      refine ⟨changes, last, run, ?_, ?_, ?_⟩
      · intro change member
        rcases List.mem_append.mp member with front | back
        · rw [only change front]
          rfl
        · rcases isLast with rfl | rfl
          · exact absurd back List.not_mem_nil
          · rw [List.mem_singleton.mp back]
            rfl
      · intro other member
        cases only _ member
      · rcases isLast with rfl | rfl <;> simp
  | voiceConnect auth scope lease requestDeadline room drawn =>
    simp only [Server.handle] at served
    generalize connects : Server.voiceConnect hashOf _ _ _ _ _ _ _ _ = result at served
    obtain ⟨_, _⟩ := result
    cases served
    rcases voiceConnect_changes connects with ⟨rfl, _⟩ | ⟨changes, isScope, run⟩
    · exact .quiet _ _
    · refine .of_run run ?_ ?_
      · rcases isScope with rfl | rfl <;> simp [Op.Makes, Op.draws, Op.isQueueing]
      · rcases isScope with rfl | rfl <;> simp
  | voiceOperation => exact voiceOperation_traced served
  | checkHeartbeats =>
    cases served
    obtain ⟨changes, run, only⟩ := sweep_changes hashOf moment 0 before
    refine .of_run run (fun change member => ?_) fun other member => ?_
    · obtain ⟨handle, rfl | rfl | rfl⟩ := only change member <;> rfl
    · obtain ⟨handle, same | same | same⟩ := only _ member <;> cases same
  | voiceDelivery delivery =>
    cases served
    obtain ⟨changes, run, only⟩ := voiceDelivery_changes hashOf moment delivery before
    refine .of_run run (fun change member => ?_) fun other member => ?_
    · obtain ⟨handle, rfl | rfl⟩ := only change member <;> rfl
    · obtain ⟨handle, same | same⟩ := only _ member <;> cases same
  | other =>
    cases served
    exact .quiet _ _

/-- An operation that draws a session id fails, or connects a session under it. -/
theorem handle_draws {op : Op} {reply : Reply} {sent : Option Delivery}
    (served : before.handle hashOf moment op = (reply, after, sent)) {handle : String} (draws : op.draws = some handle) :
    (after = before ∧ ∃ reason, reply = .error reason) ∨ ∃ changes, (changes = [] ∨ changes = [.adjusted handle]) ∧
      Run (Changes hashOf moment) before (.connected handle :: changes) after := by
  cases op with
  | connect manifest drawn =>
    cases draws
    rcases handle_connect served with same | ⟨connects, _⟩
    · exact .inl same
    · exact .inr ⟨[], .inl rfl, .single connects⟩
  | voiceConnect auth scope lease requestDeadline room drawn =>
    cases draws
    simp only [Server.handle] at served
    generalize connects : Server.voiceConnect hashOf _ _ _ _ _ _ _ _ = result at served
    obtain ⟨_, _⟩ := result
    cases served
    exact voiceConnect_changes connects
  | _ => cases draws

theorem disconnectSession_reply {now : Int} {stamp : String → String} {handle : String} {reply : Reply}
    (served : before.disconnectSession hashOf now stamp handle = (reply, after)) : reply = .ok ∨ reply = .error .notFound := by
  unfold Server.disconnectSession at served
  simp only at served
  split at served
  · cases served
    exact .inr rfl
  · cases served
    exact .inl rfl

theorem heartbeatSession_reply {elapsed now : Int} {stamp : String → String} {handle : String} {reply : Reply}
    (served : before.heartbeatSession hashOf elapsed now stamp handle = (reply, after)) :
    reply = .ok ∨ ∃ reason, reply = .error reason := by
  unfold Server.heartbeatSession at served
  simp only at served
  split at served
  · cases served
    exact .inr ⟨_, rfl⟩
  · cases served
    split
    · split
      · exact .inr ⟨_, rfl⟩
      · exact .inl rfl
    · exact .inl rfl

/-- Only an operation that draws a session id is answered with a session. -/
theorem handle_connected {op : Op} {sent : Option Delivery} {handle : String} {lease : Option Lease}
    (served : before.handle hashOf moment op = (.connected handle lease, after, sent)) : op.draws = some handle := by
  cases op with
  | connect manifest drawn =>
    rcases handle_connect served with ⟨_, _, none⟩ | ⟨_, _, same⟩
    · cases none
    · cases same
      rfl
  | voiceConnect auth scope lease requestDeadline room drawn =>
    simp only [Server.handle, Server.voiceConnect] at served
    split at served
    · cases served
    · split at served
      next joined =>
        cases served
        rcases accept_changes joined with ⟨_, _, none⟩ | ⟨_, _, same⟩
        · cases none
        · cases same
          rfl
      next => cases served
  | disconnect handle =>
    rcases handle_disconnect served with ⟨_, none⟩ | ends
    · cases none
    · rcases disconnectSession_reply ends with same | same <;> cases same
  | heartbeat handle =>
    rcases handle_heartbeat served with ⟨_, none⟩ | beats
    · cases none
    · rcases heartbeatSession_reply beats with same | ⟨_, same⟩ <;> cases same
  | voiceOperation action handle auth peer bytes requestDeadline room unique =>
    simp only [Server.handle, Server.voiceOperation] at served
    split at served
    · cases served
    · split at served
      · cases served
      · split at served
        · split at served
          · cases served
          · split at served
            · generalize beats : Server.heartbeatSession hashOf _ _ _ _ _ = result at served
              obtain ⟨_, _⟩ := result
              cases served
              rcases heartbeatSession_reply beats with same | ⟨_, same⟩ <;> cases same
            · split at served
              · generalize ends : Server.disconnectSession hashOf _ _ _ _ = result at served
                obtain ⟨_, _⟩ := result
                cases served
                rcases disconnectSession_reply ends with same | same <;> cases same
              · split at served
                · split at served <;> cases served
                · cases served
        · cases served
  | _ => cases served

end
end Burble.Groove
