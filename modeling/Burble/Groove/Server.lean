import Burble.Json
import Burble.Groove.GrooveVoice

namespace Burble.Groove

def serviceId : String := "burble"
def serviceVersion : String := "1.0.0"
def maxQueueDepth : Nat := 1000
def maxConnections : Nat := 1024
def maxAttestationDepth : Nat := 1000
def heartbeatTimeoutMs : Int := 15000
def leaseMaxMissedWindows : Int := 3
def maxInbox : Nat := 4

/-- The capabilities of the manifest. -/
def offers : List String := ["voice", "text", "presence", "spatial_audio", "recording", "tts", "stt"]

inductive LeaseMode
  | soft
  | hard
  deriving DecidableEq

/-- A lease as it was accepted. -/
structure Lease where
  mode : LeaseMode
  ttlMs : Int
  positive : 0 < ttlMs
  deriving DecidableEq

/-- A lease with its `lease_expires_at`. -/
structure Leased where
  lease : Lease
  expiresAt : Int
  deriving DecidableEq

/-- A hard lease outlives its expiry by two further windows. -/
def Leased.deadline (leased : Leased) : Int :=
  match leased.lease.mode with
  | .soft => leased.expiresAt
  | .hard => leased.expiresAt + 2 * leased.lease.ttlMs

/-- The whole windows missed since a hard lease ran out. -/
def Leased.missed (leased : Leased) (now : Int) : Int :=
  if now < leased.expiresAt then 0 else (now - leased.expiresAt) / leased.lease.ttlMs + 1

structure Scope where
  subject : String
  room : String
  peer : String
  deriving DecidableEq

structure Auth where
  subject : String
  expires : Int
  deriving DecidableEq

inductive ConnState
  | connected
  | active
  | degraded
  deriving DecidableEq

structure ConnInfo where
  peerId : String
  state : ConnState
  connectedAt : Int
  lastHeartbeat : Int
  matchedCapabilities : List String
  leased : Option Leased
  missedWindows : Int
  voiceScope : Option Scope
  voiceInbox : List (List UInt8)
  voiceEpoch : Int
  deriving DecidableEq

/-- The key of a queued message: an atom or a text. -/
inductive Key
  | atom (name : String)
  | text (name : String)
  deriving DecidableEq

abbrev Message := FiniteMap Key Json

/-- An attestation without its own hash. -/
structure AttestationBody where
  event : String
  provider : String × String
  consumer : String
  capabilities : List String
  timestamp : String
  prevHash : String
  residue : Option Nat
  deriving DecidableEq

structure Attestation where
  body : AttestationBody
  hash : String
  deriving DecidableEq

/-- The server's state, and every attestation it ever made with the session that it is about.
Attestations are listed newest first. -/
structure Server where
  queue : List Message
  depth : Nat
  connections : FiniteMap String ConnInfo
  attestations : List Attestation
  attested : List (String × Attestation)

/-- Why a call is refused. The first four are texts, the others atoms. -/
inductive Reason
  | connectionCapacityReached
  | noMatchingCapabilities
  | invalidLease
  | invalidManifest
  | notFound
  | softLease
  | forbidden
  | unauthorized
  | invalidRequest
  | invalidFrame
  | capacity
  deriving DecidableEq

inductive Reply
  | ok
  | messages (queue : List Message)
  | depth (depth : Nat)
  | attestations (oldestFirst : List Attestation)
  | connected (handle : String) (lease : Option Lease)
  | frame (bytes : List UInt8)
  | error (reason : Reason)
  /-- a message that is not a call -/
  | noreply

/-- A frame on its way to the inboxes of a peer. -/
structure Delivery where
  room : String
  sender : String
  recipient : String
  epoch : Int
  bytes : List UInt8
  deriving DecidableEq

/-- What the clocks read while one message is handled: the monotonic clock, in the order of the
reads, the system clock, and the text of the time at which a session is attested. -/
structure Moment where
  start : Int
  stop : Int
  read : Nat → Int
  within : ∀ n, start ≤ read n ∧ read n ≤ stop
  system : Int
  stamp : String → String

/-- The session id that a connection draws, and its unique integer. -/
structure Drawn where
  handle : String
  epoch : Int

/-- How the room answers `with_voice_members`. -/
inductive RoomAnswer
  | members
  | notMembers
  | roomNotFound
  | exit
  deriving DecidableEq

/-- The calls and the messages that the server handles, one at a time. `unique` is the unique integer
that a frame is sent with. -/
inductive Op
  | push (message : Message)
  | pop
  | depth
  | attestations
  | connect (manifest : JsonMap) (drawn : Drawn)
  | disconnect (handle : String)
  | heartbeat (handle : String)
  | voiceConnect (auth : Auth) (scope : Scope) (lease : Json) (requestDeadline : Int) (room : RoomAnswer) (drawn : Drawn)
  | voiceOperation (action handle : String) (auth : Auth) (peer : String) (bytes : List UInt8) (requestDeadline : Int)
      (room : RoomAnswer) (unique : Int)
  | checkHeartbeats
  | voiceDelivery (delivery : Delivery)
  | other

def genesisHash : String := "sha256:" ++ String.ofList (List.replicate 64 '0')

def Json.isText (value : Json) (text : String) : Bool :=
  match value with
  | .string other => other = text
  | _ => false

namespace Message

/-- The handles that a message names, under any of the keys for it. -/
def handles (message : Message) : List Json :=
  [Key.atom "session_id", .text "session_id", .atom "handle", .text "handle"].filterMap message.lookup

/-- Whether a message is attributed to a session of a peer. -/
def fromPeer (message : Message) (handle peerId : String) : Bool :=
  if message.handles.isEmpty then
    [Key.atom "from", .text "from"].any fun key =>
      (message.lookup key).any fun value => Json.isText value handle || Json.isText value peerId
  else message.handles.any (Json.isText · handle)

end Message

def parseLease : Json → Except Reason (Option Lease)
  | .null => .ok none
  | .object entries =>
    match (Json.toMap entries).lookup "mode", (Json.toMap entries).lookup "ttl_ms" with
    | some (.string mode), some (.integer ttl) =>
      if positive : 0 < ttl then
        if mode = "soft" then .ok (some ⟨.soft, ttl, positive⟩)
        else if mode = "hard" then .ok (some ⟨.hard, ttl, positive⟩)
        else .error .invalidLease
      else .error .invalidLease
    | _, _ => .error .invalidLease
  | _ => .error .invalidLease

/-- A text of at least one and at most so many bytes. -/
def boundedText (most : Nat) : Json → Option String
  | .string text => if 1 ≤ (utf8 text).length ∧ (utf8 text).length ≤ most then some text else none
  | _ => none

/-- The service id of a valid manifest and what it consumes. -/
def validManifest (manifest : JsonMap) : Option (String × List String) := do
  let peerId ← boundedText 128 ((manifest.lookup "service_id").getD (.string "unknown"))
  match (manifest.lookup "consumes").getD (.array []) with
  | .array items =>
    if items.length ≤ 32 then
      let consumes ← items.mapM (boundedText 64)
      return (peerId, consumes)
    else none
  | _ => none

namespace Server

def init : Server := ⟨[], 0, ∅, [], []⟩

section Handling
variable (hashOf : AttestationBody → String)

/-- Add a record to the chain; the oldest one goes when the chain is full. -/
def recordAttestation (handle event consumer : String) (capabilities : List String) (timestamp : String)
    (residue : Option Nat) (server : Server) : Server :=
  let prevHash := (server.attestations.head?.map Attestation.hash).getD genesisHash
  let body : AttestationBody := ⟨event, (serviceId, serviceVersion), consumer, capabilities, timestamp, prevHash, residue⟩
  let record : Attestation := ⟨body, hashOf body⟩
  { server with
    attestations := (record :: server.attestations).take maxAttestationDepth
    attested := (handle, record) :: server.attested }

def push (message : Message) (server : Server) : Server :=
  if maxQueueDepth ≤ server.depth then { server with queue := server.queue.tail ++ [message] }
  else { server with queue := server.queue ++ [message], depth := server.depth + 1 }

/-- Accept a connection of a peer, if there is room and every capability is offered. -/
def accept (now : Int) (timestamp : String) (drawn : Drawn) (peerId : String) (consumes : List String) (rawLease : Json)
    (server : Server) : Reply × Server :=
  let matched := consumes.filter (· ∈ offers)
  if maxConnections ≤ server.connections.size then (.error .connectionCapacityReached, server)
  else if matched.length ≠ consumes.length then (.error .noMatchingCapabilities, server)
  else
    match parseLease rawLease with
    | .error reason => (.error reason, server)
    | .ok lease =>
      let info : ConnInfo := {
        peerId, state := .connected, connectedAt := now, lastHeartbeat := now, matchedCapabilities := matched,
        leased := lease.map fun lease => ⟨lease, now + lease.ttlMs⟩, missedWindows := 0, voiceScope := none,
        voiceInbox := [], voiceEpoch := drawn.epoch }
      (.connected drawn.handle lease,
        { server with connections := server.connections.insert drawn.handle info }.recordAttestation hashOf
          drawn.handle "groove:connect" peerId matched timestamp none)

/-- Remove a session with every queued message of its peer, and attest it. -/
def finish (event : String) (residue : Option Nat) (stamp : String → String) (handle : String) (info : ConnInfo)
    (server : Server) : Server :=
  let queue := server.queue.filter fun message => ! message.fromPeer handle info.peerId
  { server with connections := server.connections.erase handle, queue, depth := queue.length }.recordAttestation hashOf
    handle event info.peerId info.matchedCapabilities (stamp handle) residue

def expireLease (stamp : String → String) : String → ConnInfo → Server → Server :=
  finish hashOf "groove:lease-expired" (some 0) stamp

/-- A call that finds a session past its deadline expires it itself. -/
def expireIfElapsed (now : Int) (stamp : String → String) (handle : String) (server : Server) : Server :=
  match server.connections.lookup handle with
  | some info =>
    match info.leased with
    | some leased => if leased.deadline ≤ now then expireLease hashOf stamp handle info server else server
    | none => server
  | none => server

def disconnectSession (now : Int) (stamp : String → String) (handle : String) (server : Server) : Reply × Server :=
  let server := expireIfElapsed hashOf now stamp handle server
  match server.connections.lookup handle with
  | none => (.error .notFound, server)
  | some info => (.ok, finish hashOf "groove:disconnect" none stamp handle info server)

/-- Only a hard lease is extended. -/
def refreshLease (now : Int) (info : ConnInfo) : ConnInfo :=
  match info.leased with
  | some leased =>
    match leased.lease.mode with
    | .soft => info
    | .hard => { info with leased := some ⟨leased.lease, now + leased.lease.ttlMs⟩, missedWindows := 0 }
  | none => info

/-- `elapsed` is the read that decides whether the session is past its deadline, `now` the one its lease
is refreshed at. -/
def heartbeatSession (elapsed now : Int) (stamp : String → String) (handle : String) (server : Server) : Reply × Server :=
  let server := expireIfElapsed hashOf elapsed stamp handle server
  match server.connections.lookup handle with
  | none => (.error .notFound, server)
  | some info =>
    let updated := refreshLease now { info with lastHeartbeat := now, state := .active }
    let reply := match info.leased with
      | some leased => if leased.lease.mode = .soft then .error .softLease else .ok
      | none => .ok
    (reply, { server with connections := server.connections.insert handle updated })

/-- One connection of a sweep, as it was when the sweep began. -/
def sweepConnection (now : Int) (stamp : String → String) (server : Server) : String × ConnInfo → Server
  | (handle, info) =>
    match info.leased with
    | some leased =>
      match leased.lease.mode with
      | .soft => if leased.expiresAt ≤ now then expireLease hashOf stamp handle info server else server
      | .hard =>
        if leased.missed now = 0 then server
        else if leaseMaxMissedWindows ≤ leased.missed now then expireLease hashOf stamp handle info server
        else
          let updated := { info with state := .degraded, missedWindows := leased.missed now }
          { server with connections := server.connections.insert handle updated }
    | none =>
      if heartbeatTimeoutMs < now - info.lastHeartbeat then
        if info.state = .degraded then { server with connections := server.connections.erase handle }
        else { server with connections := server.connections.insert handle { info with state := .degraded } }
      else server

def sweep (now : Int) (stamp : String → String) (server : Server) : Server :=
  server.connections.toList.foldl (sweepConnection hashOf now stamp) server

/-- `send` checks the frame; the other actions are done once the members are checked. -/
def voiceEffect (action : String) (scope : Scope) (bytes : List UInt8) : Except Reason Unit :=
  if action = "send" then
    match decodeFrame bytes with
    | some signal => if signal.roomId = scope.room ∧ signal.userId = scope.subject then .ok () else .error .forbidden
    | none => .error .invalidFrame
  else if action = "recv" ∨ action = "heartbeat" ∨ action = "disconnect" then .ok ()
  else .error .invalidRequest

/-- The checks in the room's turn: the request is not late, the identity and the lease last. -/
def voiceMembers (room : RoomAnswer) (auth : Auth) (system requested : Int) (requestDeadline : Int)
    (lapsed : Bool) (effect : Except Reason Unit) : Except Reason Unit :=
  match room with
  | .members =>
    if requestDeadline ≤ requested then .error .notFound
    else if auth.expires ≤ system then .error .unauthorized
    else if lapsed then .error .notFound
    else effect
  | .notMembers | .roomNotFound | .exit => .error .forbidden

def voiceConnect (moment : Moment) (auth : Auth) (scope : Scope) (lease : Json) (requestDeadline : Int) (room : RoomAnswer)
    (drawn : Drawn) (server : Server) : Reply × Server :=
  match voiceMembers room auth moment.system (moment.read 0) requestDeadline false (.ok ()) with
  | .error reason => (.error reason, server)
  | .ok () =>
    match accept hashOf (moment.read 1) (moment.stamp drawn.handle) drawn "gossamer-voice" ["voice"] lease server with
    | (.connected handle (some accepted), next) =>
      let bound := match next.connections.lookup handle with
        | some info => { next with connections := next.connections.insert handle { info with voiceScope := some scope } }
        | none => next
      (.connected handle (some accepted), bound)
    | (_, next) => (.error .capacity, next)

/-- An operation on a voice session, and the frame it sends. -/
def voiceOperation (moment : Moment) (action handle : String) (auth : Auth) (peer : String) (bytes : List UInt8)
    (requestDeadline : Int) (room : RoomAnswer) (unique : Int) (server : Server) : Reply × Server × Option Delivery :=
  let server := expireIfElapsed hashOf (moment.read 0) moment.stamp handle server
  match server.connections.lookup handle with
  | none => (.error .notFound, server, none)
  | some info =>
    match info.voiceScope with
    | none => (.error .forbidden, server, none)
    | some scope =>
      if scope.subject = auth.subject ∧ scope.peer = peer then
        let lapsed := info.leased.any fun leased => leased.deadline ≤ moment.read 2
        match voiceMembers room auth moment.system (moment.read 1) requestDeadline lapsed (voiceEffect action scope bytes) with
        | .error reason => (.error reason, server, none)
        | .ok () =>
          if action = "heartbeat" then
            let (reply, server) := heartbeatSession hashOf (moment.read 3) (moment.read 4) moment.stamp handle server
            (reply, server, none)
          else if action = "disconnect" then
            let (reply, server) := disconnectSession hashOf (moment.read 3) moment.stamp handle server
            (reply, server, none)
          else if action = "recv" then
            match info.voiceInbox with
            | [] => (.ok, server, none)
            | frame :: rest =>
              (.frame frame, { server with connections := server.connections.insert handle { info with voiceInbox := rest } },
                none)
          else (.ok, server, some ⟨scope.room, scope.subject, scope.peer, unique, bytes⟩)
      else (.error .forbidden, server, none)

/-- A frame goes to the inbox of a session, if it is for the session, newer than it, and there is room. -/
def deliverTo (now : Int) (stamp : String → String) (delivery : Delivery) (server : Server) (handle : String) : Server :=
  let server := expireIfElapsed hashOf now stamp handle server
  match server.connections.lookup handle with
  | some info =>
    if info.voiceScope = some ⟨delivery.recipient, delivery.room, delivery.sender⟩ ∧ info.voiceInbox.length < maxInbox ∧
        delivery.bytes.length ≤ maxFrame ∧ info.voiceEpoch < delivery.epoch then
      { server with connections :=
        server.connections.insert handle { info with voiceInbox := info.voiceInbox ++ [delivery.bytes] } }
    else server
  | none => server

def voiceDelivery (moment : Moment) (delivery : Delivery) (server : Server) : Server :=
  server.connections.keys.zipIdx.foldl
    (fun server entry => deliverTo hashOf (moment.read entry.2) moment.stamp delivery server entry.1) server

/-- The session has a voice scope: the calls without one do not find it. -/
def voiceScoped (server : Server) (handle : String) : Bool :=
  (server.connections.lookup handle).any fun info => info.voiceScope.isSome

def handle (moment : Moment) : Op → Server → Reply × Server × Option Delivery
  | .push message, server => (.ok, server.push message, none)
  | .pop, server => (.messages server.queue, { server with queue := [], depth := 0 }, none)
  | .depth, server => (.depth server.depth, server, none)
  | .attestations, server => (.attestations server.attestations.reverse, server, none)
  | .connect manifest drawn, server =>
    match validManifest manifest with
    | some (peerId, consumes) =>
      let (reply, server) := accept hashOf (moment.read 0) (moment.stamp drawn.handle) drawn peerId consumes
        (manifest.get "lease") server
      (reply, server, none)
    | none => (.error .invalidManifest, server, none)
  | .disconnect handle, server =>
    if server.voiceScoped handle then (.error .notFound, server, none)
    else
      let (reply, server) := disconnectSession hashOf (moment.read 0) moment.stamp handle server
      (reply, server, none)
  | .heartbeat handle, server =>
    if server.voiceScoped handle then (.error .notFound, server, none)
    else
      let (reply, server) := heartbeatSession hashOf (moment.read 0) (moment.read 1) moment.stamp handle server
      (reply, server, none)
  | .voiceConnect auth scope lease requestDeadline room drawn, server =>
    let (reply, server) := voiceConnect hashOf moment auth scope lease requestDeadline room drawn server
    (reply, server, none)
  | .voiceOperation action handle auth peer bytes requestDeadline room unique, server =>
    voiceOperation hashOf moment action handle auth peer bytes requestDeadline room unique server
  | .checkHeartbeats, server => (.noreply, server.sweep hashOf (moment.read 0) moment.stamp, none)
  | .voiceDelivery delivery, server => (.noreply, server.voiceDelivery hashOf moment delivery, none)
  | .other, server => (.noreply, server, none)

end Handling
end Server
end Burble.Groove
