import Mathlib.Logic.Function.Basic
import Burble.Json
import Burble.Sessions.Admission
import Burble.Sessions.AdmissionHistory

namespace Burble.Sessions

def maxPayloadBytes : Nat := 8192

/-- Which seat may send a command. -/
inductive Sender
  | either
  | seat (role : String)

/-- A registered game: its seats, and who may send which command. -/
structure Profile where
  roles : List String
  commandRoles : FiniteMap String Sender

/-- The configured `:game_session_mode`. -/
inductive SessionMode
  | scoped
  | localLegacy
  | other
  deriving DecidableEq

/-- A channel that joined in scoped mode. -/
structure GameSocket where
  sessionId : String
  role : String
  profile : Profile
  lease : Lease

/-- What is broadcast on a topic: a payload with the admission epoch of its sender, or a bare one. -/
inductive Broadcast
  | stamped (admissionEpoch : String) (payload : JsonMap)
  | bare (payload : JsonMap)

/-- What a channel has the authority run for it. -/
inductive Effect
  | broadcast (topic event : String) (message : Broadcast)
  | push (event : String) (payload : JsonMap)
  | alive

/-- Why a client's message is refused. -/
inductive Refusal
  | noObject
  | noCommandTag
  | unknownCommand (tag : String)
  | otherSender (tag owner role : String)
  | payloadTooLarge
  | invalidPayload
  | noEventTag
  | unknownMessage (event : String)
  | sessionModeChanged
  | admission (reason : Error)
  /-- the effect's own `{:error, _}` -/
  | failed
  | authorityUnavailable
  deriving DecidableEq

inductive Response
  | accepted (sessionId epoch : String)
  | staleOrDuplicate
  | pong
  | error (reason : Refusal)
  deriving DecidableEq

/-- What a channel does once the authority has answered. -/
inductive Next
  | relayed
  | command
  | event
  | ping
  | farewell
  | left
  deriving DecidableEq

/-- What a channel does with a message or an answer. -/
inductive Turn
  | guarded (seq : Sequence) (effect : Effect) (next : Next)
  | reply (response : Response)
  | ignore
  | leave
  | gone

/-- The messages of a channel's mailbox. -/
inductive Incoming
  | afterJoin
  | client (event : String) (payload : Option JsonMap)
  | broadcast (event : String) (message : Broadcast)
  | sessionFenced
  /-- the client leaves or its transport ends -/
  | closed

/-- `map[key]`, where a text is asked for. -/
def textAt (payload : JsonMap) (key : String) : Option String :=
  match payload.lookup key with
  | some (.string text) => some text
  | _ => none

def sequenceOf : Json → Sequence
  | .integer seq => .integer seq
  | _ => .other

def commandTag (payload : JsonMap) (profile : Profile) : Except Refusal String :=
  match textAt payload "cmd" with
  | some tag => if (profile.commandRoles.lookup tag).isSome then .ok tag else .error (.unknownCommand tag)
  | none => .error .noCommandTag

namespace GameSocket
variable (socket : GameSocket)

def authorize (tag : String) : Except Refusal Unit :=
  match socket.profile.commandRoles.lookup tag with
  | some .either => .ok ()
  | some (.seat owner) => if owner = socket.role then .ok () else .error (.otherSender tag owner socket.role)
  | none => .error (.otherSender tag "unknown" socket.role)

/-- `encodedSize` is the length of a payload's JSON text, where it has one. -/
def bounded (encodedSize : JsonMap → Option Nat) (payload : JsonMap) : Except Refusal Unit :=
  match encodedSize payload with
  | some bytes => if bytes ≤ maxPayloadBytes then .ok () else .error .payloadTooLarge
  | none => .error .invalidPayload

def topic : String := "game:" ++ socket.sessionId

def relayBroadcast (event : String) (payload : JsonMap) : Effect :=
  .broadcast socket.topic event (.stamped socket.lease.epoch payload)

def ofRole : JsonMap := AList.singleton "role" (.string socket.role)

/-- `terminate`: take leave of the others, then of the authority. -/
def terminate : Turn := .guarded .unsequenced (socket.relayBroadcast "peer_left" socket.ofRole) .farewell

def handleCommand (encodedSize : JsonMap → Option Nat) (payload : JsonMap) : Except Refusal Turn := do
  let tag ← commandTag payload socket.profile
  socket.authorize tag
  bounded encodedSize payload
  pure (.guarded (sequenceOf (payload.get "seq")) (socket.relayBroadcast "command" (payload.erase "seq")) .command)

def handleEvent (encodedSize : JsonMap → Option Nat) (payload : JsonMap) : Except Refusal Turn := do
  if (textAt payload "event").isNone then .error .noEventTag
  bounded encodedSize payload
  pure (.guarded .unsequenced (socket.relayBroadcast "event" payload) .event)

def refused : Except Refusal Turn → Turn
  | .ok turn => turn
  | .error reason => .reply (.error reason)

def handleIn (encodedSize : JsonMap → Option Nat) (event : String) (payload : Option JsonMap) : Turn :=
  if event = "ping" then .guarded .unsequenced .alive .ping
  else if event = "command" then
    match payload with
    | some payload => refused (socket.handleCommand encodedSize payload)
    | none => .reply (.error .noObject)
  else if event = "event" then
    match payload with
    | some payload => refused (socket.handleEvent encodedSize payload)
    | none => .reply (.error .noEventTag)
  else .reply (.error (.unknownMessage event))

/-- Only what carries the epoch of the channel's own lease is forwarded. -/
def handleOut (event : String) : Broadcast → Turn
  | .stamped epoch payload =>
    if epoch = socket.lease.epoch then .guarded .unsequenced (.push event payload) .relayed else .ignore
  | .bare _ => .ignore

def handle (encodedSize : JsonMap → Option Nat) : Incoming → Turn
  | .afterJoin => .guarded .unsequenced (socket.relayBroadcast "peer_joined" socket.ofRole) .relayed
  | .client event payload => socket.handleIn encodedSize event payload
  | .broadcast event message => socket.handleOut event message
  | .sessionFenced => socket.terminate
  | .closed => socket.terminate

def acceptance : Response := .accepted socket.lease.sessionId socket.lease.epoch

/-- What a channel does with the answer to what it asked for. -/
def proceed : Next → Except Refusal Unit → Turn
  | .relayed, .ok () => .ignore
  | .relayed, .error _ => socket.terminate
  | .command, .ok () => .reply socket.acceptance
  | .command, .error (.admission .staleOrDuplicate) => .reply .staleOrDuplicate
  | .command, .error reason => .reply (.error reason)
  | .event, .ok () => .reply socket.acceptance
  | .event, .error reason => .reply (.error reason)
  | .ping, .ok () => .reply .pong
  | .ping, .error reason => .reply (.error reason)
  | .farewell, _ => .leave
  | .left, _ => .gone

end GameSocket
end Burble.Sessions

namespace Burble.Sessions
variable {Pid Digest : Type}

/-- A call that a channel waits for: its number, what the channel does next, and the answer once it is there. -/
structure Wait where
  call : Nat
  next : Next
  answer : Option (Except Refusal Unit)

inductive Phase
  | joining (sessionId role : String) (profile : Profile) (call : Nat) (answer : Option Reply)
  | joined (socket : GameSocket) (waiting : Option Wait)

/-- A channel process with its mailbox. -/
structure Channel where
  phase : Phase
  mailbox : List Incoming

/-- What the authority is called for. -/
inductive Asked (Pid : Type)
  | request (request : Request Pid)
  | relay (pid : Pid) (lease : Lease) (seq : Sequence) (effect : Effect)

structure Call (Pid : Type) where
  number : Nat
  asked : Asked Pid

/-- A call as the authority served it. -/
structure Served (Pid : Type) where
  exchange : Exchange Pid
  asked : Asked Pid

/-- The authority with its mailbox, the channel processes, and the replies that clients were sent. -/
structure Lane (Pid Digest : Type) where
  authority : Authority Pid Digest
  calls : List (Call Pid)
  made : Nat
  channels : Pid → Option Channel
  replies : List (Pid × Response)

/-- What the lane depends on: the secrets, the registered games, and the length of an encoded payload. -/
structure LaneConfig (Digest : Type) where
  secrets : Secrets Digest
  games : String → Option Profile
  encodedSize : JsonMap → Option Nat

/-- What happens next: a join, a request of the host or of any process, something sent to a channel,
a turn of a channel, its death, or a turn of the authority. -/
inductive Input (Pid : Type)
  | join (pid : Pid) (sessionId game role : String) (identity : Option Identity) (epoch : String)
      (credential : Credential)
  | ask (request : Request Pid)
  | client (pid : Pid) (event : String) (payload : Option JsonMap)
  | closed (pid : Pid)
  /-- a message on the topic from a channel that is not scoped -/
  | bare (pid : Pid) (event : String) (payload : JsonMap)
  | take (pid : Pid) (mode : SessionMode)
  | resume (pid : Pid) (mode : SessionMode)
  | timeout (pid : Pid) (mode : SessionMode)
  | kill (pid : Pid)
  | serve (clock : Clock) (result : EffectResult)

def Asked.toRequest (result : EffectResult) : Asked Pid → Request Pid
  | .request other => other
  | .relay pid lease seq _ => .effect pid (some lease) seq result

/-- An effect's result as its caller sees it. The other replies answer no effect and no leave. -/
def Reply.toAnswer : Reply → Except Refusal Unit
  | .error reason => .error (.admission reason)
  | .failed => .error .failed
  | .unavailable => .error .authorityUnavailable
  | .ok | .provisioned _ | .claimed .. | .silent => .ok ()

namespace Channel

def receive (channel : Channel) (message : Incoming) : Channel :=
  { channel with mailbox := channel.mailbox ++ [message] }

def subscribed (channel : Channel) (topic : String) : Bool :=
  match channel.phase with
  | .joined socket _ => socket.topic = topic
  | .joining .. => false

/-- The reply to a call reaches the channel that waits for it. -/
def answered (number : Nat) (reply : Reply) (channel : Channel) : Channel :=
  match channel.phase with
  | .joining sessionId role profile call none =>
    if call = number then { channel with phase := .joining sessionId role profile call (some reply) } else channel
  | .joined socket (some ⟨call, next, none⟩) =>
    if call = number then { channel with phase := .joined socket (some ⟨call, next, some reply.toAnswer⟩) } else channel
  | _ => channel

end Channel

namespace Lane
variable [DecidableEq Pid]

def start : Lane Pid Digest := ⟨init, [], 0, fun _ => none, []⟩

def call (lane : Lane Pid Digest) (asked : Asked Pid) : Lane Pid Digest :=
  { lane with calls := lane.calls ++ [⟨lane.made, asked⟩], made := lane.made + 1 }

def setChannel (lane : Lane Pid Digest) (pid : Pid) (channel : Option Channel) : Lane Pid Digest :=
  { lane with channels := Function.update lane.channels pid channel }

/-- A message for a process; a process that has ended gets none. -/
def send (lane : Lane Pid Digest) (pid : Pid) (message : Incoming) : Lane Pid Digest :=
  lane.setChannel pid ((lane.channels pid).map (·.receive message))

/-- A channel does what its turn says. A guarded turn is refused at once where the configured mode
is not the channel's. -/
def perform (lane : Lane Pid Digest) (pid : Pid) (socket : GameSocket) (mailbox : List Incoming) (mode : SessionMode) :
    Turn → Lane Pid Digest
  | .guarded seq effect next =>
    if mode = .scoped then
      (lane.call (.relay pid socket.lease seq effect)).setChannel pid
        (some ⟨.joined socket (some ⟨lane.made, next, none⟩), mailbox⟩)
    else
      { lane with made := lane.made + 1 }.setChannel pid
        (some ⟨.joined socket (some ⟨lane.made, next, some (.error .sessionModeChanged)⟩), mailbox⟩)
  | .reply response =>
    { lane with replies := (pid, response) :: lane.replies }.setChannel pid (some ⟨.joined socket none, mailbox⟩)
  | .ignore => lane.setChannel pid (some ⟨.joined socket none, mailbox⟩)
  | .leave =>
    (lane.call (.request (.leave pid (some socket.lease)))).setChannel pid
      (some ⟨.joined socket (some ⟨lane.made, .left, none⟩), mailbox⟩)
  | .gone => lane.setChannel pid none

/-- What the run of an effect sends to the other channels of its topic. -/
def relayed (asked : Asked Pid) (reply : Reply) (pid : Pid) (channel : Channel) : Channel :=
  match asked, reply with
  | .relay sender _ _ (.broadcast topic event message), .ok =>
    if pid ≠ sender ∧ channel.subscribed topic then channel.receive (.broadcast event message) else channel
  | _, _ => channel

def fence (told : List Pid) (pid : Pid) (channel : Channel) : Channel :=
  if pid ∈ told then channel.receive .sessionFenced else channel

/-- The authority serves the first of its calls. It loses the others when it ends. -/
def serve [DecidableEq Digest] (secrets : Secrets Digest) (clock : Clock) (result : EffectResult)
    (lane : Lane Pid Digest) : Option (Lane Pid Digest × Served Pid) :=
  match lane.calls with
  | [] => none
  | ⟨number, asked⟩ :: rest =>
    let (reply, after) := Sessions.handle secrets clock (asked.toRequest result) lane.authority
    let told := after.fenced.take (after.fenced.length - lane.authority.fenced.length)
    let channels := fun pid => (lane.channels pid).map fun channel =>
      (relayed asked reply pid (fence told pid channel)).answered number reply
    some ({ lane with authority := after, calls := if reply = .unavailable then [] else rest, channels },
      ⟨⟨clock, asked.toRequest result, lane.authority.refs, reply⟩, asked⟩)

/-- A channel that has its answer goes on. -/
def resume (lane : Lane Pid Digest) (pid : Pid) (mode : SessionMode) : Option (Lane Pid Digest) :=
  match lane.channels pid with
  | some ⟨.joining sessionId role profile _ (some reply), mailbox⟩ =>
    match reply with
    | .claimed lease _ =>
      some (lane.setChannel pid (some ⟨.joined ⟨sessionId, role, profile, lease⟩ none, mailbox ++ [.afterJoin]⟩))
    | _ => some (lane.setChannel pid none)
  | some ⟨.joined socket (some ⟨_, next, some answer⟩), mailbox⟩ =>
    some (lane.perform pid socket mailbox mode (socket.proceed next answer))
  | _ => none

/-- A channel that waits in vain goes on: the authority is late, or has ended. -/
def timeout (lane : Lane Pid Digest) (pid : Pid) (mode : SessionMode) : Option (Lane Pid Digest) :=
  match lane.channels pid with
  | some ⟨.joining _ _ _ _ none, _⟩ => some (lane.setChannel pid none)
  | some ⟨.joined socket (some ⟨_, next, none⟩), mailbox⟩ =>
    some (lane.perform pid socket mailbox mode (socket.proceed next (.error .authorityUnavailable)))
  | _ => none

/-- A channel that waits for nothing handles the first message of its mailbox. -/
def take (encodedSize : JsonMap → Option Nat) (lane : Lane Pid Digest) (pid : Pid) (mode : SessionMode) :
    Option (Lane Pid Digest) :=
  match lane.channels pid with
  | some ⟨.joined socket none, message :: mailbox⟩ =>
    some (lane.perform pid socket mailbox mode (socket.handle encodedSize message))
  | _ => none

def step [DecidableEq Digest] (config : LaneConfig Digest) (lane : Lane Pid Digest) :
    Input Pid → Option (Lane Pid Digest × Option (Served Pid))
  | .join pid sessionId game role identity epoch credential =>
    match lane.channels pid, config.games game with
    | none, some profile =>
      if role ∈ profile.roles then
        let channel : Channel := ⟨.joining sessionId role profile lane.made none, []⟩
        some ((lane.call (.request (.claim pid identity sessionId game role epoch credential))).setChannel pid (some channel),
          none)
      else none
    | _, _ => none
  | .ask request => some (lane.call (.request request), none)
  | .client pid event payload => some (lane.send pid (.client event payload), none)
  | .closed pid => some (lane.send pid .closed, none)
  | .bare pid event payload => some (lane.send pid (.broadcast event (.bare payload)), none)
  | .take pid mode => (take config.encodedSize lane pid mode).map fun lane => (lane, none)
  | .resume pid mode => (lane.resume pid mode).map fun lane => (lane, none)
  | .timeout pid mode => (lane.timeout pid mode).map fun lane => (lane, none)
  | .kill pid => some (lane.setChannel pid none, none)
  | .serve clock result => (serve config.secrets clock result lane).map fun (lane, served) => (lane, some served)

end Lane
end Burble.Sessions
