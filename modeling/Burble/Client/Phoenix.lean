import Burble.Runs
import Burble.Json

namespace Burble.Client

/-- Milliseconds. -/
abbrev Instant := Nat

def replyTimeout : Nat := 10000
def heartbeatAfter : Nat := 15000

/-- Non-reply message received on the joined channel. -/
structure Broadcast where
  event : String
  payload : Json

/-- A frame from the server, of five elements. -/
structure Frame where
  msgRef : Option String
  topic : String
  event : String
  payload : Json

/-- A frame to the server. -/
structure SentFrame where
  joinRef : Option String
  msgRef : String
  topic : String
  event : String
  payload : Json

structure Rejected where
  status : String
  response : Json

inductive Classified
  | reply (msgRef : String) (response : Except Rejected Json)
  | broadcast (message : Broadcast)
  | consumed

inductive Error
  | protocol (text : String)
  | closed
  | channel (payload : Json)

structure PhoenixClient where
  topic : Option String
  joinRef : Option String
  nextRef : UInt64
  pending : List Broadcast
  heartbeatRef : Option String
  lastSend : Instant

def PhoenixClient.new (now : Instant) : PhoenixClient := ⟨none, none, 0, [], none, now⟩

def Frame.broadcast (frame : Frame) : Broadcast := ⟨frame.event, frame.payload⟩

/-- `payload.get(key)`. -/
def getField (payload : Json) (key : String) : Option Json :=
  match payload with
  | .object entries => (Json.toMap entries).lookup key
  | _ => none

def asStr : Json → Option String
  | .string text => some text
  | _ => none

/-- The response that a reply carries. -/
def replyResponse (payload : Json) : Except Rejected Json :=
  let status := ((getField payload "status").bind asStr).getD ""
  let response := (getField payload "response").getD .null
  if status = "ok" then .ok response else .error ⟨status, response⟩

namespace PhoenixClient

def takeRef (client : PhoenixClient) : String × PhoenixClient :=
  let nextRef := client.nextRef + 1
  (toString nextRef.toNat, { client with nextRef })

def classify (client : PhoenixClient) (frame : Frame) : Except Error Classified × PhoenixClient :=
  if frame.event = "phx_reply" then
    if frame.msgRef.isSome ∧ client.heartbeatRef = frame.msgRef then
      (.ok .consumed, { client with heartbeatRef := none })
    else
      match frame.msgRef with
      | none => (.error (.protocol "phx_reply has no ref"), client)
      | some msgRef => (.ok (.reply msgRef (replyResponse frame.payload)), client)
  else if frame.event = "phx_error" then (.error (.channel frame.payload), client)
  else if frame.event = "phx_close" then (.error .closed, client)
  else if client.topic.any fun joined => joined ≠ frame.topic then (.ok .consumed, client)
  else (.ok (.broadcast frame.broadcast), client)

end PhoenixClient

/-- The call that is going on. -/
inductive Activity
  | idle
  | joining (topic ref : String) (deadline : Instant)
  | pushing (ref : String) (deadline : Instant)
  | listening (deadline : Instant)
  deriving DecidableEq

/-- Where a call ends without a frame. -/
def Activity.deadline : Activity → Option Instant
  | .idle => none
  | .joining _ _ deadline | .pushing _ deadline | .listening deadline => some deadline

def Activity.isListening : Activity → Bool
  | .listening _ => true
  | _ => false

/-- A join or a push that a reply has ended: its own ref, the reply, and what it returned. -/
structure Answer where
  ref : String
  reply : Frame
  response : Except Rejected Json

/-- A client and its log: what it has sent and received, the refs it has taken, the frames it has
classified as broadcasts, what `next_broadcast` has returned and what the replies have. -/
structure World where
  client : PhoenixClient
  activity : Activity
  sent : List SentFrame
  received : List Frame
  refs : List String
  delivered : List Frame
  returned : List Broadcast
  answers : List Answer

inductive Label
  | join (topic : String) (params : Json) (now : Instant) (sent : Bool)
  | push (event : String) (payload : Json) (now : Instant) (sent : Bool)
  | nextBroadcast (wait : Nat) (now : Instant)
  | heartbeat (now : Instant) (sent : Bool)
  | frame (frame : Frame)
  | readFailed
  | timedOut (now : Instant)

/-- What the server sends: no `phx_error` or `phx_close`, and each reply has a ref. -/
def Frame.WellFormed (frame : Frame) : Prop :=
  frame.event ≠ "phx_error" ∧ frame.event ≠ "phx_close" ∧ (frame.event = "phx_reply" → frame.msgRef.isSome)

instance (frame : Frame) : Decidable frame.WellFormed :=
  inferInstanceAs (Decidable (frame.event ≠ "phx_error" ∧ frame.event ≠ "phx_close" ∧
    (frame.event = "phx_reply" → frame.msgRef.isSome)))

namespace World

def init (now : Instant) : World := ⟨.new now, .idle, [], [], [], [], [], []⟩

/-- Take a ref and send a frame with it. A failed send has taken the ref. -/
def send (w : World) (joinRef : String → Option String) (topic event : String) (payload : Json) (now : Instant)
    (sent : Bool) (waiting : String → Activity) : World :=
  let (msgRef, client) := w.client.takeRef
  if sent then
    { w with
      client := { client with lastSend := now }
      activity := waiting msgRef
      sent := w.sent ++ [⟨joinRef msgRef, msgRef, topic, event, payload⟩]
      refs := w.refs ++ [msgRef] }
  else { w with client, activity := .idle, refs := w.refs ++ [msgRef] }

def join (w : World) (topic : String) (params : Json) (now : Instant) (sent : Bool) : World :=
  if w.client.topic.isSome then w
  else w.send some topic "phx_join" params now sent fun msgRef => .joining topic msgRef (now + replyTimeout)

def push (w : World) (event : String) (payload : Json) (now : Instant) (sent : Bool) : World :=
  match w.client.topic with
  | none => w
  | some topic =>
    w.send (fun _ => w.client.joinRef) topic event payload now sent fun msgRef => .pushing msgRef (now + replyTimeout)

/-- The oldest message of the buffer, or a wait for one. -/
def nextBroadcast (w : World) (wait : Nat) (now : Instant) : World :=
  match w.client.pending with
  | message :: pending => { w with client := { w.client with pending }, returned := w.returned ++ [message] }
  | [] => { w with activity := .listening (now + wait) }

/-- A heartbeat has no place for the answer but its ref. -/
def heartbeat (w : World) (deadline now : Instant) (sent : Bool) : World :=
  let beaten := w.send (fun _ => none) "phoenix" "heartbeat" (.object []) now sent fun _ => .listening deadline
  if sent then { beaten with client := { beaten.client with heartbeatRef := some w.client.takeRef.1 } } else beaten

/-- The loop of `await_reply` on one frame. -/
def awaitReply (w : World) (frame : Frame) (wanted : String) (done : Json → PhoenixClient → PhoenixClient) : World :=
  let (classified, client) := w.client.classify frame
  match classified with
  | .error _ => { w with client, activity := .idle }
  | .ok (.reply msgRef response) =>
    if msgRef = wanted then
      let answered := { w with activity := .idle, answers := w.answers ++ [Answer.mk wanted frame response] }
      match response with
      | .ok value => { answered with client := done value client }
      | .error _ => { answered with client }
    else { w with client }
  | .ok (.broadcast message) =>
    { w with client := { client with pending := client.pending ++ [message] }, delivered := w.delivered ++ [frame] }
  | .ok .consumed => { w with client }

/-- The loop of `next_broadcast` on one frame. -/
def listen (w : World) (frame : Frame) : World :=
  let (classified, client) := w.client.classify frame
  match classified with
  | .error _ => { w with client, activity := .idle }
  | .ok (.broadcast message) =>
    { w with client, activity := .idle, delivered := w.delivered ++ [frame], returned := w.returned ++ [message] }
  | .ok _ => { w with client }

def read (w : World) (frame : Frame) : Option World :=
  let w := { w with received := w.received ++ [frame] }
  match w.activity with
  | .idle => none
  | .joining topic ref _ =>
    some (w.awaitReply frame ref fun _ client => { client with topic := some topic, joinRef := some ref })
  | .pushing ref _ => some (w.awaitReply frame ref fun _ client => client)
  | .listening _ => some (w.listen frame)

def next (w : World) : Label → Option World
  | .join topic params now sent => if w.activity = .idle then some (w.join topic params now sent) else none
  | .push event payload now sent => if w.activity = .idle then some (w.push event payload now sent) else none
  | .nextBroadcast wait now => if w.activity = .idle then some (w.nextBroadcast wait now) else none
  | .heartbeat now sent =>
    match w.activity with
    | .listening deadline =>
      if w.client.heartbeatRef = none ∧ w.client.lastSend + heartbeatAfter ≤ now then some (w.heartbeat deadline now sent)
      else none
    | _ => none
  | .frame frame => if frame.WellFormed then w.read frame else none
  | .readFailed => if w.activity ≠ .idle then some { w with activity := .idle } else none
  | .timedOut now =>
    if w.activity.deadline.any fun deadline => decide (deadline ≤ now) then some { w with activity := .idle }
    else none

def Step (w : World) (label : Label) (after : World) : Prop := w.next label = some after

end World
end Burble.Client
