import Mathlib.Data.List.Infix
import Mathlib.Data.Nat.Bitwise
import Burble.Bytes
import Burble.Json
import Burble.Recent
import Burble.Runs
import Burble.TextOrder

namespace Burble.Bridges.Ai

def maxMessageQueueSize : Nat := 1000
def maxSendPayloadBytes : Nat := 65536
def heartbeatIntervalMs : Nat := 15000
def heartbeatTimeoutMs : Nat := 5000

/-- What the bridge is started with, and what the runtime makes of texts: the host of a URL, and JSON. -/
structure Config where
  port : Nat
  authToken : String
  hostname : String → Option String
  parse : String → Except String Json
  stringify : Json → String

/-- What the bridge reads of a request: its method and path, its headers and the `token` of its query. -/
structure Request where
  method : String
  pathname : String
  origin : Option String
  authorization : Option String
  token : Option String
  contentType : Option String
  contentLength : Nat
  upgrade : Option String

def isLocalOrigin (hostname : String → Option String) : Option String → Bool
  | none => true
  | some origin =>
    if origin = "" then true
    else if origin = "null" then true
    else if "file://".toList <+: origin.toList then true
    else
      match hostname origin with
      | some h => h = "localhost" || h = "127.0.0.1" || h = "::1" || h = "[::1]"
      | none => false

def tokenOk (authToken provided : String) : Bool :=
  if authToken = "" then true
  else if provided = "" ∨ (utf16 provided).length ≠ (utf16 authToken).length then false
  else ((utf16 authToken).zip (utf16 provided)).foldl (fun diff units => diff ||| (units.1 ^^^ units.2)) 0 = 0

/-- What `trim` drops of the characters a header may have. -/
def isSpace (c : Char) : Bool := c = ' ' || c = '\u00a0' || (9 ≤ c.toNat && c.toNat ≤ 13)

def trim (text : List Char) : List Char := ((text.dropWhile isSpace).reverse.dropWhile isSpace).reverse

/-- No character of a header but the ASCII letters is an ASCII letter in lower case. -/
def tokenFrom (request : Request) : String :=
  let auth := request.authorization.getD ""
  let bearer :=
    if "bearer ".toList <+: auth.toList.map Char.toLower then String.ofList (trim (auth.toList.drop 7)) else ""
  if bearer ≠ "" then bearer else request.token.getD ""

inductive Response
  | json (status : Nat) (data : Json)
  | text (status : Nat) (body : String)
  | upgraded
  | thrown (error : String)

def refusal (status : Nat) (error : String) : Response :=
  .json status (.object [("ok", .bool false), ("error", .string error)])

/-- The answer to `/recv`, where `undefined` is written as `null`. -/
def messagesResponse (msgs : List (Option Json)) : Response :=
  .json 200 (.object [("messages", .array (msgs.map fun payload => payload.getD .null)), ("count", .integer msgs.length)])

inductive ReadyState
  | connecting
  | «open»
  | closed
  deriving DecidableEq, Repr

/-- The runtime's own end of a socket: upgraded, opened, or closed. -/
inductive Native
  | pending
  | live
  | gone
  deriving DecidableEq, Repr

/-- A timeout that is remembered after it has fired. -/
structure PongTimer where
  due : Nat
  fired : Bool
  deriving DecidableEq, Repr

/-- A socket of the relay with the variables of its handlers. The interval is due again at a time. -/
structure Socket where
  readyState : ReadyState
  native : Native
  heartbeatTimer : Option Nat
  pongTimer : Option PongTimer
  deriving DecidableEq, Repr

namespace Socket
variable (now : Nat) (socket : Socket)

def stopHeartbeat : Socket := { socket with heartbeatTimer := none, pongTimer := none }

def startHeartbeat : Socket :=
  match socket.heartbeatTimer with
  | some _ => socket
  | none => { socket with heartbeatTimer := some (now + heartbeatIntervalMs) }

/-- Whether a ping is sent, where the runtime's `send` may throw. -/
def sendPing (throws : Bool) : Bool × Socket :=
  if socket.readyState ≠ .«open» then (false, socket)
  else if throws then (false, { socket with pongTimer := none })
  else (true, { socket with pongTimer := some ⟨now + heartbeatTimeoutMs, false⟩ })

end Socket

structure Bridge where
  now : Nat
  messageQueue : List (Option Json)
  wsClient : Option Nat
  sockets : FiniteMap Nat Socket

def Bridge.init : Bridge := ⟨0, [], none, ∅⟩

/-- What happens between two awaits: time passes, a request is there, with what reading its body gives and the
error of the socket's `send`, or a callback of the runtime or of a timer is called. -/
inductive Event
  | tick (elapsed : Nat)
  | http (request : Request) (body : Option String) (sendError : Option String)
  | upgrade (id : Nat) (request : Request) (accepted : Bool)
  | opened (id : Nat)
  | message (id : Nat) (text : String)
  | closed (id : Nat)
  | heartbeat (id : Nat) (throws : Bool)
  | pongTimeout (id : Nat)

/-- What a handler answers, and the texts it sends to sockets. -/
structure Reply where
  response : Option Response
  frames : List (Nat × String)

def Reply.none : Reply := ⟨.none, []⟩
def Reply.of (response : Response) : Reply := ⟨some response, []⟩

/-- `msg[name]` of a value that is not `null`, where `undefined` is none. -/
def property (msg : Json) (name : String) : Option Json :=
  match msg with
  | .object entries => (Json.toMap entries).lookup name
  | _ => none

def isText (text : String) : Option Json → Bool
  | some (.string value) => value = text
  | _ => false

/-- What a frame is to `onmessage`. -/
inductive Incoming
  | pong
  | received (payload : Option Json)
  | ignored

namespace Config
variable (config : Config)

def incoming (text : String) : Incoming :=
  match config.parse text with
  | .error _ => .ignored
  | .ok msg =>
    if isText "pong" (property msg "type") then .pong
    else if isText "received" (property msg "type") then .received (property msg "payload")
    else .ignored

/-- The gate of the HTTP interface: what a request is refused with. -/
def httpGate (request : Request) : Option Response :=
  if request.origin.getD "" ≠ "" ∧ ¬ isLocalOrigin config.hostname request.origin then
    some (refusal 403 "forbidden origin")
  else if request.pathname ≠ "/health" ∧ ¬ tokenOk config.authToken (tokenFrom request) then
    some (refusal 401 "unauthorized")
  else none

/-- The gate of the relay. -/
def upgradeGate (request : Request) : Option Response :=
  if request.upgrade ≠ some "websocket" then some (.text 400 "WebSocket only")
  else if ¬ isLocalOrigin config.hostname request.origin then some (.text 403 "forbidden origin")
  else if ¬ tokenOk config.authToken (tokenFrom request) then some (.text 401 "unauthorized")
  else none

end Config

namespace Bridge
variable (config : Config) (s : Bridge)

/-- The socket of `wsClient`, where `wsClient?.readyState === 1`. -/
def openClient : Option Nat :=
  s.wsClient.filter fun id => (s.sockets.lookup id).any fun socket => socket.readyState = .«open»

def setSocket (id : Nat) (socket : Socket) : Bridge := { s with sockets := s.sockets.insert id socket }

@[simp] theorem setSocket_now (id : Nat) (socket : Socket) : (s.setSocket id socket).now = s.now := rfl

@[simp] theorem setSocket_messageQueue (id : Nat) (socket : Socket) :
    (s.setSocket id socket).messageQueue = s.messageQueue := rfl

@[simp] theorem setSocket_wsClient (id : Nat) (socket : Socket) : (s.setSocket id socket).wsClient = s.wsClient := rfl

@[simp] theorem setSocket_lookup (id other : Nat) (socket : Socket) :
    (s.setSocket id socket).sockets.lookup other = if other = id then some socket else s.sockets.lookup other :=
  FiniteMap.lookup_insert_if s.sockets id other socket

def enqueue (payload : Option Json) : Bridge :=
  if s.messageQueue.length ≥ maxMessageQueueSize then
    { s with messageQueue := s.messageQueue.tail ++ [payload] }
  else { s with messageQueue := s.messageQueue ++ [payload] }

theorem enqueue_others (payload : Option Json) : (s.enqueue payload).now = s.now ∧
    (s.enqueue payload).wsClient = s.wsClient ∧ (s.enqueue payload).sockets = s.sockets := by
  rw [enqueue]
  split <;> exact ⟨rfl, rfl, rfl⟩

def tooLarge : Response := refusal 413 s!"payload too large (max {maxSendPayloadBytes} bytes)"

/-- `POST /send` -/
def send (request : Request) (body : Option String) (sendError : Option String) : Reply :=
  if ¬ "application/json".toList <:+: (request.contentType.getD "").toList then
    .of (refusal 415 "Content-Type must be application/json")
  else if request.contentLength > maxSendPayloadBytes then .of tooLarge
  else
    match body with
    | none => .of (refusal 400 "failed to read request body")
    | some rawBody =>
      if (utf8 rawBody).length > maxSendPayloadBytes then .of tooLarge
      else
        match config.parse rawBody with
        | .error message => .of (refusal 400 ("invalid JSON: " ++ message))
        | .ok body =>
          match s.openClient with
          | none => .of (refusal 503 "not connected")
          | some client =>
            match sendError with
            | some message => .of (refusal 502 ("send failed: " ++ message))
            | none => ⟨some (.json 200 (.object [("ok", .bool true)])),
                [(client, config.stringify (.object [("type", .string "send"), ("payload", body)]))]⟩

def statusResponse : Response :=
  .json 200 (.object [("connected", .bool s.openClient.isSome), ("queued", .integer s.messageQueue.length),
    ("port", .integer config.port), ("maxQueueSize", .integer maxMessageQueueSize),
    ("maxPayloadBytes", .integer maxSendPayloadBytes)])

def help : String :=
  "Burble AI Bridge\n\nPOST /send — send JSON to remote peer\nGET /recv — poll received messages\nGET /status — connection status\nGET /health — health check\n"

/-- The handler of the HTTP server. -/
def http (request : Request) (body : Option String) (sendError : Option String) : Reply × Bridge :=
  match config.httpGate request with
  | some response => (.of response, s)
  | none =>
    if request.method = "POST" ∧ request.pathname = "/send" then (s.send config request body sendError, s)
    else if request.pathname = "/send" ∧ request.method ≠ "POST" then
      (.of (refusal 405 "method not allowed, use POST"), s)
    else if request.method = "GET" ∧ request.pathname = "/recv" then
      (.of (messagesResponse s.messageQueue), { s with messageQueue := [] })
    else if request.method = "GET" ∧ request.pathname = "/status" then (.of (s.statusResponse config), s)
    else if request.pathname = "/health" then (.of (.text 200 "ok"), s)
    else (.of (.text 200 help), s)

/-- The handler of the relay's server, where the runtime may refuse to upgrade. -/
def upgrade (id : Nat) (request : Request) (accepted : Bool) : Reply × Bridge :=
  match config.upgradeGate request with
  | some response => (.of response, s)
  | none =>
    if s.openClient.isSome then (.of (.text 409 "bridge already has an active client"), s)
    else if accepted then
      let socket : Socket := ⟨.connecting, .pending, none, none⟩
      (.of .upgraded, { s.setSocket id (socket.startHeartbeat s.now) with wsClient := some id })
    else (.of (.thrown "burble: websocket upgrade refused by Bun"), s)

def onmessage (id : Nat) (socket : Socket) (text : String) : Bridge :=
  match config.incoming text with
  | .pong => s.setSocket id { socket with pongTimer := none }
  | .received payload => s.enqueue payload
  | .ignored => s

def onclose (id : Nat) (socket : Socket) : Bridge :=
  { s.setSocket id { socket.stopHeartbeat with readyState := .closed, native := .gone } with
    wsClient := if s.wsClient = some id then none else s.wsClient }

/-- The frame of a ping, whose `ts` is the time. -/
def pingFrame : String := config.stringify (.object [("type", .string "ping"), ("ts", .integer s.now)])

/-- One event with what is answered and sent, and nothing where it cannot occur. -/
def serve : Event → Option (Reply × Bridge)
  | .tick elapsed => some (.none, { s with now := s.now + elapsed })
  | .http request body sendError => some (s.http config request body sendError)
  | .upgrade id request accepted => if id ∈ s.sockets then none else some (s.upgrade config id request accepted)
  | .opened id =>
    (s.sockets.lookup id).bind fun socket =>
      if socket.native = .pending then
        some (.none, s.setSocket id (({ socket with readyState := .«open», native := .live } : Socket).startHeartbeat s.now))
      else none
  | .message id text =>
    (s.sockets.lookup id).bind fun socket =>
      if socket.native = .live then some (.none, s.onmessage config id socket text) else none
  | .closed id =>
    (s.sockets.lookup id).bind fun socket =>
      if socket.native ≠ .gone then some (.none, s.onclose id socket) else none
  | .heartbeat id throws =>
    (s.sockets.lookup id).bind fun socket =>
      socket.heartbeatTimer.bind fun due =>
        if due ≤ s.now then
          let (sent, socket) := socket.sendPing s.now throws
          some (⟨none, if sent then [(id, s.pingFrame config)] else []⟩,
            s.setSocket id { socket with heartbeatTimer := some (s.now + heartbeatIntervalMs) })
        else none
  | .pongTimeout id =>
    (s.sockets.lookup id).bind fun socket =>
      socket.pongTimer.bind fun timer =>
        if timer.due ≤ s.now ∧ timer.fired = false then
          some (.none, s.setSocket id
            { socket with readyState := .closed, pongTimer := some { timer with fired := true } })
        else none

end Bridge

/-- An event that was served, and the reply. -/
structure Served where
  event : Event
  reply : Reply

/-- Steps of the bridge. -/
def Serves (config : Config) (s : Bridge) (served : Served) (after : Bridge) : Prop :=
  s.serve config served.event = some (served.reply, after)

/-- A bridge without a secret, where two texts are frames of a page. -/
def Config.plain : Config where
  port := 6474
  authToken := ""
  hostname _ := none
  parse text :=
    if text = "received" then .ok (.object [("type", .string "received"), ("payload", .integer 1)])
    else if text = "pong" then .ok (.object [("type", .string "pong")])
    else .error "Unexpected token"
  stringify _ := ""

def Request.page : Request := ⟨"GET", "/", none, none, none, none, 0, some "websocket"⟩

/-- What each event does where it can occur. -/
inductive Happens (config : Config) (s : Bridge) : Served → Bridge → Prop
  | tick (elapsed : Nat) : Happens config s ⟨.tick elapsed, .none⟩ { s with now := s.now + elapsed }
  | http (request : Request) (body sendError : Option String) :
    Happens config s ⟨.http request body sendError, (s.http config request body sendError).1⟩
      (s.http config request body sendError).2
  | refused {id : Nat} {request : Request} {accepted : Bool} (absent : id ∉ s.sockets)
    (gated : ∀ response, config.upgradeGate request = some response →
      (s.upgrade config id request accepted).1 = .of response)
    (stays : (s.upgrade config id request accepted).2 = s) :
    Happens config s ⟨.upgrade id request accepted, (s.upgrade config id request accepted).1⟩ s
  | upgraded {id : Nat} {request : Request} (absent : id ∉ s.sockets) (gate : config.upgradeGate request = none)
    (alone : s.openClient = none) :
    Happens config s ⟨.upgrade id request true, .of .upgraded⟩
      { s.setSocket id ⟨.connecting, .pending, some (s.now + heartbeatIntervalMs), none⟩ with wsClient := some id }
  | opened {id : Nat} {socket : Socket} (found : s.sockets.lookup id = some socket) (pending : socket.native = .pending) :
    Happens config s ⟨.opened id, .none⟩
      (s.setSocket id (({ socket with readyState := .«open», native := .live } : Socket).startHeartbeat s.now))
  | message {id : Nat} {socket : Socket} {text : String} (found : s.sockets.lookup id = some socket)
    (live : socket.native = .live) : Happens config s ⟨.message id text, .none⟩ (s.onmessage config id socket text)
  | closed {id : Nat} {socket : Socket} (found : s.sockets.lookup id = some socket) (there : socket.native ≠ .gone) :
    Happens config s ⟨.closed id, .none⟩ (s.onclose id socket)
  | pinged {id : Nat} {socket : Socket} {due : Nat} (found : s.sockets.lookup id = some socket)
    (interval : socket.heartbeatTimer = some due) (passed : due ≤ s.now) (isOpen : socket.readyState = .«open») :
    Happens config s ⟨.heartbeat id false, ⟨none, [(id, s.pingFrame config)]⟩⟩
      (s.setSocket id { socket with
        heartbeatTimer := some (s.now + heartbeatIntervalMs)
        pongTimer := some ⟨s.now + heartbeatTimeoutMs, false⟩ })
  | unsent {id : Nat} {socket : Socket} {due : Nat} (found : s.sockets.lookup id = some socket)
    (interval : socket.heartbeatTimer = some due) (passed : due ≤ s.now) (isOpen : socket.readyState = .«open») :
    Happens config s ⟨.heartbeat id true, .none⟩
      (s.setSocket id { socket with heartbeatTimer := some (s.now + heartbeatIntervalMs), pongTimer := none })
  | idle {id : Nat} {socket : Socket} {due : Nat} {throws : Bool} (found : s.sockets.lookup id = some socket)
    (interval : socket.heartbeatTimer = some due) (passed : due ≤ s.now) (notOpen : socket.readyState ≠ .«open») :
    Happens config s ⟨.heartbeat id throws, .none⟩
      (s.setSocket id { socket with heartbeatTimer := some (s.now + heartbeatIntervalMs) })
  | pongTimeout {id : Nat} {socket : Socket} {timer : PongTimer} (found : s.sockets.lookup id = some socket)
    (waiting : socket.pongTimer = some timer) (passed : timer.due ≤ s.now) (first : timer.fired = false) :
    Happens config s ⟨.pongTimeout id, .none⟩
      (s.setSocket id { socket with readyState := .closed, pongTimer := some { timer with fired := true } })

theorem upgrade_cases (config : Config) (s : Bridge) (id : Nat) (request : Request) (accepted : Bool) :
    (s.upgrade config id request accepted).2 = s ∨
      config.upgradeGate request = none ∧ s.openClient = none ∧ accepted = true := by
  rw [Bridge.upgrade]
  cases config.upgradeGate request with
  | some response => exact .inl rfl
  | none =>
    cases client : s.openClient with
    | some id => exact .inl rfl
    | none =>
      cases accepted with
      | false => exact .inl rfl
      | true => exact .inr ⟨rfl, rfl, rfl⟩

theorem Serves.happens {config : Config} {s after : Bridge} {one : Served} (taken : Serves config s one after) :
    Happens config s one after := by
  obtain ⟨event, reply⟩ := one
  cases event with
  | tick elapsed =>
    cases Option.some.inj taken
    exact .tick elapsed
  | http request body sendError =>
    have served := Option.some.inj taken
    obtain ⟨rfl, rfl⟩ := Prod.mk.inj served
    exact .http request body sendError
  | upgrade id request accepted =>
    rw [Serves, Bridge.serve] at taken
    split at taken
    · cases taken
    next absent =>
      have same := Option.some.inj taken
      have gated (response : Response) (gate : config.upgradeGate request = some response) :
          (s.upgrade config id request accepted).1 = .of response := by rw [Bridge.upgrade, gate]
      rcases upgrade_cases config s id request accepted with stays | ⟨gate, alone, rfl⟩
      · have refused := Happens.refused absent gated stays
        rw [same] at refused stays
        exact stays ▸ refused
      · rw [Bridge.upgrade, gate, alone] at same
        obtain ⟨rfl, rfl⟩ := Prod.mk.inj same
        exact .upgraded absent gate alone
  | opened id =>
    obtain ⟨socket, found, onward⟩ := Option.bind_eq_some_iff.mp taken
    split at onward
    next pending =>
      cases onward
      exact .opened found pending
    next => cases onward
  | message id text =>
    obtain ⟨socket, found, onward⟩ := Option.bind_eq_some_iff.mp taken
    split at onward
    next live =>
      cases onward
      exact .message found live
    next => cases onward
  | closed id =>
    obtain ⟨socket, found, onward⟩ := Option.bind_eq_some_iff.mp taken
    split at onward
    next there =>
      cases onward
      exact .closed found there
    next => cases onward
  | heartbeat id throws =>
    obtain ⟨socket, found, onward⟩ := Option.bind_eq_some_iff.mp taken
    obtain ⟨due, interval, onward⟩ := Option.bind_eq_some_iff.mp onward
    split at onward
    next passed =>
      by_cases isOpen : socket.readyState = .«open»
      · cases throws with
        | false =>
          simp only [Socket.sendPing, isOpen, ne_eq, not_true, if_false, Bool.false_eq_true] at onward
          cases onward
          exact isOpen ▸ .pinged found interval passed isOpen
        | true =>
          simp only [Socket.sendPing, isOpen, ne_eq, not_true, if_false, if_true] at onward
          cases onward
          exact isOpen ▸ .unsent found interval passed isOpen
      · simp only [Socket.sendPing, ne_eq, isOpen, not_false_eq_true, if_true] at onward
        cases onward
        exact .idle found interval passed isOpen
    next => cases onward
  | pongTimeout id =>
    obtain ⟨socket, found, onward⟩ := Option.bind_eq_some_iff.mp taken
    obtain ⟨timer, waiting, onward⟩ := Option.bind_eq_some_iff.mp onward
    split at onward
    next fires =>
      cases onward
      exact .pongTimeout found waiting fires.1 fires.2
    next => cases onward

end Burble.Bridges.Ai
