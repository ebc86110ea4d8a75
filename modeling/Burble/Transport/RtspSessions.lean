import Burble.FiniteMap

namespace Burble.Transport

abbrev SessionId := String

/-- A handler's process, one for each connection. -/
abbrev HandlerId := Nat

inductive SessionState
  | ready
  | playing
  | teardown
  deriving DecidableEq

/-- A session, with the connection that has set it up. -/
structure RtspSession where
  id : SessionId
  mountpoint : String
  state : SessionState
  opener : HandlerId
  deriving DecidableEq

/-- A request's method; a SETUP with the id that it draws. -/
inductive RtspMethod
  | options
  | describe
  | setup (sid : SessionId)
  | play
  | teardown
  | other
  deriving DecidableEq

/-- Where a handler stands: it waits for a request, with the session id that it keeps, or it is about to make the next
call of the server, or to answer a PLAY, or its socket is closed. -/
inductive Phase
  | waiting (sessionId : Option SessionId)
  | registering (sid : SessionId) (path : String)
  | looking (sid : SessionId)
  | starting (sid : SessionId)
  | answering (sid : SessionId)
  | tearing (sid : SessionId)
  | deleting (sid : SessionId)
  | closed
  deriving DecidableEq

/-- What happens to sessions: set up by a connection, set to playing by one, a PLAY of one answered with 200, deleted. -/
inductive SessionEvent
  | setUp (handler : HandlerId) (sid : SessionId)
  | started (handler : HandlerId) (sid : SessionId)
  | answered (handler : HandlerId) (sid : SessionId)
  | deleted (sid : SessionId)
  deriving DecidableEq

def SessionEvent.sid : SessionEvent → SessionId
  | setUp _ sid | started _ sid | answered _ sid | deleted sid => sid

abbrev SessionTable := FiniteMap SessionId RtspSession

section Table

def getSession (sessions : SessionTable) (sid : SessionId) : Option RtspSession := sessions.lookup sid

def registerSession (sessions : SessionTable) (session : RtspSession) : SessionTable :=
  AList.insert session.id session sessions

def transitionSession (sessions : SessionTable) (sid : SessionId) (newState : SessionState) : SessionTable :=
  match sessions.lookup sid with
  | none => sessions
  | some session => AList.insert sid { session with state := newState } sessions

def deleteSession (sessions : SessionTable) (sid : SessionId) : SessionTable := AList.erase sid sessions

end Table

/-- The session table with the connections' handlers, the ids that have been drawn, and what has happened. -/
structure RtspSystem where
  sessions : SessionTable
  handlers : FiniteMap HandlerId Phase
  nextHandler : HandlerId
  issued : List SessionId
  history : List SessionEvent

inductive RtspLabel
  | connect
  | request (handler : HandlerId) (method : RtspMethod) (path : String) (sessionHeader : Option SessionId)
  | act (handler : HandlerId)
  | ends (handler : HandlerId)
  deriving DecidableEq

namespace RtspSystem

def start : RtspSystem := ⟨∅, ∅, 0, [], []⟩

def setPhase (system : RtspSystem) (handler : HandlerId) (phase : Phase) : RtspSystem :=
  { system with handlers := AList.insert handler phase system.handlers }

def record (system : RtspSystem) (event : SessionEvent) : RtspSystem :=
  { system with history := system.history ++ [event] }

/-- A request's first part, up to the first call of the server. Session ids are drawn at random and so are new. -/
def handleRtspMethod (system : RtspSystem) (handler : HandlerId) (path : String) (sessionHeader sessionId : Option SessionId) :
    RtspMethod → Option RtspSystem
  | .options | .describe | .other => some (system.setPhase handler (.waiting sessionId))
  | .setup sid =>
    if sid ∈ system.issued then none
    else some ({ system with issued := system.issued ++ [sid] }.setPhase handler (.registering sid path))
  | .play =>
    match sessionHeader <|> sessionId with
    | some resolved => some (system.setPhase handler (.looking resolved))
    | none => some (system.setPhase handler (.waiting none))
  | .teardown =>
    match sessionHeader <|> sessionId with
    | some resolved => some (system.setPhase handler (.tearing resolved))
    | none => some (system.setPhase handler .closed)

/-- The next call of the server by a handler, or its answer. -/
def act (system : RtspSystem) (handler : HandlerId) : Phase → Option RtspSystem
  | .waiting _ | .closed => none
  | .registering sid path =>
    some (({ system with sessions := registerSession system.sessions ⟨sid, path, .ready, handler⟩ }.record
      (.setUp handler sid)).setPhase handler (.waiting (some sid)))
  | .looking sid =>
    match getSession system.sessions sid with
    | some session =>
      if session.state = .ready then some (system.setPhase handler (.starting sid))
      else some (system.setPhase handler (.waiting (some sid)))
    | none => some (system.setPhase handler (.waiting (some sid)))
  | .starting sid =>
    let after := { system with sessions := transitionSession system.sessions sid .playing }
    match system.sessions.lookup sid with
    | some _ => some ((after.record (.started handler sid)).setPhase handler (.answering sid))
    | none => some (after.setPhase handler (.answering sid))
  | .answering sid => some ((system.record (.answered handler sid)).setPhase handler (.waiting (some sid)))
  | .tearing sid =>
    some ({ system with sessions := transitionSession system.sessions sid .teardown }.setPhase handler (.deleting sid))
  | .deleting sid =>
    let after := { system with sessions := deleteSession system.sessions sid }
    match system.sessions.lookup sid with
    | some _ => some ((after.record (.deleted sid)).setPhase handler .closed)
    | none => some (after.setPhase handler .closed)

/-- A handler ends where it waits, as its connection closes, times out or sends what is no request, or where it has closed
its socket itself. -/
def next (system : RtspSystem) : RtspLabel → Option RtspSystem
  | .connect => some { system with
      handlers := AList.insert system.nextHandler (.waiting none) system.handlers
      nextHandler := system.nextHandler + 1 }
  | .request handler method path sessionHeader =>
    match system.handlers.lookup handler with
    | some (.waiting sessionId) => system.handleRtspMethod handler path sessionHeader sessionId method
    | _ => none
  | .act handler => (system.handlers.lookup handler).bind (system.act handler)
  | .ends handler =>
    match system.handlers.lookup handler with
    | some (.waiting _) | some .closed => some { system with handlers := AList.erase handler system.handlers }
    | _ => none

end RtspSystem

end Burble.Transport
