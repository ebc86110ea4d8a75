import Burble.Json
import Burble.Runs
import Burble.Separated

namespace Burble.Groove

/-- The terms of a report. -/
inductive ReportTerm
  | atom (name : String)
  | integer (value : Int)
  | float (text : String)
  | binary (text : String)
  | list (items : List ReportTerm)
  | tuple (items : List ReportTerm)
  | map (entries : List (ReportTerm × ReportTerm))
  | handle (identity : Nat)

/-- What is around the server: the functions of modules, the text of structs that have one, and whether debug lines are
    logged. -/
structure MeshHost where
  call : String → String → Option ReportTerm
  structText : List (ReportTerm × ReportTerm) → Option String
  debugLogged : Bool

namespace ReportTerm

def isAtom (name : String) : ReportTerm → Bool
  | .atom other => other == name
  | _ => false

/-- Neither `nil` nor `false`. -/
def truthy : ReportTerm → Bool
  | .atom name => name != "nil" && name != "false"
  | _ => true

/-- `term.name`, or nothing where it raises: a key that must be there, or a function of a module. -/
def field (host : MeshHost) (name : String) : ReportTerm → Option ReportTerm
  | .map entries => (entries.find? fun entry => entry.1.isAtom name).map Prod.snd
  | .atom module => host.call module name
  | _ => none

mutual

/-- One element of a chardata list. -/
def elementText : ReportTerm → Option String
  | .integer value =>
    if 0 ≤ value ∧ value.toNat.isValidChar then some (String.singleton (Char.ofNat value.toNat)) else none
  | .binary text => some text
  | .list items => chardataText items
  | _ => none

def chardataText : List ReportTerm → Option String
  | [] => some ""
  | item :: rest => do return (← elementText item) ++ (← chardataText rest)

end

/-- `to_string` of a term, or nothing where it raises. -/
def toText (host : MeshHost) : ReportTerm → Option String
  | .atom name => some (if name = "nil" then "" else name)
  | .integer value => some (toString value)
  | .float text => some text
  | .binary text => some text
  | .list items => chardataText items
  | .map entries => host.structText entries
  | .tuple _ | .handle _ => none

end ReportTerm

inductive PeerStatus
  | up
  | degraded
  | down
  deriving DecidableEq

structure ProbedPeer where
  serviceId : Json
  port : Nat
  status : PeerStatus
  lastSeenMs : Int
  capabilities : List Json

structure ReportedPeer where
  serviceId : String
  status : ReportTerm
  lastSeenMs : Int
  capabilities : List ReportTerm
  metadata : ReportTerm

/-- A peer in the mesh. One that has been reported has no port. -/
inductive MeshPeer
  | probed (peer : ProbedPeer)
  | reported (peer : ReportedPeer)

structure ProbeInfo where
  serviceId : Json
  capabilities : List Json

inductive ProbeError
  | invalidResponse
  | reason (text : String)

/-- What an HTTP request ends with: a body, decoded where it is JSON, or an error. -/
inductive HttpAnswer
  | body (decoded : Option Json)
  | error (reason : String)

/-- What becomes of the task that probes a port: one that takes too long is killed. One that exits by itself takes the
    server with it, to which it is linked. -/
inductive TaskResult
  | finished (answer : HttpAnswer)
  | killed
  | exited

def probePeer (port : Nat) : HttpAnswer → Except ProbeError ProbeInfo
  | .body (some (.object entries)) =>
    let fields := Json.toMap entries
    match fields.lookup "service", fields.lookup "service_id", fields.lookup "status" with
    | some sid, _, _ => .ok ⟨sid, []⟩
    | none, some sid, _ => .ok ⟨sid, []⟩
    | none, none, some (.string "ok") => .ok ⟨.string ("unknown:" ++ port.repr), []⟩
    | none, none, _ => .error .invalidResponse
  | .body _ => .error .invalidResponse
  | .error reason => .error (.reason reason)

/-- The key of a peer that was probed. -/
def peerKey (serviceId : String) (port : Nat) : String := serviceId ++ ":" ++ port.repr

structure HealthMesh where
  peers : FiniteMap String MeshPeer
  lastProbeMs : Int
  probePorts : List Nat

inductive MeshEvent
  | probe (dynamicPorts : List Nat) (results : Nat → TaskResult) (nowMs : Int)
  | reportPeerStatus (peerId : String) (status metadata : ReportTerm) (timestampMs : Int)

namespace HealthMesh
variable (host : MeshHost) (mesh : HealthMesh)

def defaultProbePorts : List Nat := [8000, 8080, 8081, 8091, 8092, 8093]

def init : HealthMesh := ⟨∅, 0, defaultProbePorts⟩

def reportPeerStatus (peerId : String) (status metadata : ReportTerm) (timestampMs : Int) : Option HealthMesh := do
  let type ← metadata.field host "type"
  let entry : ReportedPeer :=
    ⟨peerId, status, timestampMs, [.atom "webrtc", if type.truthy then type else .atom "unknown"], metadata⟩
  if host.debugLogged then let _ ← status.toText host
  return { mesh with peers := mesh.peers.insert peerId (.reported entry) }

def allPorts (dynamicPorts : List Nat) : List Nat := (mesh.probePorts ++ dynamicPorts).eraseDups

/-- The peer that there was on a port. -/
def existing (port : Nat) : Option (String × ProbedPeer) :=
  mesh.peers.toList.findSome? fun entry =>
    match entry.2 with
    | .probed peer => if peer.port = port then some (entry.1, peer) else none
    | .reported _ => none

/-- The new peers with the result of one more task, or nothing where the server crashes. -/
def gather (nowMs : Int) (acc : FiniteMap String MeshPeer) (port : Nat) :
    TaskResult → Option (FiniteMap String MeshPeer)
  | .finished answer =>
    match probePeer port answer with
    | .ok info => do
      let text ← info.serviceId.toText
      return acc.insert (peerKey text port) (.probed ⟨info.serviceId, port, .up, nowMs, info.capabilities⟩)
    | .error _ =>
      match mesh.existing port with
      | none => some acc
      | some (key, prev) =>
        match prev.status with
        | .up => some (acc.insert key (.probed { prev with status := .degraded }))
        | .degraded => do
          let _ ← prev.serviceId.toText
          return acc.erase key
        | .down => some acc
  | .killed => some acc
  | .exited => none

def doProbe (dynamicPorts : List Nat) (results : Nat → TaskResult) (nowMs : Int) : Option HealthMesh := do
  let peers ← (mesh.allPorts dynamicPorts).foldlM (fun acc port => mesh.gather nowMs acc port (results port)) ∅
  return { mesh with peers := peers, lastProbeMs := nowMs }

def handle : MeshEvent → Option HealthMesh
  | .probe dynamicPorts results nowMs => mesh.doProbe dynamicPorts results nowMs
  | .reportPeerStatus peerId status metadata timestampMs =>
    mesh.reportPeerStatus host peerId status metadata timestampMs

/-- A server that crashes is started anew. -/
def Step (before : HealthMesh) (event : MeshEvent) (after : HealthMesh) : Prop :=
  (before.handle host event).getD init = after

end HealthMesh

/-- A cycle in which the probe of a port ends with an error. -/
def MeshEvent.FailsAt (mesh : HealthMesh) (port : Nat) : MeshEvent → Prop
  | .probe dynamicPorts results _ => port ∈ mesh.allPorts dynamicPorts ∧
    ∃ answer reason, results port = .finished answer ∧ probePeer port answer = .error reason
  | .reportPeerStatus .. => False

def MeshEvent.Reports (key : String) : MeshEvent → Prop
  | .probe .. => False
  | .reportPeerStatus peerId .. => peerId = key

/-- What a step is to do: the server stays, a probed peer goes only when a cycle fails that found it degraded, and a
    reported one stays as it is unless it is reported again. -/
structure DegradesFirst (host : MeshHost) (before : HealthMesh) (event : MeshEvent) (after : HealthMesh) : Prop where
  alive : before.handle host event = some after
  probed : ∀ key peer, before.peers.lookup key = some (.probed peer) → after.peers.lookup key = none →
    peer.status = .degraded ∧ event.FailsAt before peer.port
  reported : ∀ key peer, before.peers.lookup key = some (.reported peer) → ¬ event.Reports key →
    after.peers.lookup key = some (.reported peer)

/-- A result that does not crash the server. -/
def TaskResult.Readable (port : Nat) : TaskResult → Prop
  | .finished answer => ∀ info, probePeer port answer = .ok info → info.serviceId.toText ≠ none
  | .killed => True
  | .exited => False

/-- A task that finishes, and an answer only from a service with the name that the key has. -/
def TaskResult.SameName (key : String) (port : Nat) : TaskResult → Prop
  | .finished answer => ∀ info text, probePeer port answer = .ok info → info.serviceId.toText = some text →
    peerKey text port = key
  | .killed | .exited => False

/-- A report with a type in its metadata and a status that can be written where it is logged; a cycle that finds probed
    peers only, probes the port of each, and gets no answer for it from a service of another name. -/
def MeshEvent.Calm (host : MeshHost) (mesh : HealthMesh) : MeshEvent → Prop
  | .probe dynamicPorts results _ =>
    (∀ port ∈ mesh.allPorts dynamicPorts, (results port).Readable port) ∧
    (∀ key peer, mesh.peers.lookup key ≠ some (.reported peer)) ∧
    ∀ key peer, mesh.peers.lookup key = some (.probed peer) →
      peer.port ∈ mesh.allPorts dynamicPorts ∧ (results peer.port).SameName key peer.port
  | .reportPeerStatus _ status metadata _ =>
    metadata.field host "type" ≠ none ∧ (host.debugLogged = true → status.toText host ≠ none)

end Burble.Groove
