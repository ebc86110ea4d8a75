import Burble.Bolt.Packet
import Burble.Bolt.Spa

namespace Burble.Bolt

/-- The configured secret, HMAC-SHA256 and the JSON decoder. -/
structure Config where
  secret : Option String
  hmac : Hmac
  decodeJson : List UInt8 → Option Json

/-- SPA is on when a non-empty secret is configured. -/
def Config.enabled (config : Config) : Option String := config.secret.filter fun secret => 0 < byteSize secret

/-- The clock readings of one packet: for the window, for the nonce, for the notification. -/
structure Reads where
  window : Int
  record : Int
  notify : Int
  deriving DecidableEq

structure Sender where
  ip : String
  mac : Option String
  node : Json
  server : Json
  display : Json

/-- The incoming call shown to every subscribed browser. -/
structure Notification where
  sender : Sender
  ts : Int
  requestAck : Bool
  payload : Json

/-- What becomes of the bytes of one packet. -/
inductive Handled
  | ignored (reason : PacketError)
  | dropped (reason : SpaError)
  | dispatched (notification : Notification)
  /-- an exception ended the listener -/
  | crashed

def displayName (payload : JsonMap) (src : String) : Json :=
  if (payload.get "display_name").truthy then payload.get "display_name"
  else if (payload.get "from").truthy then payload.get "from"
  else .string src

/-- The fields a packet is shown by: `payload || %{}`, where anything but a map raises. -/
def payloadFields : Json → Option JsonMap
  | .object entries => some (Json.toMap entries)
  | .null | .bool false => some ∅
  | _ => none

def extractSender (packet : Packet) (fields : JsonMap) (src : String) : Sender :=
  { ip := src, mac := packet.senderMac.map formatMac, node := fields.get "from", server := fields.get "server",
    display := displayName fields src }

/-- Broadcast a packet as an incoming call. The log line needs the display name as text. -/
def incoming (now : Int) (packet : Packet) (src : String) : Option Notification := do
  let fields ← payloadFields packet.payload
  let sender := extractSender packet fields src
  let _ ← sender.display.toText
  return { sender, ts := now, requestAck := packet.requestAck, payload := packet.payload }

/-- A crash ends the listener, which owns the replay table: its successor starts an empty one. -/
def dispatch (reads : Reads) (packet : Packet) (src : String) (nonces : Nonces) : Handled × Nonces :=
  match incoming reads.notify packet src with
  | some notification => (.dispatched notification, nonces)
  | none => (.crashed, ∅)

/-- `Spa.verify` of a packet's payload, which must be a map. -/
def authenticate (config : Config) (secret : String) (reads : Reads) (payload : Json) (nonces : Nonces) :
    Verdict × Nonces :=
  match payload with
  | .object entries => verify config.hmac secret reads.window reads.record (Json.toMap entries) nonces
  | _ => (.raised, nonces)

def handlePacket (config : Config) (reads : Reads) (src : String) (data : List UInt8) (nonces : Nonces) :
    Handled × Nonces :=
  match decode config.decodeJson data with
  | .error reason => (.ignored reason, nonces)
  | .ok packet =>
    match config.enabled with
    | none => dispatch reads packet src nonces
    | some secret =>
      match authenticate config secret reads packet.payload nonces with
      | (.ok, nonces) => dispatch reads packet src nonces
      | (.error reason, nonces) => (.dropped reason, nonces)
      | (.raised, _) => (.crashed, ∅)

end Burble.Bolt
