import Burble.Base64
import Burble.FiniteMap

namespace Burble.SignalingChannel

/-- A term: a binary, or another one, into which nothing here looks. -/
inductive Term (Other : Type)
  | binary (bytes : List UInt8)
  | other (term : Other)

def text {Other : Type} (content : String) : Term Other := .binary (utf8 content)

/-- The exceptions that are raised where a term is no binary or bytes are malformed. -/
inductive Raised
  | functionClause
  | argument
  | decodeError
  deriving DecidableEq

/-- Parameters by their names and payloads by their atoms. -/
abbrev Payload (Other : Type) := FiniteMap String (Term Other)

inductive WireFormat
  | bebop
  | json
  deriving DecidableEq

section VoiceSignal
variable {Other : Type}

def encodeString : Term Other → Except Raised (List UInt8)
  | .binary str => .ok (littleEndian 4 str.length ++ str)
  | .other _ => .error .functionClause

def decodeString (data : List UInt8) : Except Raised (List UInt8 × List UInt8) :=
  if data.length < 4 then .error .decodeError
  else
    let len := ofLittleEndian (data.take 4)
    if (data.drop 4).length < len then .error .decodeError
    else .ok ((data.drop 4).take len, (data.drop 4).drop len)

structure SdpPayload (Other : Type) where
  sdp : Term Other
  mediaType : Term Other

def encodeSdpPayload (payload : SdpPayload Other) : Except Raised (List UInt8) := do
  let sdp ← encodeString payload.sdp
  let mediaType ← encodeString payload.mediaType
  return sdp ++ mediaType

def decodeSdpPayload (data : List UInt8) : Except Raised (SdpPayload Other × List UInt8) := do
  let (sdp, rest1) ← decodeString data
  let (mediaType, rest2) ← decodeString rest1
  return (⟨.binary sdp, .binary mediaType⟩, rest2)

end VoiceSignal

section Bodies
variable {Other : Type}

def byteSize : Term Other → Except Raised Nat
  | .binary bytes => .ok bytes.length
  | .other _ => .error .argument

/-- The body as it is without Bebop, for which telemetry takes the size of the SDP. -/
def jsonBody (sdp mediaType : Term Other) : Except Raised (Payload Other) := do
  let _ ← byteSize sdp
  return AList.insert "enc" (text "json") (AList.insert "sdp" sdp (AList.insert "mediaType" mediaType ∅))

def encodeSdpBody (format : WireFormat) (sdp mediaType : Term Other) : Except Raised (Payload Other) :=
  match format with
  | .bebop =>
    match encodeSdpPayload ⟨sdp, mediaType⟩ with
    | .ok bin => .ok (AList.insert "enc" (text "bebop")
        (AList.insert "sdp_b64" (text (Base64.encode64 bin)) (AList.insert "mediaType" mediaType ∅)))
    | .error _ => jsonBody sdp mediaType
  | .json => jsonBody sdp mediaType

def decode64 : Term Other → Except Raised (Option (List UInt8))
  | .binary text => .ok (Base64.decode64 text)
  | .other _ => .error .functionClause

/-- Encoding again gives the bytes that have been decoded. -/
def lossless (decoded : SdpPayload Other) (originalBin : List UInt8) : Bool :=
  match encodeSdpPayload decoded with
  | .ok bin => decide (bin = originalBin)
  | .error _ => false

/-- A Bebop body in plain, before what is raised is rescued. -/
def plainBody (payload : Payload Other) (b64 : Term Other) : Except Raised (Payload Other) := do
  match ← decode64 b64 with
  | none => return payload
  | some bin =>
    let (decoded, rest) ← decodeSdpPayload bin
    if rest = [] ∧ lossless decoded bin = true then
      return AList.insert "enc" (text "json") (AList.insert "sdp" decoded.sdp (AList.erase "sdp_b64" payload))
    else return payload

def decodeSdpBody (payload : Payload Other) : Except Raised (Payload Other) :=
  match payload.lookup "enc", payload.lookup "sdp_b64" with
  | some (.binary enc), some b64 =>
    if enc = utf8 "bebop" then
      match plainBody payload b64 with
      | .ok plain => .ok plain
      | .error _ => .ok payload
    else .ok payload
  | _, _ => .ok payload

end Bodies

section Events
variable {Other : Type}

/-- A peer and what is published for it. -/
abbrev Routed (Other : Type) := Term Other × Payload Other

def routeSdp (format : WireFormat) (type : String) (userId peerId sdp : Term Other) (params : Payload Other) :
    Except Raised (Routed Other) := do
  let mediaType := (params.lookup "mediaType").getD (text "audio")
  let body ← encodeSdpBody format sdp mediaType
  return (peerId, AList.insert "type" (text type) (AList.insert "from" userId body))

/-- What the channel of a user publishes on an event, if the event is one of signalling. -/
def handleIn (format : WireFormat) (userId : Term Other) (event : String) (params : Payload Other) :
    Except Raised (Option (Routed Other)) :=
  if event = "sdp:offer" ∨ event = "sdp:answer" then
    match params.lookup "to", params.lookup "sdp" with
    | some peerId, some sdp => do
      let routed ← routeSdp format event userId peerId sdp params
      return some routed
    | _, _ => .ok none
  else if event = "ice:candidate" then
    match params.lookup "to", params.lookup "candidate" with
    | some peerId, some candidate => .ok (some (peerId,
        AList.insert "type" (text "ice:candidate") (AList.insert "from" userId (AList.insert "candidate" candidate ∅))))
    | _, _ => .ok none
  else .ok none

/-- What is pushed to a client for a message that has been published. -/
def handleInfo (bebopDelivery : Bool) (payload : Payload Other) : Except Raised (Payload Other) :=
  if bebopDelivery then .ok payload else decodeSdpBody payload

end Events

end Burble.SignalingChannel
