import Burble.Coprocessor.AudioArchive
import Burble.Coprocessor.JitterBuffer

namespace Burble.Coprocessor

/-- What the pipeline calls that is not in this repository: the arithmetic of floats, and AES-256-GCM with a key, an IV,
a tag, a ciphertext and associated data. -/
structure Backend (Key Sample : Type) where
  arith : Arithmetic Sample
  openAead : Key → List UInt8 → List UInt8 → List UInt8 → String → Option (List UInt8)

/-- The state of a pipeline, as far as inbound frames read or change it. -/
structure Pipeline (Key Sample : Type) where
  peerId : String
  pipelineKey : Option Key
  jitterBuffer : JitterBuffer (List UInt8)
  prevFrames : List (List UInt8)
  playbackRef : List Sample
  silenceFrames : Nat
  framesProcessed : Nat
  framesDropped : Nat

/-- What an inbound call is answered: PCM, a frame that conceals a loss, or nothing yet. -/
inductive InboundReply (Sample : Type)
  | pcm (samples : List Sample)
  | concealed (frame : List UInt8)
  | nothing
  deriving DecidableEq

structure Inbound where
  frame : List UInt8
  sequence : Nat
  timestamp : Int

section Kernels
variable {Key Sample : Type} (backend : Backend Key Sample)

def cryptoDecryptFrame (ciphertext : List UInt8) (key : Key) (iv tag : List UInt8) (aad : String) : Option (List UInt8) :=
  backend.openAead key iv tag ciphertext aad

/-- `<<sample::little-signed-16>>`, as long as there are two bytes. -/
def samplesOf : List UInt8 → List Int
  | lo :: hi :: rest => ofSigned16 hi lo :: samplesOf rest
  | _ => []

def audioDecode : List UInt8 → Option (List Sample)
  | [] => none
  | _ :: rest =>
    if rest.length < 4 then none
    else
      let length := ofLittleEndian (rest.take 4)
      let body := rest.drop 4
      if body.length < length then none else some ((samplesOf (body.take length)).map backend.arith.restore)

/-- `trunc(b * 0.95)`, which is exact for a byte. -/
def fade (byte : UInt8) : UInt8 := (byte.toNat * 95 / 100).toUInt8

def binaryPadOrTrim (bin : List UInt8) (size : Nat) : List UInt8 :=
  if size ≤ bin.length then bin.take size else bin ++ List.replicate (size - bin.length) 0

def ioConcealLoss (prevFrames : List (List UInt8)) (frameSize : Nat) : List UInt8 :=
  match prevFrames with
  | last :: _ => binaryPadOrTrim (last.map fade) frameSize
  | [] => List.replicate frameSize 0

end Kernels

namespace Pipeline
variable {Key Sample : Type} (backend : Backend Key Sample) (state : Pipeline Key Sample)

/-- The frame is decrypted where it can be; else it is passed on as it is. -/
def decrypted (readyFrame : List UInt8) : List UInt8 :=
  match state.pipelineKey with
  | some key =>
    if 28 ≤ readyFrame.length then
      let iv := readyFrame.take 12
      let tag := (readyFrame.drop 12).take 16
      let ct := readyFrame.drop 28
      match cryptoDecryptFrame backend ct key iv tag state.peerId with
      | some plaintext => plaintext
      | none => readyFrame
    else readyFrame
  | none => readyFrame

/-- `handle_call({:inbound, ..})`. The comfort noise asks for the length of a map, which ends the process. -/
def inbound (call : Inbound) : Option (InboundReply Sample × Pipeline Key Sample) :=
  let (buffered, newJitter) := ioJitterBufferPush state.jitterBuffer call.frame call.sequence call.timestamp
  let state := { state with jitterBuffer := newJitter }
  match buffered with
  | none =>
    let silenceFrames := state.silenceFrames + 1
    if 3 ≤ silenceFrames then none else some (.nothing, { state with silenceFrames })
  | some readyFrame =>
    match audioDecode backend (state.decrypted backend readyFrame) with
    | some pcm =>
      some (.pcm pcm, { state with
        framesProcessed := state.framesProcessed + 1
        prevFrames := readyFrame :: state.prevFrames.take 2
        playbackRef := pcm
        silenceFrames := 0 })
    | none =>
      let concealed := ioConcealLoss state.prevFrames 960
      some (.concealed concealed, { state with
        framesDropped := state.framesDropped + 1
        prevFrames := concealed :: state.prevFrames.take 2 })

/-- The frame that the jitter buffer gives out in a call. -/
def emits (call : Inbound) : Option (List UInt8) :=
  (ioJitterBufferPush state.jitterBuffer call.frame call.sequence call.timestamp).1

end Pipeline
end Burble.Coprocessor
