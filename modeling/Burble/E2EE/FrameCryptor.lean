import Burble.Bytes
import Burble.E2EE.Session

namespace Burble.E2EE

/-- `ReplayWindow`: the counters accepted lately, and the highest ever, -1 at first. -/
structure ReplayWindow where
  width : Nat
  seen : List Nat
  highest : Int
  deriving DecidableEq

namespace ReplayWindow

def create (size : Nat) : Except String ReplayWindow :=
  if size < 1 then .error "window size must be a positive integer" else .ok ⟨size, [], -1⟩

variable (w : ReplayWindow)

/-- Whether a counter would be accepted, without recording it. -/
def wouldAccept (counter : Nat) : Bool :=
  decide (counter ∉ w.seen) && decide (w.highest - counter < w.width)

/-- Record a new counter, and forget those that fall behind the window. -/
def accept (counter : Nat) : ReplayWindow × Bool :=
  if w.wouldAccept counter then
    if w.highest < counter then
      let floor : Int := counter - w.width + 1
      ({ w with seen := (counter :: w.seen).filter fun c => decide (floor ≤ c), highest := counter }, true)
    else ({ w with seen := counter :: w.seen }, true)
  else (w, false)

end ReplayWindow

def ivBytes : Nat := 12
def tagBytes : Nat := 16

/-- The bytes of one random IV. -/
abbrev Iv := { bytes : List UInt8 // bytes.length = ivBytes }

/-- What `e2ee.js` calls of the browser: a digest, HKDF with a salt and an info, AES-GCM
with an IV and additional data, and what `TextDecoder` makes of ill-formed bytes. -/
structure WebCrypto (Key FrameKey : Type) where
  sha256 : List UInt8 → List UInt8
  hkdf : Key → List UInt8 → List UInt8 → FrameKey
  encrypt : FrameKey → List UInt8 → List UInt8 → List UInt8 → List UInt8
  decrypt : FrameKey → List UInt8 → List UInt8 → List UInt8 → Option (List UInt8)
  replaceMalformed : List UInt8 → String

/-- AES-GCM appends its tag, and opens what it has sealed. -/
structure WebCrypto.Lawful {Key FrameKey : Type} (crypto : WebCrypto Key FrameKey) : Prop where
  tagged : ∀ key iv additionalData plaintext,
    (crypto.encrypt key iv additionalData plaintext).length = plaintext.length + tagBytes
  opens : ∀ key iv additionalData plaintext,
    crypto.decrypt key iv additionalData (crypto.encrypt key iv additionalData plaintext) = some plaintext

section frames
variable {Key FrameKey : Type} (crypto : WebCrypto Key FrameKey)

/-- `TextDecoder` leaves out a byte order mark at the start. -/
def decodeText (bytes : List UInt8) : String :=
  let body := if bytes.take 3 = [0xEF, 0xBB, 0xBF] then bytes.drop 3 else bytes
  (ofUtf8 body).getD (crypto.replaceMalformed body)

def deriveFrameBits (groupKey : Key) (epoch : Nat) (infoSuffix : String) : FrameKey :=
  crypto.hkdf groupKey (crypto.sha256 (utf8 s!"frame|{epoch}")) (utf8 s!"burble-e2ee-frame-v1|{infoSuffix}")

/-- The key of one frame of a named sender. -/
def deriveSenderFrameKey (groupKey : Key) (epoch : Nat) (senderId : String) (counter : Nat) : FrameKey :=
  deriveFrameBits crypto groupKey epoch s!"sender|{senderId}|{counter}"

def frameAad (roomId : String) (epoch : Nat) (senderId : String) (counter : Nat) : List UInt8 :=
  utf8 s!"frame-aad|{roomId}|{epoch}|{senderId}|{counter}"

/-- `iv || tag || ciphertext`, where AES-GCM gives the tag last. -/
def encryptFrame (frameKey : FrameKey) (iv : Iv) (plaintext : List UInt8) (roomId : String) (epoch : Nat)
    (senderId : String) (counter : Nat) : List UInt8 :=
  let sealedBytes := crypto.encrypt frameKey iv (frameAad roomId epoch senderId counter) plaintext
  iv ++ sealedBytes.drop (sealedBytes.length - tagBytes) ++ sealedBytes.take (sealedBytes.length - tagBytes)

def decryptFrame (frameKey : FrameKey) (wire : List UInt8) (roomId : String) (epoch : Nat) (senderId : String)
    (counter : Nat) : Except String (List UInt8) :=
  if wire.length ≤ ivBytes + tagBytes then .error "frame too short"
  else
    let iv := wire.take ivBytes
    let tag := (wire.drop ivBytes).take tagBytes
    let ciphertext := wire.drop (ivBytes + tagBytes)
    match crypto.decrypt frameKey iv (frameAad roomId epoch senderId counter) (ciphertext ++ tag) with
    | some plaintext => .ok plaintext
    | none => .error "OperationError"

def frameVersion : UInt8 := 1
def frameHeaderBytes : Nat := 1 + 1 + 4 + 4
def uint32Max : Nat := 0xffffffff

/-- `version || idLen || sender || epoch || counter`; a null sender has an empty id. -/
def encodeFrameHeader (epoch counter : Nat) (senderId : Option String) : Except String (List UInt8) :=
  if uint32Max < epoch then .error "epoch must be a uint32"
  else if uint32Max < counter then .error "counter must be a uint32"
  else
    let sender := (senderId.map utf8).getD []
    if 255 < sender.length then .error "sender id must be at most 255 bytes"
    else .ok ([frameVersion, sender.length.toUInt8] ++ sender ++ bigEndian 4 epoch ++ bigEndian 4 counter)

structure FrameHeader where
  senderId : Option String
  epoch : Nat
  counter : Nat
  body : List UInt8

/-- Parse the header without authenticating it. -/
def decodeFrameHeader (bytes : List UInt8) : Except String FrameHeader :=
  if bytes.length < frameHeaderBytes then .error "frame is shorter than its header"
  else if bytes.getD 0 0 ≠ frameVersion then .error s!"unsupported frame version {(bytes.getD 0 0).toNat}"
  else
    let idLen := (bytes.getD 1 0).toNat
    if bytes.length < 1 + 1 + idLen + 4 + 4 then .error "frame is shorter than its header"
    else
      let tail := bytes.drop (2 + idLen)
      .ok { senderId := if idLen = 0 then none else some (decodeText crypto ((bytes.drop 2).take idLen)),
            epoch := ofBigEndian (tail.take 4),
            counter := ofBigEndian ((tail.drop 4).take 4),
            body := tail.drop 8 }

end frames

/-- `FrameCryptor`. It reads the session's epoch and room key through its `KeyEpoch`. -/
structure FrameCryptor where
  roomId : String
  localId : String
  counter : Nat
  windows : FiniteMap String ReplayWindow
  remoteId : Option String
  windowSize : Nat

/-- What an `open()` awaits: its frame key, then its plaintext. -/
inductive OpenAwait
  | frameKey
  | plaintext
  deriving DecidableEq

/-- The locals of an `open()` from its first await on. -/
structure Opening (FrameKey : Type) where
  awaits : OpenAwait
  senderId : String
  epoch : Nat
  counter : Nat
  body : List UInt8
  key : FrameKey

/-- The locals of a `seal()` from its first await on. The room key is the one its frame
key is derived from. -/
structure Sealing (Key : Type) where
  epoch : Nat
  counter : Nat
  roomKey : Key
  plaintext : List UInt8

namespace FrameCryptor
variable {Key FrameKey : Type} (crypto : WebCrypto Key FrameKey) (cryptor : FrameCryptor)

def create (roomId localId : String) (remoteId : Option String) (windowSize : Nat) : FrameCryptor :=
  ⟨roomId, localId, 0, ∅, remoteId, windowSize⟩

/-- The window of a sender, which is kept once it has been asked for. -/
def windowFor (senderId : String) : Except String (ReplayWindow × FrameCryptor) :=
  match cryptor.windows.lookup senderId with
  | some window => .ok (window, cryptor)
  | none =>
    match ReplayWindow.create cryptor.windowSize with
    | .ok window => .ok (window, { cryptor with windows := cryptor.windows.insert senderId window })
    | .error reason => .error reason

/-- `open()` up to its first await: everything it checks before it decrypts. -/
def beginOpen (epochs : KeyEpoch Key) (wire : List UInt8) (expectedSender : Option String) :
    FrameCryptor × Except String (Opening FrameKey) :=
  match decodeFrameHeader crypto wire with
  | .error reason => (cryptor, .error reason)
  | .ok header =>
    if header.epoch ≠ epochs.epoch then
      (cryptor, .error s!"frame is from epoch {header.epoch}, current is {epochs.epoch}")
    else match header.senderId with
    | none => (cryptor, .error "frame carries no sender id")
    | some senderId =>
      if senderId = "" then (cryptor, .error "frame carries no sender id")
      else if ∃ expected ∈ expectedSender, senderId ≠ expected then
        let wanted := expectedSender.getD ""
        (cryptor, .error s!"frame is from {senderId}, expected {wanted}")
      else match cryptor.windowFor senderId with
      | .error reason => (cryptor, .error reason)
      | .ok (window, cryptor) =>
        if window.wouldAccept header.counter = false then
          (cryptor, .error s!"frame counter {header.counter} is a replay or outside the window")
        else match epochs.roomKey with
        | none => (cryptor, .error "no room key for this epoch")
        | some roomKey =>
          (cryptor, .ok ⟨.frameKey, senderId, header.epoch, header.counter, header.body,
            deriveSenderFrameKey crypto roomKey epochs.epoch senderId header.counter⟩)

/-- What the decryption of a frame under way comes to. -/
def decrypted (opening : Opening FrameKey) : Except String (List UInt8) :=
  decryptFrame crypto opening.key opening.body cryptor.roomId opening.epoch opening.senderId opening.counter

/-- `open()` after its last await: the counter is spent, and what `accept` says is not
looked at. -/
def spend (opening : Opening FrameKey) : FrameCryptor :=
  match cryptor.windows.lookup opening.senderId with
  | some window =>
    { cryptor with windows := cryptor.windows.insert opening.senderId (window.accept opening.counter).1 }
  | none => cryptor

/-- `seal()` up to its first await. The counter is consumed whatever follows. -/
def beginSeal (epochs : KeyEpoch Key) (plaintext : List UInt8) : FrameCryptor × Except String (Sealing Key) :=
  if uint32Max < cryptor.counter then (cryptor, .error "frame counter exhausted for this epoch")
  else
    ({ cryptor with counter := cryptor.counter + 1 },
      match epochs.roomKey with
      | none => .error "no room key for this epoch"
      | some roomKey => .ok ⟨epochs.epoch, cryptor.counter, roomKey, plaintext⟩)

/-- `sealFrameWithKey`, from the awaited frame key on. -/
def sealed (sealing : Sealing Key) (iv : Iv) : Except String (List UInt8) :=
  let key := deriveSenderFrameKey crypto sealing.roomKey sealing.epoch cryptor.localId sealing.counter
  let body := encryptFrame crypto key iv sealing.plaintext cryptor.roomId sealing.epoch cryptor.localId sealing.counter
  (encodeFrameHeader sealing.epoch sealing.counter (some cryptor.localId)).map fun header => header ++ body

end FrameCryptor

/-- A frame whose plaintext an `open()` returned. -/
structure Opened where
  senderId : String
  epoch : Nat
  counter : Nat
  plaintext : List UInt8
  deriving DecidableEq

/-- A cryptor and the calls on it under way; `opened` is history. -/
structure CryptorRun (Key FrameKey : Type) where
  cryptor : FrameCryptor
  opening : FiniteMap Nat (Opening FrameKey)
  sealing : FiniteMap Nat (Sealing Key)
  nextCall : Nat
  opened : List Opened

/-- What can happen to a cryptor between two await points. -/
inductive CryptorEvent
  | openFrame (wire : List UInt8) (expectedSender : Option String)
  | sealFrame (plaintext : List UInt8)
  /-- what an `open()` awaits arrives -/
  | opens (call : Nat)
  /-- what a call awaits is rejected -/
  | rejects (call : Nat)
  /-- a frame is sealed with this IV -/
  | seals (call : Nat) (iv : Iv)

namespace CryptorRun
variable {Key FrameKey : Type} (crypto : WebCrypto Key FrameKey) (run : CryptorRun Key FrameKey)

def create (cryptor : FrameCryptor) : CryptorRun Key FrameKey := ⟨cryptor, ∅, ∅, 0, []⟩

/-- The frame key, then the plaintext of an `open()` under way. -/
def opens (call : Nat) (opening : Opening FrameKey) : CryptorRun Key FrameKey :=
  match opening.awaits with
  | .frameKey => { run with opening := run.opening.insert call { opening with awaits := .plaintext } }
  | .plaintext =>
    let settled := { run with opening := run.opening.erase call }
    match run.cryptor.decrypted crypto opening with
    | .error _ => settled
    | .ok plaintext =>
      { settled with
        cryptor := run.cryptor.spend opening
        opened := run.opened ++ [⟨opening.senderId, opening.epoch, opening.counter, plaintext⟩] }

/-- One uninterrupted piece of one call. -/
def step (epochs : KeyEpoch Key) : CryptorEvent → Option (CryptorRun Key FrameKey)
  | .openFrame wire expectedSender =>
    let (cryptor, outcome) := run.cryptor.beginOpen crypto epochs wire expectedSender
    match outcome with
    | .error _ => some { run with cryptor }
    | .ok opening =>
      some { run with cryptor, opening := run.opening.insert run.nextCall opening, nextCall := run.nextCall + 1 }
  | .sealFrame plaintext =>
    let (cryptor, outcome) := run.cryptor.beginSeal epochs plaintext
    match outcome with
    | .error _ => some { run with cryptor }
    | .ok sealing =>
      some { run with cryptor, sealing := run.sealing.insert run.nextCall sealing, nextCall := run.nextCall + 1 }
  | .opens call => (run.opening.lookup call).map (run.opens crypto call)
  | .rejects call => some { run with opening := run.opening.erase call, sealing := run.sealing.erase call }
  | .seals call _ => (run.sealing.lookup call).map fun _ => { run with sealing := run.sealing.erase call }

end CryptorRun

end Burble.E2EE
