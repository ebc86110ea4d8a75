import Burble.Bytes

namespace Burble.Groove

def maxFrame : Nat := 16384

/-- The signals that the voice lane admits, beside the room and the user they are from. -/
inductive SignalBody
  | offer (sdp mediaType : String)
  | answer (sdp mediaType : String)
  | iceCandidate (candidate : String) (sdpMLineIndex : Nat) (sdpMid usernameFragment : String)
  deriving DecidableEq

structure Signal where
  roomId : String
  userId : String
  body : SignalBody
  deriving DecidableEq

namespace VoiceSignal

def encodeString (text : String) : List UInt8 := littleEndian 4 (utf8 text).length ++ utf8 text

def encodeBody : SignalBody → List UInt8
  | .offer sdp mediaType | .answer sdp mediaType => encodeString sdp ++ encodeString mediaType
  | .iceCandidate candidate sdpMLineIndex sdpMid usernameFragment =>
    encodeString candidate ++ littleEndian 2 sdpMLineIndex ++ encodeString sdpMid ++ encodeString usernameFragment

def tag : SignalBody → UInt8
  | .offer .. => 9
  | .answer .. => 10
  | .iceCandidate .. => 11

def encode (signal : Signal) : List UInt8 :=
  tag signal.body :: (encodeString signal.roomId ++ (encodeString signal.userId ++ encodeBody signal.body))

/-- A length and as many bytes of text. -/
def decodeString (data : List UInt8) : Option (String × List UInt8) :=
  if data.length < 4 then none
  else
    let length := ofLittleEndian (data.take 4)
    if (data.drop 4).length < length then none
    else (ofUtf8 ((data.drop 4).take length)).map fun text => (text, (data.drop 4).drop length)

def decodeUint16 (data : List UInt8) : Option (Nat × List UInt8) :=
  if data.length < 2 then none else some (ofLittleEndian (data.take 2), data.drop 2)

def decodeSdp (make : String → String → SignalBody) (data : List UInt8) : Option (SignalBody × List UInt8) := do
  let (sdp, rest) ← decodeString data
  let (mediaType, rest) ← decodeString rest
  return (make sdp mediaType, rest)

def decodeIceCandidate (data : List UInt8) : Option (SignalBody × List UInt8) := do
  let (candidate, rest) ← decodeString data
  let (sdpMLineIndex, rest) ← decodeUint16 rest
  let (sdpMid, rest) ← decodeString rest
  let (usernameFragment, rest) ← decodeString rest
  return (.iceCandidate candidate sdpMLineIndex sdpMid usernameFragment, rest)

def decodeBody (tag : UInt8) (data : List UInt8) : Option (SignalBody × List UInt8) :=
  if tag = 9 then decodeSdp .offer data
  else if tag = 10 then decodeSdp .answer data
  else if tag = 11 then decodeIceCandidate data
  else none

/-- The offers, answers and candidates among the voice signals. -/
def decode : List UInt8 → Option (Signal × List UInt8)
  | [] => none
  | tag :: payload => do
    let (roomId, rest) ← decodeString payload
    let (userId, rest) ← decodeString rest
    let (body, rest) ← decodeBody tag rest
    return (⟨roomId, userId, body⟩, rest)

/-- A text that is written is read back. -/
theorem decodeString_encodeString {text : String} (small : (utf8 text).length < 256 ^ 4) (rest : List UInt8) :
    decodeString (encodeString text ++ rest) = some (text, rest) := by
  have width : (littleEndian 4 (utf8 text).length).length = 4 := littleEndian_length ..
  have front : (encodeString text ++ rest).take 4 = littleEndian 4 (utf8 text).length := by
    rw [encodeString, List.append_assoc, List.take_append_of_le_length (by omega), List.take_of_length_le (by omega)]
  have back : (encodeString text ++ rest).drop 4 = utf8 text ++ rest := by
    rw [encodeString, List.append_assoc, List.drop_append_of_le_length (by omega), List.drop_of_length_le (by omega),
      List.nil_append]
  have long : ¬ (encodeString text ++ rest).length < 4 := by
    simp only [encodeString, List.length_append, width]
    omega
  unfold decodeString
  simp only [if_neg long, front, back, ofLittleEndian_of_lt small]
  rw [if_neg (by rw [List.length_append]; omega), List.take_append_of_le_length le_rfl, List.take_length, ofUtf8_utf8,
    List.drop_append_of_le_length le_rfl, List.drop_length, List.nil_append, Option.map_some]

end VoiceSignal

/-- Frames are canonical: what is not written as it would be written here is refused. -/
def decodeFrame (bytes : List UInt8) : Option Signal :=
  if 1 ≤ bytes.length ∧ bytes.length ≤ maxFrame then
    match VoiceSignal.decode bytes with
    | some (signal, []) => if VoiceSignal.encode signal = bytes then some signal else none
    | _ => none
  else none

theorem decodeFrame_encode {signal read : Signal} (decoded : decodeFrame (VoiceSignal.encode signal) = some read) :
    read.roomId = signal.roomId ∧ read.userId = signal.userId := by
  obtain ⟨roomId, userId, body⟩ := signal
  unfold decodeFrame at decoded
  obtain ⟨⟨_, fits⟩, decoded⟩ := Option.ite_none_right_eq_some.mp decoded
  simp only [VoiceSignal.encode, List.length_cons, List.length_append, VoiceSignal.encodeString, littleEndian_length,
    maxFrame] at fits
  have room : (utf8 roomId).length < 256 ^ 4 := by omega
  have user : (utf8 userId).length < 256 ^ 4 := by omega
  simp only [VoiceSignal.encode, VoiceSignal.decode, VoiceSignal.decodeString_encodeString room,
    VoiceSignal.decodeString_encodeString user, bind, Option.bind, pure] at decoded
  split at decoded
  next found rest isBody =>
    obtain ⟨_, ⟨⟩⟩ := Option.ite_none_right_eq_some.mp decoded
    split at isBody
    · cases isBody
    · simp only [Option.some.injEq, Prod.mk.injEq] at isBody
      obtain ⟨rfl, _⟩ := isBody
      exact ⟨rfl, rfl⟩
  next => cases decoded

example : decodeFrame (VoiceSignal.encode ⟨"r", "p", .offer "v=0" "audio"⟩) = some ⟨"r", "p", .offer "v=0" "audio"⟩ := by
  decide

end Burble.Groove
