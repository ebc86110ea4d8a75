import Burble.Json
import Burble.Bytes

namespace Burble.Bolt

def magic : List UInt8 := [0x42, 0x55, 0x52, 0x42]
def version : UInt8 := 1
def noMac : List UInt8 := [0, 0, 0, 0, 0, 0]

def flagHasTargetMac : UInt8 := 1
def flagHasSenderMac : UInt8 := 2
def flagNaptrRouted : UInt8 := 4
def flagRequestAck : UInt8 := 8

/-- A decoded bolt packet. -/
structure Packet where
  targetMac : Option (List UInt8)
  senderMac : Option (List UInt8)
  payload : Json
  flags : UInt8
  naptrRouted : Bool
  requestAck : Bool

structure PacketOptions where
  targetMac : Option (List UInt8)
  senderMac : Option (List UInt8)
  naptrRouted : Bool
  requestAck : Bool

inductive PacketError
  | badMagic
  | tooShort
  | truncatedPayload
  | invalidJson
  deriving DecidableEq, Repr

def setFlag (flags bit : UInt8) (set : Bool) : UInt8 := if set then flags ||| bit else flags

def flagSet (flags bit : UInt8) : Bool := flags &&& bit ≠ 0

/-- Nothing when a MAC is not six bytes, where the source raises. The length field keeps
the low 16 bits. -/
def encode (encodeJson : Json → List UInt8) (payload : Json) (opts : PacketOptions) : Option (List UInt8) :=
  let targetMac := opts.targetMac.getD noMac
  let senderMac := opts.senderMac.getD noMac
  if targetMac.length = 6 ∧ senderMac.length = 6 then
    let flags := setFlag (setFlag (setFlag (setFlag 0 flagHasTargetMac (targetMac ≠ noMac))
      flagHasSenderMac (senderMac ≠ noMac)) flagNaptrRouted opts.naptrRouted) flagRequestAck opts.requestAck
    let json := encodeJson payload
    some (magic ++ [version, flags] ++ targetMac ++ senderMac ++ (List.replicate 16 targetMac).flatten ++
      [(json.length / 256).toUInt8, json.length.toUInt8] ++ json)
  else none

/-- Magic, version, flags, two MACs, the body, the payload length and the payload. -/
def decode (decodeJson : List UInt8 → Option Json) (data : List UInt8) : Except PacketError Packet :=
  if data.take 4 = magic ∧ 116 ≤ data.length ∧ data.getD 4 0 = version then
    let flags := data.getD 5 0
    let payloadLen := (data.getD 114 0).toNat * 256 + (data.getD 115 0).toNat
    let json := data.drop 116
    if json.length = payloadLen then
      match decodeJson json with
      | some payload =>
        .ok { targetMac := if flagSet flags flagHasTargetMac then some ((data.drop 6).take 6) else none,
              senderMac := if flagSet flags flagHasSenderMac then some ((data.drop 12).take 6) else none,
              payload, flags, naptrRouted := flagSet flags flagNaptrRouted,
              requestAck := flagSet flags flagRequestAck }
      | none => .error .invalidJson
    else .error .truncatedPayload
  else if 4 ≤ data.length ∧ data.take 4 ≠ magic then .error .badMagic
  else .error .tooShort

def hexDigit (value : Nat) : Char := "0123456789abcdef".toList.getD value '0'

/-- A MAC as `aa:bb:cc:dd:ee:ff`. -/
def formatMac (mac : List UInt8) : String :=
  ":".intercalate (mac.map fun byte => String.ofList [hexDigit (byte.toNat / 16), hexDigit (byte.toNat % 16)])

end Burble.Bolt

namespace Burble.Bolt

/-- A MAC as it is read back: all zeros stand for none. -/
def presentMac (mac : Option (List UInt8)) : Option (List UInt8) := mac.filter fun mac => mac ≠ noMac

def flagsOf (opts : PacketOptions) : UInt8 :=
  setFlag (setFlag (setFlag (setFlag 0 flagHasTargetMac (opts.targetMac.getD noMac ≠ noMac))
    flagHasSenderMac (opts.senderMac.getD noMac ≠ noMac)) flagNaptrRouted opts.naptrRouted) flagRequestAck opts.requestAck

/-- The packet that a payload and options ask for. -/
def packetOf (payload : Json) (opts : PacketOptions) : Packet where
  targetMac := presentMac opts.targetMac
  senderMac := presentMac opts.senderMac
  payload
  flags := flagsOf opts
  naptrRouted := opts.naptrRouted
  requestAck := opts.requestAck

/-- The length field of a packet. -/
def payloadLength (data : List UInt8) : Nat := (data.getD 114 0).toNat * 256 + (data.getD 115 0).toNat

section RoundTrip
variable {encodeJson : Json → List UInt8} {decodeJson : List UInt8 → Option Json} {payload : Json} {opts : PacketOptions}
  {data : List UInt8} {packet : Packet}

/-- Each flag is set on its own. -/
theorem flagSet_flagsOf (opts : PacketOptions) :
    flagSet (flagsOf opts) flagHasTargetMac = decide (opts.targetMac.getD noMac ≠ noMac) ∧
      flagSet (flagsOf opts) flagHasSenderMac = decide (opts.senderMac.getD noMac ≠ noMac) ∧
      flagSet (flagsOf opts) flagNaptrRouted = opts.naptrRouted ∧ flagSet (flagsOf opts) flagRequestAck = opts.requestAck := by
  rw [flagsOf]
  generalize decide (opts.targetMac.getD noMac ≠ noMac) = target, decide (opts.senderMac.getD noMac ≠ noMac) = sender,
    opts.naptrRouted = naptr, opts.requestAck = ack
  cases target <;> cases sender <;> cases naptr <;> cases ack <;> decide

theorem presentMac_eq (mac : Option (List UInt8)) :
    (if decide (mac.getD noMac ≠ noMac) then some (mac.getD noMac) else none) = presentMac mac := by
  cases mac with
  | none => rfl
  | some mac => simp [presentMac, Option.filter]

theorem exists_six {mac : List UInt8} (six : mac.length = 6) : ∃ a b c d e f, mac = [a, b, c, d, e, f] := by
  match mac, six with
  | [a, b, c, d, e, f], _ => exact ⟨a, b, c, d, e, f, rfl⟩

theorem encode_eq (encoded : encode encodeJson payload opts = some data) :
    (opts.targetMac.getD noMac).length = 6 ∧ (opts.senderMac.getD noMac).length = 6 ∧
      data = magic ++ [version, flagsOf opts] ++ opts.targetMac.getD noMac ++ opts.senderMac.getD noMac ++
        (List.replicate 16 (opts.targetMac.getD noMac)).flatten ++
        [((encodeJson payload).length / 256).toUInt8, (encodeJson payload).length.toUInt8] ++ encodeJson payload := by
  unfold encode at encoded
  dsimp only at encoded
  split at encoded
  next sixes =>
    cases encoded
    exact ⟨sixes.1, sixes.2, rfl⟩
  next => cases encoded

/-- Where each part of an encoded packet stands. -/
theorem encode_layout (encoded : encode encodeJson payload opts = some data) :
    data.take 4 = magic ∧ data.getD 4 0 = version ∧ data.getD 5 0 = flagsOf opts ∧
      (data.drop 6).take 6 = opts.targetMac.getD noMac ∧ (data.drop 12).take 6 = opts.senderMac.getD noMac ∧
      payloadLength data = (encodeJson payload).length % 65536 ∧ data.drop 116 = encodeJson payload ∧
      data.length = 116 + (encodeJson payload).length := by
  obtain ⟨targetSix, senderSix, rfl⟩ := encode_eq encoded
  obtain ⟨a, b, c, d, e, f, target⟩ := exists_six targetSix
  obtain ⟨a', b', c', d', e', f', sender⟩ := exists_six senderSix
  rw [target, sender]
  generalize encodeJson payload = json
  refine ⟨rfl, rfl, rfl, rfl, rfl, ?_, rfl, ?_⟩
  · have high : (json.length / 256).toUInt8.toNat = json.length / 256 % 256 := UInt8.toNat_ofNat
    have low : json.length.toUInt8.toNat = json.length % 256 := UInt8.toNat_ofNat
    show (json.length / 256).toUInt8.toNat * 256 + json.length.toUInt8.toNat = json.length % 65536
    rw [high, low]
    omega
  · show json.length + 116 = 116 + json.length
    omega

theorem decode_ok (accepted : decode decodeJson data = .ok packet) : data.length = 116 + payloadLength data := by
  unfold decode at accepted
  split at accepted
  next shaped =>
    dsimp only at accepted
    split at accepted
    next whole =>
      rw [List.length_drop] at whole
      rw [payloadLength]
      omega
    next => cases accepted
  next => split at accepted <;> cases accepted

/-- A packet is read back exactly if the length of its payload fits the length field, and every packet that
is accepted is as long as it says. -/
theorem packet_round_trips_iff (encodeJson : Json → List UInt8) (decodeJson : List UInt8 → Option Json) :
    (∀ payload opts data, decodeJson (encodeJson payload) = some payload → encode encodeJson payload opts = some data →
      (decode decodeJson data = .ok (packetOf payload opts) ↔ (encodeJson payload).length < 65536)) ∧
    ∀ data packet, decode decodeJson data = .ok packet → data.length = 116 + payloadLength data := by
  refine ⟨fun payload opts data read encoded => ?_, fun data packet => decode_ok⟩
  obtain ⟨atMagic, atVersion, atFlags, atTarget, atSender, atLength, atPayload, size⟩ := encode_layout encoded
  constructor
  · intro decoded
    have whole := decode_ok decoded
    have bound : (encodeJson payload).length % 65536 < 65536 := Nat.mod_lt _ (by decide)
    omega
  · intro fits
    obtain ⟨target, sender, naptr, ack⟩ := flagSet_flagsOf opts
    rw [payloadLength, Nat.mod_eq_of_lt fits] at atLength
    unfold decode
    dsimp only
    rw [if_pos ⟨atMagic, by omega, atVersion⟩, atPayload, if_pos atLength.symm, read, atFlags, atTarget, atSender]
    dsimp only
    rw [target, sender, naptr, ack, presentMac_eq, presentMac_eq]
    rfl

end RoundTrip

/-- `{"x":"aa..a"}` with so many letters, as a value and as a text. -/
def letters (count : Nat) : Json := .object [("x", .string (String.ofList (List.replicate count 'a')))]

def lettersText (count : Nat) : List UInt8 :=
  [123, 34, 120, 34, 58, 34] ++ List.replicate count 97 ++ [34, 125]

/-- JSON for one value. -/
def jsonOf (count : Nat) : (Json → List UInt8) × (List UInt8 → Option Json) :=
  (fun _ => lettersText count, fun text => if text = lettersText count then some (letters count) else none)

theorem jsonOf_read (count : Nat) : (jsonOf count).2 ((jsonOf count).1 (letters count)) = some (letters count) :=
  if_pos rfl

theorem lettersText_length (count : Nat) : (lettersText count).length = count + 8 := by
  simp [lettersText]

def plain : PacketOptions := ⟨none, none, false, false⟩

theorem encode_plain (encodeJson : Json → List UInt8) (payload : Json) :
    ∃ data, encode encodeJson payload plain = some data := by
  unfold encode
  exact ⟨_, if_pos ⟨rfl, rfl⟩⟩

/-- A payload of 65536 letters is cut off. -/
theorem long_payload_lost : ¬ ∀ (encodeJson : Json → List UInt8) (decodeJson : List UInt8 → Option Json) payload opts data,
    decodeJson (encodeJson payload) = some payload → encode encodeJson payload opts = some data →
      decode decodeJson data = .ok (packetOf payload opts) := by
  intro always
  obtain ⟨data, encoded⟩ := encode_plain (jsonOf 65536).1 (letters 65536)
  have whole := decode_ok (always _ _ _ plain data (jsonOf_read 65536) encoded)
  obtain ⟨-, -, -, -, -, atLength, -, size⟩ := encode_layout encoded
  have long : ((jsonOf 65536).1 (letters 65536)).length = 65536 + 8 := lettersText_length 65536
  rw [long] at atLength size
  omega

theorem packet_round_trips_short : ∃ data, encode (jsonOf 3).1 (letters 3) plain = some data ∧
    decode (jsonOf 3).2 data = .ok (packetOf (letters 3) plain) ∧ data.length = 116 + 11 := by
  obtain ⟨data, encoded⟩ := encode_plain (jsonOf 3).1 (letters 3)
  have round := packet_round_trips_iff (jsonOf 3).1 (jsonOf 3).2
  have fits : ((jsonOf 3).1 (letters 3)).length < 65536 := by decide
  have decoded := (round.1 _ plain data (jsonOf_read 3) encoded).mpr fits
  obtain ⟨-, -, -, -, -, -, -, size⟩ := encode_layout encoded
  exact ⟨data, encoded, decoded, size⟩

end Burble.Bolt
