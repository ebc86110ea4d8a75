import Burble.Bytes
import Burble.FiniteMap

namespace Burble.Presence

def magic : UInt8 := 0x42
def wireVersion : UInt8 := 0x1
def ftKnock : UInt8 := 0x1
def knockVt : UInt8 := 0x11
def payloadBytes : Nat := 24
def knockMacBytes : Nat := 12
def labelKnock : List UInt8 := utf8 "BRBL-KNOCK-v1"

/-- Seconds of clock skew accepted to either side. -/
def windowS : Int := 30

/-- HMAC-SHA256 of a message under a secret: code outside this repository. -/
structure Hmac where
  digest : List UInt8 → List UInt8 → List UInt8
  length (secret message : List UInt8) : (digest secret message).length = 32

/-- The one-shot ledger: each nonce with the time until which it is kept. -/
abbrev Nonces := FiniteMap (List UInt8) Int

inductive VerifyError
  | badLength
  | badMagic
  | badVersion
  | badFrameType
  | staleTimestamp
  | badMac
  | replayedNonce
  deriving DecidableEq, Repr

inductive Verdict
  | ok
  | error (reason : VerifyError)
  deriving DecidableEq, Repr

/-- The fields of a payload of 24 bytes. -/
structure Frame where
  magic : UInt8
  verType : UInt8
  ts : Nat
  nonce : List UInt8
  mac : List UInt8
  deriving DecidableEq

def Frame.read (payload : List UInt8) : Frame where
  magic := payload.getD 0 0
  verType := payload.getD 1 0
  ts := ofBigEndian ((payload.drop 2).take 4)
  nonce := (payload.drop 6).take 6
  mac := (payload.drop 12).take 12

section Knocks
variable (hmac : Hmac)

def knockMac (roomSecret prefix12 : List UInt8) : List UInt8 :=
  (hmac.digest roomSecret (labelKnock ++ prefix12)).take knockMacBytes

/-- What a knock says before its MAC: a time of 32 bits and 6 bytes of nonce. -/
def knockPrefix (ts : Nat) (nonce6 : List UInt8) : List UInt8 := [magic, knockVt] ++ bigEndian 4 ts ++ nonce6

def encodeKnock (roomSecret : List UInt8) (ts : Nat) (nonce6 : List UInt8) : List UInt8 :=
  knockPrefix ts nonce6 ++ knockMac hmac roomSecret (knockPrefix ts nonce6)

def withinWindow (ts now : Int) : Bool := (now - ts).natAbs ≤ windowS

/-- Delete every entry whose expiry is in the past. -/
def prune (now : Int) (nonces : Nonces) : Nonces := nonces.filterValues fun expiry => ¬ expiry < now

def recordNonce (nonce : List UInt8) (ts now : Int) (nonces : Nonces) : Verdict × Nonces :=
  let nonces := prune now nonces
  let recorded := nonces.insert nonce (ts + windowS)
  match nonces.lookup nonce with
  | some expiry => if now ≤ expiry then (.error .replayedNonce, nonces) else (.ok, recorded)
  | none => (.ok, recorded)

def verifyKnock (payload roomSecret : List UInt8) (now : Int) (checkReplay : Bool) (nonces : Nonces) : Verdict × Nonces :=
  if payload.length ≠ payloadBytes then (.error .badLength, nonces)
  else
    let frame := Frame.read payload
    if frame.magic ≠ magic then (.error .badMagic, nonces)
    else if frame.verType >>> 4 ≠ wireVersion then (.error .badVersion, nonces)
    else if frame.verType &&& 0x0F ≠ ftKnock then (.error .badFrameType, nonces)
    else if ¬ withinWindow frame.ts now then (.error .staleTimestamp, nonces)
    else if frame.mac ≠ knockMac hmac roomSecret (payload.take 12) then (.error .badMac, nonces)
    else if checkReplay then recordNonce frame.nonce frame.ts now nonces
    else (.ok, nonces)

end Knocks

section Reading
variable (hmac : Hmac)

theorem knockMac_length (roomSecret prefix12 : List UInt8) : (knockMac hmac roomSecret prefix12).length = 12 := by
  rw [knockMac, List.length_take, hmac.length]
  rfl

theorem knockPrefix_length (ts : Nat) {nonce6 : List UInt8} (six : nonce6.length = 6) :
    (knockPrefix ts nonce6).length = 12 := by
  simp [knockPrefix, six]

theorem encodeKnock_length (roomSecret : List UInt8) (ts : Nat) {nonce6 : List UInt8} (six : nonce6.length = 6) :
    (encodeKnock hmac roomSecret ts nonce6).length = payloadBytes := by
  rw [encodeKnock, List.length_append, knockPrefix_length ts six, knockMac_length]
  rfl

theorem encodeKnock_take (roomSecret : List UInt8) (ts : Nat) {nonce6 : List UInt8} (six : nonce6.length = 6) :
    (encodeKnock hmac roomSecret ts nonce6).take 12 = knockPrefix ts nonce6 := by
  rw [encodeKnock, List.take_left' (knockPrefix_length ts six)]

/-- A knock is read back, with its time in 32 bits. -/
theorem read_encodeKnock (roomSecret : List UInt8) (ts : Nat) {nonce6 : List UInt8} (six : nonce6.length = 6) :
    Frame.read (encodeKnock hmac roomSecret ts nonce6) =
      ⟨magic, knockVt, ts % 2 ^ 32, nonce6, knockMac hmac roomSecret (knockPrefix ts nonce6)⟩ := by
  have time : ofBigEndian (bigEndian 4 ts) = ts % 2 ^ 32 := by
    rw [ofBigEndian, bigEndian, List.reverse_reverse, ofLittleEndian_littleEndian]
    rfl
  have four : (bigEndian 4 ts).length = 4 := bigEndian_length 4 ts
  have twelve := knockPrefix_length ts six
  have mac : (encodeKnock hmac roomSecret ts nonce6).drop 12 = knockMac hmac roomSecret (knockPrefix ts nonce6) := by
    rw [encodeKnock, List.drop_left' twelve]
  have rest (tail : List UInt8) : (knockPrefix ts nonce6 ++ tail).drop 2 = bigEndian 4 ts ++ (nonce6 ++ tail) := by
    simp [knockPrefix]
  have nonce : ((encodeKnock hmac roomSecret ts nonce6).drop 6).take 6 = nonce6 := by
    have split : (encodeKnock hmac roomSecret ts nonce6).drop 6 = ((encodeKnock hmac roomSecret ts nonce6).drop 2).drop 4 := by
      rw [List.drop_drop]
    rw [split, encodeKnock, rest, List.drop_left' four, List.take_left' six]
  have stamp : ((encodeKnock hmac roomSecret ts nonce6).drop 2).take 4 = bigEndian 4 ts := by
    rw [encodeKnock, rest, List.take_left' four]
  have whole : ((encodeKnock hmac roomSecret ts nonce6).drop 12).take 12 =
      knockMac hmac roomSecret (knockPrefix ts nonce6) := by
    rw [mac, List.take_of_length_le (knockMac_length hmac _ _).le]
  rw [Frame.read, nonce, stamp, whole, time]
  rfl

/-- The version and the type of a knock leave one byte. -/
theorem verType_iff (verType : UInt8) : verType >>> 4 = wireVersion ∧ verType &&& 0x0F = ftKnock ↔ verType = knockVt := by
  have all : ∀ n < 256, (n.toUInt8 >>> (4 : UInt8) = wireVersion ∧ n.toUInt8 &&& 0x0F = ftKnock ↔ n.toUInt8 = knockVt) := by
    decide +kernel
  have same : verType.toNat.toUInt8 = verType := UInt8.ofNat_toNat
  have found := all verType.toNat verType.toNat_lt
  rwa [same] at found

/-- A payload of the right length is made of its fields. -/
theorem take_eq_knockPrefix {payload : List UInt8} (length : payload.length = payloadBytes)
    (isMagic : (Frame.read payload).magic = magic) (isKnock : (Frame.read payload).verType = knockVt) :
    payload.take 12 = knockPrefix (Frame.read payload).ts (Frame.read payload).nonce := by
  obtain ⟨first, second, rest, rfl⟩ : ∃ first second rest, payload = first :: second :: rest := by
    match payload, length with
    | first :: second :: rest, _ => exact ⟨first, second, rest, rfl⟩
  have same : first = magic := isMagic
  have other : second = knockVt := isKnock
  have long : rest.length = 22 := by simpa [payloadBytes] using length
  have four : (rest.take 4).length = 4 := by simp [long]
  have time : bigEndian 4 (ofBigEndian (rest.take 4)) = rest.take 4 := by
    have back := littleEndian_ofLittleEndian (rest.take 4).reverse
    rw [List.length_reverse, four] at back
    rw [bigEndian, ofBigEndian, back, List.reverse_reverse]
  have split : rest.take (4 + 6) = rest.take 4 ++ (rest.drop 4).take 6 := List.take_add
  simp only [knockPrefix, Frame.read, List.drop_succ_cons, List.drop_zero, time, List.take_succ_cons, same, other,
    List.cons_append, List.nil_append, split]

end Reading

section Verifying
variable {hmac : Hmac} {payload roomSecret : List UInt8} {now : Int} {nonces : Nonces}

theorem prune_lookup (now : Int) (nonces : Nonces) (nonce : List UInt8) :
    (prune now nonces).lookup nonce = (nonces.lookup nonce).filter fun expiry => decide (¬ expiry < now) :=
  FiniteMap.lookup_filterValues ..

/-- A nonce is recorded when no live entry holds it. -/
theorem recordNonce_cases (nonce : List UInt8) (ts now : Int) (nonces : Nonces) :
    (recordNonce nonce ts now nonces = (.error .replayedNonce, prune now nonces) ∧
      ∃ expiry, nonces.lookup nonce = some expiry ∧ now ≤ expiry) ∨
    (recordNonce nonce ts now nonces = (.ok, (prune now nonces).insert nonce (ts + windowS)) ∧
      ∀ expiry, nonces.lookup nonce = some expiry → expiry < now) := by
  unfold recordNonce
  rcases FiniteMap.lookup_filterValues_cases (fun expiry => decide (¬ expiry < now)) nonces nonce with
    ⟨expiry, found, live, kept⟩ | ⟨none, gone⟩
  · have inTime : now ≤ expiry := Int.not_lt.mp (of_decide_eq_true live)
    refine .inl ⟨?_, expiry, found, inTime⟩
    simp only [prune, kept, if_pos inTime]
  · refine .inr ⟨?_, fun expiry found => not_not.mp (of_decide_eq_false (gone expiry found))⟩
    simp only [prune, none]

/-- A payload is refused before the ledger is read, or it is a knock under the secret and in time. -/
theorem verifyKnock_cases (hmac : Hmac) (payload roomSecret : List UInt8) (now : Int) (nonces : Nonces) :
    (∃ reason, verifyKnock hmac payload roomSecret now true nonces = (.error reason, nonces)) ∨
      payload.length = payloadBytes ∧
      payload = encodeKnock hmac roomSecret (Frame.read payload).ts (Frame.read payload).nonce ∧
      withinWindow (Frame.read payload).ts now = true ∧
      verifyKnock hmac payload roomSecret now true nonces =
        recordNonce (Frame.read payload).nonce (Frame.read payload).ts now nonces := by
  unfold verifyKnock
  simp only
  split
  · exact .inl ⟨_, rfl⟩
  next length =>
    split
    · exact .inl ⟨_, rfl⟩
    next isMagic =>
      split
      · exact .inl ⟨_, rfl⟩
      next version =>
        split
        · exact .inl ⟨_, rfl⟩
        next type =>
          split
          · exact .inl ⟨_, rfl⟩
          next inTime =>
            split
            · exact .inl ⟨_, rfl⟩
            next mac =>
              rw [not_not] at length isMagic version type inTime mac
              have isKnock := (verType_iff _).mp ⟨version, type⟩
              have front := take_eq_knockPrefix length isMagic isKnock
              have long : (payload.drop 12).length ≤ 12 := by simp [length, payloadBytes]
              have back : payload.drop 12 = (Frame.read payload).mac := (List.take_of_length_le long).symm
              refine .inr ⟨length, ?_, inTime, if_pos trivial⟩
              rw [encodeKnock, ← front, ← mac, ← back, List.take_append_drop]

/-- A knock that is in time gets as far as the ledger, where this is checked. -/
theorem verifyKnock_encodeKnock (hmac : Hmac) (roomSecret : List UInt8) {ts : Nat} {nonce6 : List UInt8} (six : nonce6.length = 6)
    (fits : ts < 2 ^ 32) (now : Int) (checkReplay : Bool) (nonces : Nonces) :
    verifyKnock hmac (encodeKnock hmac roomSecret ts nonce6) roomSecret now checkReplay nonces =
      if withinWindow ts now then if checkReplay then recordNonce nonce6 ts now nonces else (.ok, nonces)
      else (.error .staleTimestamp, nonces) := by
  have type := (verType_iff knockVt).mpr rfl
  unfold verifyKnock
  simp only [read_encodeKnock hmac roomSecret ts six, encodeKnock_length hmac roomSecret ts six, encodeKnock_take hmac
    roomSecret ts six, Nat.mod_eq_of_lt fits, type.1, type.2, ne_eq, not_true_eq_false, if_false, Bool.not_eq_true]
  cases withinWindow ts now <;> rfl

end Verifying

/-! Responses and beacons. -/

def ftPresence : UInt8 := 0x2
def ftResponse : UInt8 := 0x3
def presenceVt : UInt8 := 0x12
def responseVt : UInt8 := 0x13
def respTokenBytes : Nat := 16
def beaconIdBytes : Nat := 18
def labelResp : List UInt8 := utf8 "BRBL-RESP-v1"
def labelPres : List UInt8 := utf8 "BRBL-PRES-v1"

def epochSeconds : Nat := 900

inductive MatchError
  | badLength
  | badMagic
  | badVersion
  | badFrameType
  | badToken
  deriving DecidableEq, Repr

section Frames
variable (hmac : Hmac)

/-- What addresses a response to one knock. -/
def responseToken (roomSecret : List UInt8) (knockTs : Nat) (knockNonce : List UInt8) : List UInt8 :=
  (hmac.digest roomSecret (labelResp ++ bigEndian 4 knockTs ++ knockNonce)).take respTokenBytes

/-- The port of the responder stands behind the token, which does not cover it. -/
def encodeResponse (roomSecret : List UInt8) (knockTs : Nat) (knockNonce : List UInt8) (respTs psm : Nat) : List UInt8 :=
  [magic, responseVt] ++ bigEndian 4 respTs ++ (responseToken hmac roomSecret knockTs knockNonce ++ bigEndian 2 psm)

def matchResponse (payload roomSecret : List UInt8) (knockTs : Nat) (knockNonce : List UInt8) : Except MatchError Nat :=
  if payload.length ≠ payloadBytes then .error .badLength
  else
    let frame := Frame.read payload
    let token := (payload.drop 6).take respTokenBytes
    let psm := ofBigEndian ((payload.drop 6).drop respTokenBytes)
    if frame.magic ≠ magic then .error .badMagic
    else if frame.verType >>> 4 ≠ wireVersion then .error .badVersion
    else if frame.verType &&& 0x0F ≠ ftResponse then .error .badFrameType
    else if token ≠ responseToken hmac roomSecret knockTs knockNonce then .error .badToken
    else .ok psm

/-- The quarter of an hour of a time, which is not before 1970. -/
def epoch (unixS : Nat) : Nat := unixS / epochSeconds

def beaconId (presenceSecret : List UInt8) (epoch : Nat) : List UInt8 :=
  (hmac.digest presenceSecret (labelPres ++ ([magic, presenceVt] ++ bigEndian 4 epoch))).take beaconIdBytes

def encodePresence (presenceSecret : List UInt8) (epoch : Nat) : List UInt8 :=
  [magic, presenceVt] ++ bigEndian 4 epoch ++ beaconId hmac presenceSecret epoch

/-- The first contact whose beacon it is. -/
def resolvePresence {Id : Type} (payload : List UInt8) (contacts : List (Id × List UInt8)) (now : Nat) : Option Id :=
  let frame := Frame.read payload
  if payload.length = payloadBytes ∧ frame.magic = magic ∧ frame.verType >>> 4 = wireVersion ∧
      frame.verType &&& 0x0F = ftPresence ∧ ((epoch now : Int) - frame.ts).natAbs ≤ 1 then
    (contacts.find? fun contact => payload.drop 6 = beaconId hmac contact.2 frame.ts).map (·.1)
  else none

end Frames

section Resolving
variable {hmac : Hmac} {payload roomSecret : List UInt8}

theorem responseToken_length (hmac : Hmac) (roomSecret : List UInt8) (knockTs : Nat) (knockNonce : List UInt8) :
    (responseToken hmac roomSecret knockTs knockNonce).length = respTokenBytes := by
  rw [responseToken, List.length_take, hmac.length]
  rfl

theorem beaconId_length (hmac : Hmac) (presenceSecret : List UInt8) (epoch : Nat) :
    (beaconId hmac presenceSecret epoch).length = beaconIdBytes := by
  rw [beaconId, List.length_take, hmac.length]
  rfl

/-- Every frame is a byte that is always the same, one for its type, a number of 32 bits and 18 bytes more. -/
theorem frame_parts {verType : UInt8} (length : payload.length = payloadBytes) (isMagic : (Frame.read payload).magic = magic)
    (isType : (Frame.read payload).verType = verType) :
    payload = [magic, verType] ++ bigEndian 4 (Frame.read payload).ts ++ payload.drop 6 ∧ (Frame.read payload).ts < 2 ^ 32 := by
  obtain ⟨first, second, rest, rfl⟩ : ∃ first second rest, payload = first :: second :: rest := by
    match payload, length with
    | first :: second :: rest, _ => exact ⟨first, second, rest, rfl⟩
  have same : first = magic := isMagic
  have other : second = verType := isType
  have four : (rest.take 4).length = 4 := by
    have long : rest.length = 22 := by simpa [payloadBytes] using length
    simp [long]
  have time : bigEndian 4 (ofBigEndian (rest.take 4)) = rest.take 4 := bigEndian_ofBigEndian four
  refine ⟨?_, ofBigEndian_lt four⟩
  simp only [Frame.read, List.drop_succ_cons, List.drop_zero, time, same, other, List.cons_append, List.nil_append,
    List.take_append_drop]

theorem frame_read (verType : UInt8) {number : Nat} {tail : List UInt8} (fits : number < 2 ^ 32)
    (long : tail.length = beaconIdBytes) :
    ([magic, verType] ++ bigEndian 4 number ++ tail).length = payloadBytes ∧
      (Frame.read ([magic, verType] ++ bigEndian 4 number ++ tail)).magic = magic ∧
      (Frame.read ([magic, verType] ++ bigEndian 4 number ++ tail)).verType = verType ∧
      (Frame.read ([magic, verType] ++ bigEndian 4 number ++ tail)).ts = number ∧
      ([magic, verType] ++ bigEndian 4 number ++ tail).drop 6 = tail := by
  have four : (bigEndian 4 number).length = 4 := bigEndian_length 4 number
  have behind : ([magic, verType] ++ bigEndian 4 number ++ tail).drop 2 = bigEndian 4 number ++ tail := by
    rw [List.append_assoc]
    rfl
  refine ⟨by simp [long, payloadBytes, beaconIdBytes], rfl, rfl, ?_, ?_⟩
  · rw [Frame.read, behind, List.take_left' four, ofBigEndian_of_lt fits]
  · have split : ([magic, verType] ++ bigEndian 4 number ++ tail).drop 6 =
        (([magic, verType] ++ bigEndian 4 number ++ tail).drop 2).drop 4 := by rw [List.drop_drop]
    rw [split, behind, List.drop_left' four]

/-- The version and the type leave one byte for each kind of frame. -/
theorem verType_frames (verType : UInt8) :
    (verType >>> 4 = wireVersion ∧ verType &&& 0x0F = ftPresence ↔ verType = presenceVt) ∧
      (verType >>> 4 = wireVersion ∧ verType &&& 0x0F = ftResponse ↔ verType = responseVt) := by
  have all : ∀ n < 256,
      (n.toUInt8 >>> (4 : UInt8) = wireVersion ∧ n.toUInt8 &&& 0x0F = ftPresence ↔ n.toUInt8 = presenceVt) ∧
        (n.toUInt8 >>> (4 : UInt8) = wireVersion ∧ n.toUInt8 &&& 0x0F = ftResponse ↔ n.toUInt8 = responseVt) := by
    decide +kernel
  have same : verType.toNat.toUInt8 = verType := UInt8.ofNat_toNat
  have found := all verType.toNat verType.toNat_lt
  rwa [same] at found

/-- A response to a knock is any payload with the token of the knock, and its port is what stands behind. -/
theorem matchResponse_iff {knockTs psm : Nat} {knockNonce : List UInt8} :
    matchResponse hmac payload roomSecret knockTs knockNonce = .ok psm ↔
      psm < 2 ^ 16 ∧ ∃ respTs < 2 ^ 32, payload = encodeResponse hmac roomSecret knockTs knockNonce respTs psm := by
  have sixteen := responseToken_length hmac roomSecret knockTs knockNonce
  constructor
  · intro found
    unfold matchResponse at found
    split at found
    · cases found
    next length =>
      rw [not_not] at length
      have eighteen : (payload.drop 6).length = 18 := by simp [length, payloadBytes]
      have two : ((payload.drop 6).drop respTokenBytes).length = 2 := by
        rw [List.length_drop, eighteen]
        rfl
      simp only at found
      split at found
      · cases found
      next isMagic =>
        split at found
        · cases found
        next version =>
          split at found
          · cases found
          next type =>
            split at found
            · cases found
            next token =>
              rw [not_not] at isMagic version type token
              obtain ⟨parts, fits⟩ := frame_parts length isMagic ((verType_frames _).2.mp ⟨version, type⟩)
              cases found
              refine ⟨ofBigEndian_lt two, _, fits, ?_⟩
              rw [encodeResponse, bigEndian_ofBigEndian two, ← token, List.take_append_drop]
              exact parts
  · rintro ⟨short, respTs, fits, rfl⟩
    have eighteen : (responseToken hmac roomSecret knockTs knockNonce ++ bigEndian 2 psm).length = beaconIdBytes := by
      rw [List.length_append, sixteen, bigEndian_length]
      rfl
    obtain ⟨length, isMagic, isType, _, behind⟩ := frame_read responseVt fits eighteen
    obtain ⟨version, type⟩ := (verType_frames responseVt).2.mpr rfl
    simp only [matchResponse, encodeResponse, length, isMagic, isType, behind, version, type, List.take_left' sixteen,
      List.drop_left' sixteen, ofBigEndian_of_lt (show psm < 256 ^ 2 from short), ne_eq, not_true_eq_false, if_false]

/-- A payload is resolved to a contact if it is the beacon of its secret in this quarter of an hour or one beside it, and of
    no contact before. -/
theorem resolvePresence_iff {Id : Type} {contacts : List (Id × List UInt8)} {now : Nat} {id : Id} :
    resolvePresence hmac payload contacts now = some id ↔
      ∃ number : Nat, number < 2 ^ 32 ∧ ((epoch now : Int) - number).natAbs ≤ 1 ∧ ∃ front secret back,
        contacts = front ++ (id, secret) :: back ∧ payload = encodePresence hmac secret number ∧
        ∀ other ∈ front, beaconId hmac other.2 number ≠ beaconId hmac secret number := by
  constructor
  · intro found
    unfold resolvePresence at found
    obtain ⟨⟨length, isMagic, version, type, near⟩, found⟩ := Option.ite_none_right_eq_some.mp found
    obtain ⟨⟨_, secret⟩, first, rfl⟩ := Option.map_eq_some_iff.mp found
    obtain ⟨own, front, back, whole, others⟩ := List.find?_eq_some_iff_append.mp first
    obtain ⟨parts, fits⟩ := frame_parts length isMagic ((verType_frames _).1.mp ⟨version, type⟩)
    have same : payload.drop 6 = beaconId hmac secret (Frame.read payload).ts := of_decide_eq_true own
    refine ⟨_, fits, near, front, secret, back, whole, ?_, fun other member equal => ?_⟩
    · rw [encodePresence, ← same]
      exact parts
    · have different := others other member
      simp [same, equal] at different
  · rintro ⟨number, fits, near, front, secret, back, rfl, rfl, others⟩
    obtain ⟨length, isMagic, isType, stamp, behind⟩ := frame_read presenceVt fits (beaconId_length hmac secret number)
    obtain ⟨version, type⟩ := (verType_frames presenceVt).1.mpr rfl
    unfold resolvePresence encodePresence
    simp only [length, isMagic, isType, stamp, behind, version, type, near, and_self, if_true]
    refine Option.map_eq_some_iff.mpr ⟨(id, secret), List.find?_eq_some_iff_append.mpr ⟨by simp, front, back, rfl, ?_⟩, rfl⟩
    intro other member
    simpa using (others other member).symm

/-- Who holds the secret of a beacon resolves it at any clock within a quarter of an hour of the sender's, and no one does at
    a clock that is half an hour off. -/
theorem resolvePresence_clocks {Id : Type} {contacts : List (Id × List UInt8)} {secret : List UInt8} {sent now : Nat}
    (fits : epoch sent < 2 ^ 32) :
    (((now : Int) - sent).natAbs ≤ epochSeconds → (∃ id, (id, secret) ∈ contacts) →
      ∃ id, resolvePresence hmac (encodePresence hmac secret (epoch sent)) contacts now = some id) ∧
    (2 * epochSeconds ≤ ((now : Int) - sent).natAbs →
      resolvePresence hmac (encodePresence hmac secret (epoch sent)) contacts now = none) := by
  obtain ⟨length, isMagic, isType, stamp, behind⟩ :=
    frame_read presenceVt fits (beaconId_length hmac secret (epoch sent))
  obtain ⟨version, type⟩ := (verType_frames presenceVt).1.mpr rfl
  unfold resolvePresence encodePresence
  simp only [length, isMagic, isType, stamp, behind, version, type, true_and]
  constructor
  · rintro close ⟨id, member⟩
    have near : ((epoch now : Int) - epoch sent).natAbs ≤ 1 := by
      simp only [epoch, epochSeconds] at close ⊢
      omega
    rw [if_pos near]
    have found : (contacts.find? fun contact => beaconId hmac secret (epoch sent) = beaconId hmac contact.2 (epoch sent)).isSome :=
      List.find?_isSome.mpr ⟨_, member, by simp⟩
    obtain ⟨contact, first⟩ := Option.isSome_iff_exists.mp found
    exact ⟨contact.1, by rw [first]; rfl⟩
  · intro apart
    have far : ¬ ((epoch now : Int) - epoch sent).natAbs ≤ 1 := by
      simp only [epoch, epochSeconds] at apart ⊢
      omega
    exact if_neg far

/-- Each of the three readers takes payloads of one type only. -/
theorem verifyKnock_verType {stamp : Int} {checkReplay : Bool} {nonces : Nonces}
    (accepted : (verifyKnock hmac payload roomSecret stamp checkReplay nonces).1 = .ok) :
    (Frame.read payload).verType = knockVt := by
  unfold verifyKnock at accepted
  split at accepted
  · cases accepted
  next =>
    simp only at accepted
    split at accepted
    · cases accepted
    next =>
      split at accepted
      · cases accepted
      next version =>
        split at accepted
        · cases accepted
        next type => exact (verType_iff _).mp ⟨not_not.mp version, not_not.mp type⟩

theorem matchResponse_verType {knockTs psm : Nat} {knockNonce : List UInt8}
    (matched : matchResponse hmac payload roomSecret knockTs knockNonce = .ok psm) :
    (Frame.read payload).verType = responseVt := by
  obtain ⟨_, respTs, fits, rfl⟩ := matchResponse_iff.mp matched
  rfl

theorem resolvePresence_verType {Id : Type} {contacts : List (Id × List UInt8)} {now : Nat} {id : Id}
    (resolved : resolvePresence hmac payload contacts now = some id) : (Frame.read payload).verType = presenceVt := by
  obtain ⟨number, fits, _, front, secret, back, _, rfl, _⟩ := resolvePresence_iff.mp resolved
  rfl

theorem resolvePresence_other {Id : Type} {verType : UInt8} (isType : (Frame.read payload).verType = verType)
    (other : verType ≠ presenceVt) (contacts : List (Id × List UInt8)) (now : Nat) :
    resolvePresence hmac payload contacts now = none :=
  Option.eq_none_iff_forall_ne_some.mpr fun _ resolved => other (isType.symm.trans (resolvePresence_verType resolved))

/-- A contact is found by its beacon, by its own and at clocks near the sender's. -/
theorem beacon_resolved (hmac : Hmac) {Id : Type} (contacts : List (Id × List UInt8)) (now : Nat) :
    (∀ payload id, resolvePresence hmac payload contacts now = some id ↔
      ∃ number : Nat, number < 2 ^ 32 ∧ ((epoch now : Int) - number).natAbs ≤ 1 ∧ ∃ front secret back,
        contacts = front ++ (id, secret) :: back ∧ payload = encodePresence hmac secret number ∧
        ∀ other ∈ front, beaconId hmac other.2 number ≠ beaconId hmac secret number) ∧
    ∀ secret sent, epoch sent < 2 ^ 32 →
      (((now : Int) - sent).natAbs ≤ epochSeconds → (∃ id, (id, secret) ∈ contacts) →
        ∃ id, resolvePresence hmac (encodePresence hmac secret (epoch sent)) contacts now = some id) ∧
      (2 * epochSeconds ≤ ((now : Int) - sent).natAbs →
        resolvePresence hmac (encodePresence hmac secret (epoch sent)) contacts now = none) :=
  ⟨fun _ _ => resolvePresence_iff, fun _ _ fits => resolvePresence_clocks fits⟩

/-- A response is matched by the knock it answers, and no payload is a frame of two kinds. -/
theorem response_matched (hmac : Hmac) (payload roomSecret : List UInt8) (knockTs : Nat) (knockNonce : List UInt8) (psm : Nat) :
    (matchResponse hmac payload roomSecret knockTs knockNonce = .ok psm ↔
      psm < 2 ^ 16 ∧ ∃ respTs < 2 ^ 32, payload = encodeResponse hmac roomSecret knockTs knockNonce respTs psm) ∧
    (matchResponse hmac payload roomSecret knockTs knockNonce = .ok psm →
      (∀ secret stamp checkReplay nonces, (verifyKnock hmac payload secret stamp checkReplay nonces).1 ≠ .ok) ∧
      ∀ {Id : Type} (contacts : List (Id × List UInt8)) now, resolvePresence hmac payload contacts now = none) ∧
    ∀ secret stamp checkReplay nonces, (verifyKnock hmac payload secret stamp checkReplay nonces).1 = .ok →
      ∀ {Id : Type} (contacts : List (Id × List UInt8)) now, resolvePresence hmac payload contacts now = none := by
  refine ⟨matchResponse_iff, fun matched => ⟨fun secret stamp checkReplay nonces accepted => ?_, ?_⟩, ?_⟩
  · have one := matchResponse_verType matched
    have two := verifyKnock_verType accepted
    exact absurd (one.symm.trans two) (by decide)
  · exact resolvePresence_other (matchResponse_verType matched) (by decide)
  · exact fun secret stamp checkReplay nonces accepted => resolvePresence_other (verifyKnock_verType accepted) (by decide)

end Resolving
end Burble.Presence
