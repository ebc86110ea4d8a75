import Burble.Fallible
import Burble.Signaling.Channel

namespace Burble.SignalingChannel

/-- Strings whose length fits into its prefix. -/
def Short (bytes : List UInt8) : Prop := bytes.length < 256 ^ 4

def bodyBytes (sdp mediaType : List UInt8) : List UInt8 :=
  littleEndian 4 sdp.length ++ sdp ++ (littleEndian 4 mediaType.length ++ mediaType)

section Strings
variable {Other : Type} {data bytes rest : List UInt8}

theorem decodeString_bytes (short : Short bytes) (rest : List UInt8) :
    decodeString (littleEndian 4 bytes.length ++ bytes ++ rest) = .ok (bytes, rest) := by
  have size := littleEndian_length 4 bytes.length
  rw [List.append_assoc, decodeString]
  simp only [take_littleEndian, drop_littleEndian, ofLittleEndian_of_lt short, List.length_append, size]
  rw [if_neg (by omega), if_neg (by omega), List.take_left, List.drop_left]

theorem decodeString_ok (done : decodeString data = .ok (bytes, rest)) :
    Short bytes ∧ data = littleEndian 4 bytes.length ++ bytes ++ rest := by
  rw [decodeString] at done
  split at done
  · cases done
  next enough =>
    dsimp only at done
    split at done
    · cases done
    next whole =>
      cases done
      have size : ((data.drop 4).take (ofLittleEndian (data.take 4))).length = ofLittleEndian (data.take 4) := by
        rw [List.length_take, List.length_drop]
        rw [List.length_drop] at whole
        omega
      constructor
      · rw [Short, size]
        exact ofLittleEndian_take_lt 4 data
      · rw [size, littleEndian_take (by omega), List.append_assoc, List.take_append_drop, List.take_append_drop]

theorem decodeSdpPayload_body {sdp mediaType : List UInt8} (shortSdp : Short sdp) (shortType : Short mediaType) :
    decodeSdpPayload (bodyBytes sdp mediaType) = .ok ((⟨.binary sdp, .binary mediaType⟩ : SdpPayload Other), []) := by
  have last := decodeString_bytes shortType []
  rw [List.append_nil] at last
  rw [decodeSdpPayload, bodyBytes, decodeString_bytes shortSdp]
  simp only [bind, Except.bind, last]
  rfl

theorem decodeSdpPayload_ok {decoded : SdpPayload Other} (done : decodeSdpPayload data = .ok (decoded, rest)) :
    ∃ sdp mediaType, decoded = ⟨.binary sdp, .binary mediaType⟩ ∧ Short sdp ∧ Short mediaType ∧
      data = bodyBytes sdp mediaType ++ rest := by
  obtain ⟨⟨sdp, rest1⟩, first, done⟩ := Fallible.bind_ok.mp done
  obtain ⟨⟨mediaType, rest2⟩, second, done⟩ := Fallible.bind_ok.mp done
  cases done
  obtain ⟨shortSdp, rfl⟩ := decodeString_ok first
  obtain ⟨shortType, rfl⟩ := decodeString_ok second
  refine ⟨sdp, mediaType, rfl, shortSdp, shortType, ?_⟩
  simp only [bodyBytes, List.append_assoc]

/-- Strings that are too long do not have the bytes of strings that are not. -/
theorem short_of_bodyBytes {sdp mediaType sdp' mediaType' : List UInt8} (short : Short sdp') (short' : Short mediaType')
    (same : bodyBytes sdp mediaType = bodyBytes sdp' mediaType') : Short sdp ∧ Short mediaType := by
  have lengths := congrArg List.length same
  have prefixes := congrArg (fun bytes => ofLittleEndian (bytes.take 4)) same
  simp only [bodyBytes, List.append_assoc, take_littleEndian, ofLittleEndian_littleEndian, List.length_append,
    littleEndian_length] at lengths prefixes
  rw [Short] at short short' ⊢
  rw [Short]
  omega

end Strings

/-- A payload has a Bebop body with this SDP. -/
def Carries {Other : Type} (payload : Payload Other) (sdp : List UInt8) : Prop :=
  payload.lookup "enc" = some (text "bebop") ∧ ∃ b64 mediaType, payload.lookup "sdp_b64" = some (.binary b64) ∧
    Short sdp ∧ Short mediaType ∧ Base64.decode64 b64 = some (bodyBytes sdp mediaType)

/-- A payload with its Bebop body in plain. -/
def plain {Other : Type} (payload : Payload Other) (sdp : List UInt8) : Payload Other :=
  AList.insert "enc" (text "json") (AList.insert "sdp" (.binary sdp) (AList.erase "sdp_b64" payload))

section Bodies
variable {Other : Type} {payload : Payload Other}

theorem lossless_body (sdp mediaType : List UInt8) :
    lossless (⟨.binary sdp, .binary mediaType⟩ : SdpPayload Other) (bodyBytes sdp mediaType) = true := decide_eq_true rfl

theorem decodeSdpBody_carries {sdp : List UInt8} (carries : Carries payload sdp) :
    decodeSdpBody payload = .ok (plain payload sdp) := by
  obtain ⟨enc, b64, mediaType, body, shortSdp, shortType, decoded⟩ := carries
  have done : plainBody payload (.binary b64) = .ok (plain payload sdp) := by
    rw [plainBody, decode64, decoded]
    simp only [bind, Except.bind, decodeSdpPayload_body shortSdp shortType]
    rw [if_pos ⟨trivial, lossless_body sdp mediaType⟩]
    rfl
  rw [decodeSdpBody, enc, body]
  simp only [text, if_true, done]

theorem plainBody_ok {b64 : Term Other} {after : Payload Other} (done : plainBody payload b64 = .ok after) :
    after = payload ∨ ∃ text sdp mediaType, b64 = .binary text ∧ Short sdp ∧ Short mediaType ∧
      Base64.decode64 text = some (bodyBytes sdp mediaType) := by
  obtain ⟨found, decoded, done⟩ := Fallible.bind_ok.mp done
  cases b64 with
  | other term => cases decoded
  | binary text =>
    cases decoded
    split at done
    next =>
      cases done
      exact .inl rfl
    next bin found =>
      obtain ⟨⟨decoded, rest⟩, read, done⟩ := Fallible.bind_ok.mp done
      dsimp only at done
      split at done
      next whole =>
        obtain ⟨sdp, mediaType, -, shortSdp, shortType, rfl⟩ := decodeSdpPayload_ok read
        rw [whole.1, List.append_nil] at found
        exact .inr ⟨text, sdp, mediaType, rfl, shortSdp, shortType, found⟩
      next =>
        cases done
        exact .inl rfl

theorem decodeSdpBody_unchanged (other : ∀ sdp, ¬ Carries payload sdp) : decodeSdpBody payload = .ok payload := by
  rw [decodeSdpBody]
  split
  next enc b64 isEnc isBody =>
    split
    next bebop =>
      split
      next after done =>
        rcases plainBody_ok done with same | ⟨text, sdp, mediaType, rfl, shortSdp, shortType, decoded⟩
        · rw [same]
        · refine absurd ⟨?_, text, mediaType, isBody, shortSdp, shortType, decoded⟩ (other sdp)
          rw [isEnc, bebop]
          rfl
      next => rfl
    next => rfl
  next => rfl

end Bodies

/-- Who sees what for an event, if anything is raised by no one: a payload is told by its keys. -/
def seen {Other : Type} (format : WireFormat) (userId : Term Other) (event : String) (params : Payload Other) :
    Except Raised (Option (Term Other × (String → Option (Term Other)))) := do
  match ← handleIn format userId event params with
  | none => return none
  | some (peerId, payload) =>
    let delivered ← handleInfo false payload
    return some (peerId, fun key => delivered.lookup key)

def IsSdp (event : String) : Prop := event = "sdp:offer" ∨ event = "sdp:answer"

/-- An SDP and a media type that are routed, both of them strings, are short ones. -/
def Prefixed {Other : Type} (event : String) (params : Payload Other) : Prop :=
  IsSdp event → (params.lookup "to").isSome → ∀ sdp mediaType, params.lookup "sdp" = some (.binary sdp) →
    (params.lookup "mediaType").getD (text "audio") = .binary mediaType → Short sdp ∧ Short mediaType

section Planes
variable {Other : Type} {userId peerId sdp mediaType : Term Other} {event : String} {params : Payload Other}

def addressed (event : String) (userId : Term Other) (body : Payload Other) : Payload Other :=
  AList.insert "type" (text event) (AList.insert "from" userId body)

def jsonFields (sdp mediaType : Term Other) : Payload Other :=
  AList.insert "enc" (text "json") (AList.insert "sdp" sdp (AList.insert "mediaType" mediaType ∅))

def bebopFields (bin : List UInt8) (mediaType : Term Other) : Payload Other :=
  AList.insert "enc" (text "bebop") (AList.insert "sdp_b64" (text (Base64.encode64 bin)) (AList.insert "mediaType" mediaType ∅))

theorem seen_sdp (isSdp : IsSdp event) (isTo : params.lookup "to" = some peerId) (isBody : params.lookup "sdp" = some sdp)
    (format : WireFormat) : seen format userId event params = do
      let body ← encodeSdpBody format sdp ((params.lookup "mediaType").getD (text "audio"))
      let delivered ← decodeSdpBody (addressed event userId body)
      return some (peerId, fun key => delivered.lookup key) := by
  rw [seen, handleIn, if_pos (show event = "sdp:offer" ∨ event = "sdp:answer" from isSdp), isTo, isBody]
  simp only [routeSdp]
  cases encodeSdpBody format sdp ((params.lookup "mediaType").getD (text "audio")) with
  | error raised => rfl
  | ok body => rfl

theorem seen_other (other : ¬ (IsSdp event ∧ (params.lookup "to").isSome ∧ (params.lookup "sdp").isSome)) :
    seen .bebop userId event params = seen .json userId event params := by
  rw [seen, seen]
  congr 1
  rw [handleIn, handleIn]
  split
  next isSdp =>
    split
    next peerId sdp isTo isBody => exact absurd ⟨isSdp, by rw [isTo]; rfl, by rw [isBody]; rfl⟩ other
    next => rfl
  next => rfl

theorem enc_addressed (body : Payload Other) : (addressed event userId body).lookup "enc" = body.lookup "enc" := by
  rw [addressed, FiniteMap.lookup_insert_if, if_neg (by decide), FiniteMap.lookup_insert_if, if_neg (by decide)]

theorem json_unchanged : decodeSdpBody (addressed event userId (jsonFields sdp mediaType)) =
    .ok (addressed event userId (jsonFields sdp mediaType)) := by
  refine decodeSdpBody_unchanged fun _ carries => ?_
  have enc := carries.1
  rw [enc_addressed, jsonFields, AList.lookup_insert] at enc
  exact absurd (Term.binary.inj (Option.some.inj enc)) (by decide)

theorem carries_bebop {sdp mediaType : List UInt8} (shortSdp : Short sdp) (shortType : Short mediaType) :
    Carries (addressed event userId (bebopFields (bodyBytes sdp mediaType) (.binary mediaType))) sdp := by
  refine ⟨?_, _, mediaType, ?_, shortSdp, shortType, Base64.decode64_encode64 _⟩
  · rw [enc_addressed, bebopFields, AList.lookup_insert]
  · simp only [addressed, bebopFields, FiniteMap.lookup_insert_if]
    rfl

theorem not_carries_bebop {sdp mediaType : List UInt8} (long : ¬ (Short sdp ∧ Short mediaType)) (other : List UInt8) :
    ¬ Carries (addressed event userId (bebopFields (bodyBytes sdp mediaType) (.binary mediaType))) other := by
  rintro ⟨_, b64, otherType, body, shortSdp, shortType, decoded⟩
  have same : utf8 (Base64.encode64 (bodyBytes sdp mediaType)) = b64 := by
    simp only [addressed, bebopFields, FiniteMap.lookup_insert_if] at body
    exact Term.binary.inj (Option.some.inj body)
  rw [← same, Base64.decode64_encode64] at decoded
  exact long (short_of_bodyBytes shortSdp shortType (Option.some.inj decoded))

theorem lookup_plain {sdp mediaType bin : List UInt8} (key : String) :
    (plain (addressed event userId (bebopFields bin (.binary mediaType))) sdp).lookup key =
      (addressed event userId (jsonFields (.binary sdp) (.binary mediaType))).lookup key := by
  simp only [plain, addressed, bebopFields, jsonFields, FiniteMap.lookup_insert_if, FiniteMap.lookup_erase_if]
  split_ifs <;> simp_all

/-- Where the Bebop codec takes no part, or raises, the planes are one. -/
theorem seen_of_raised {raised : Raised} (isSdp : IsSdp event) (isTo : params.lookup "to" = some peerId)
    (isBody : params.lookup "sdp" = some sdp)
    (encode : encodeSdpPayload ⟨sdp, (params.lookup "mediaType").getD (text "audio")⟩ = .error raised) :
    seen .bebop userId event params = seen .json userId event params := by
  rw [seen_sdp isSdp isTo isBody, seen_sdp isSdp isTo isBody]
  simp only [encodeSdpBody, encode]

theorem seen_strings {sdp mediaType : List UInt8} (isSdp : IsSdp event) (isTo : params.lookup "to" = some peerId)
    (isBody : params.lookup "sdp" = some (.binary sdp))
    (isType : (params.lookup "mediaType").getD (text "audio") = .binary mediaType) :
    seen .bebop userId event params = seen .json userId event params ↔ Short sdp ∧ Short mediaType := by
  have bebop : encodeSdpBody .bebop (.binary sdp) (.binary mediaType) =
    (.ok (bebopFields (bodyBytes sdp mediaType) (.binary mediaType)) : Except Raised (Payload Other)) := rfl
  have json : encodeSdpBody .json (.binary sdp) (.binary mediaType) =
    (.ok (jsonFields (.binary sdp) (.binary mediaType)) : Except Raised (Payload Other)) := rfl
  rw [seen_sdp isSdp isTo isBody, seen_sdp isSdp isTo isBody, isType, bebop, json]
  simp only [bind, Except.bind, json_unchanged]
  constructor
  · intro agree
    by_contra long
    rw [decodeSdpBody_unchanged (not_carries_bebop long)] at agree
    have enc := congrFun (Prod.mk.inj (Option.some.inj (Except.ok.inj agree))).2 "enc"
    rw [enc_addressed, enc_addressed, bebopFields, jsonFields, AList.lookup_insert, AList.lookup_insert] at enc
    exact absurd (Term.binary.inj (Option.some.inj enc)) (by decide)
  · rintro ⟨shortSdp, shortType⟩
    rw [decodeSdpBody_carries (carries_bebop shortSdp shortType)]
    simp only [lookup_plain]

theorem seen_agree_iff (userId : Term Other) (event : String) (params : Payload Other) :
    seen .bebop userId event params = seen .json userId event params ↔ Prefixed event params := by
  by_cases routed : IsSdp event ∧ (params.lookup "to").isSome ∧ (params.lookup "sdp").isSome
  · obtain ⟨isSdp, addressed, bodied⟩ := routed
    obtain ⟨peerId, isTo⟩ := Option.isSome_iff_exists.mp addressed
    obtain ⟨sdp, isBody⟩ := Option.isSome_iff_exists.mp bodied
    cases sdp with
    | other term =>
      refine iff_of_true (seen_of_raised isSdp isTo isBody rfl) fun _ _ sdp _ same => ?_
      rw [isBody] at same
      cases same
    | binary sdp =>
      cases isType : (params.lookup "mediaType").getD (text "audio") with
      | other term =>
        refine iff_of_true (seen_of_raised isSdp isTo isBody (by rw [isType]; rfl)) fun _ _ _ mediaType _ same => ?_
        rw [isType] at same
        cases same
      | binary mediaType =>
        rw [seen_strings isSdp isTo isBody isType]
        constructor
        · intro short _ _ sdp' mediaType' isBody' isType'
          rw [isBody] at isBody'
          rw [isType] at isType'
          cases isBody'
          cases isType'
          exact short
        · exact fun prefixed => prefixed isSdp addressed sdp mediaType isBody isType
  · refine iff_of_true (seen_other routed) fun isSdp addressed sdp _ isBody => absurd ?_ routed
    exact ⟨isSdp, addressed, by rw [isBody]; rfl⟩

end Planes

/-- An offer of 2^32 bytes. -/
def longOffer : Payload Empty :=
  AList.insert "to" (text "peer") (AList.insert "sdp" (.binary (List.replicate (256 ^ 4) 65)) ∅)

end Burble.SignalingChannel
