import Burble.Bolt.SingleUse

namespace Burble.Bolt
variable {config : Config} {secret : String} {reads : Reads} {src : String} {data : List UInt8} {nonces : Nonces}

/-- One call of `Spa.sign`: the clock, the random bytes, and the payload passed to it. -/
structure Signing where
  ts : Int
  random : List UInt8
  payload : JsonMap

def Signing.stamp (signing : Signing) : Option Stamp := signedStamp signing.ts signing.random signing.payload

/-- HMAC is unforgeable: a good MAC is over a text that one of the signing calls made. -/
def SignedBy (config : Config) (secret : String) (signings : List Signing) (data : List UInt8) : Prop :=
  ∀ stamp ∈ carriedStamp config secret data, ∃ signing ∈ signings, ∃ signed ∈ signing.stamp, signed.text = stamp.text

/-- The listener dispatches a packet to the browsers. -/
def Dispatches (config : Config) (reads : Reads) (src : String) (data : List UInt8) (nonces : Nonces)
    (notification : Notification) : Prop :=
  (handlePacket config reads src data nonces).1 = .dispatched notification

/-- What the dispatched bolt carries is the payload of the packet. -/
theorem dispatched_payload {notification : Notification} {packet : Packet} (enabled : config.enabled = some secret)
    (decoded : decode config.decodeJson data = .ok packet)
    (sent : Dispatches config reads src data nonces notification) : notification.payload = packet.payload := by
  unfold Dispatches at sent
  rcases handlePacket_cases enabled reads src data nonces with
    ⟨_, ⟨handled, result, other⟩, _⟩ | ⟨_, _, result, _⟩ | ⟨stamp, carried, _, decided⟩
  · rw [result] at sent
    exact absurd sent (other notification)
  · rw [result] at sent
    cases sent
  · rcases decided with ⟨_, result, _⟩ | ⟨_, _, found, atPacket, result⟩
    · rw [result] at sent
      cases sent
    · obtain rfl := Except.ok.inj (decoded.symm.trans atPacket)
      rw [result] at sent
      rcases dispatch_cases reads src
          ((prune reads.record nonces).insert stamp.nonce (stamp.ts + windowMs)) atPacket carried with
        ⟨made, _, payload, announced⟩ | ⟨_, crashed⟩
      · rw [announced] at sent
        cases sent
        exact payload
      · rw [crashed] at sent
        cases sent

/-- A packet is dispatched for its tag, its sender and its name only: the MAC is good for the stamp,
the stamp is in time, no live entry holds its nonce, and the name can be shown. -/
theorem dispatches_iff (enabled : config.enabled = some secret) :
    (∃ notification, Dispatches config reads src data nonces notification) ↔
      ∃ stamp, carriedStamp config secret data = some stamp ∧ withinWindow reads.window stamp.ts = true ∧
        (∀ expiry, nonces.lookup stamp.nonce = some expiry → expiry < reads.record) ∧
        announceable config src data = true := by
  unfold Dispatches
  rcases handlePacket_cases enabled reads src data nonces with
    ⟨_, ⟨handled, result, other⟩, late⟩ | ⟨_, _, result, unread⟩ | ⟨stamp, carried, inTime, decided⟩
  · rw [result]
    constructor
    · rintro ⟨notification, sent⟩
      exact absurd sent (other notification)
    · rintro ⟨stamp, carried, inTime, _⟩
      rw [late stamp carried] at inTime
      cases inTime
  · rw [result]
    constructor
    · rintro ⟨_, sent⟩
      cases sent
    · rintro ⟨stamp, carried, _⟩
      rw [unread] at carried
      cases carried
  · rcases decided with ⟨_, result, expiry, entry, live⟩ | ⟨_, free, packet, decoded, result⟩
    · rw [result]
      constructor
      · rintro ⟨_, sent⟩
        cases sent
      · rintro ⟨other, carried', _, free, _⟩
        obtain rfl := Option.some.inj (carried.symm.trans carried')
        have gone := free expiry entry
        omega
    · rw [result]
      rcases dispatch_cases reads src
          ((prune reads.record nonces).insert stamp.nonce (stamp.ts + windowMs)) decoded carried with
        ⟨notification, named, _, announced⟩ | ⟨unnamed, crashed⟩
      · rw [announced]
        exact ⟨fun _ => ⟨stamp, carried, inTime, free, named⟩, fun _ => ⟨notification, rfl⟩⟩
      · rw [crashed]
        constructor
        · rintro ⟨_, sent⟩
          cases sent
        · rintro ⟨_, _, _, _, named⟩
          rw [unnamed] at named
          cases named

/-- What a tag binds. A dispatched packet shows the text, so with no colon in the signed sender the
timestamp, the nonce and the sender, of one signing call. And any packet that shows the stamp and the MAC
of a signing call is dispatched in time and once, whatever else it carries. -/
theorem dispatched_stamp_signed (enabled : config.enabled = some secret) (signings : List Signing)
    (unforged : SignedBy config secret signings data) :
    (∀ notification, Dispatches config reads src data nonces notification →
      ∃ stamp, carriedStamp config secret data = some stamp ∧
        ∃ signing ∈ signings, ∃ signed ∈ signing.stamp, signed.text = stamp.text ∧
          (':' ∉ signed.sender.toList → stamp = signed)) ∧
    (∀ fields, ∀ signing ∈ signings, ∀ signed ∈ signing.stamp, packetFields config data = some fields →
      shownStamp fields = some (signed, computeMac config.hmac secret signed) →
      withinWindow reads.window signed.ts = true →
      (∀ expiry, nonces.lookup signed.nonce = some expiry → expiry < reads.record) →
      announceable config src data = true → ∃ notification, Dispatches config reads src data nonces notification) := by
  constructor
  · intro notification sent
    obtain ⟨stamp, carried, _⟩ := (dispatches_iff enabled).mp ⟨notification, sent⟩
    obtain ⟨signing, member, signed, isStamp, same⟩ := unforged stamp carried
    refine ⟨stamp, carried, signing, member, signed, isStamp, same, fun plain => ?_⟩
    have nonce : ':' ∉ signed.nonce.toList := by
      obtain ⟨sender, _, rfl⟩ := Option.map_eq_some_iff.mp isStamp
      exact Base64.urlEncode64_free (by decide) signing.random
    exact (Stamp.text_inj nonce plain same).symm
  · intro fields signing member signed isStamp atFields shown inTime free named
    exact (dispatches_iff enabled).mpr ⟨signed, carriedStamp_eq_some.mpr ⟨fields, atFields, shown⟩, inTime, free, named⟩

section Altered

/-- The payload signed names one server; the packet, with the same tag and sender, names another. -/
def servedSigning : Signing :=
  ⟨0, zeros, Json.toMap [("from", .string "alice"), ("server", .string "https://home")]⟩

def alteredBolt : Sample :=
  let mac := computeMac checksum "s3cret" plainStamp
  { text := "\x7b\"from\":\"alice\",\"server\":\"https://evil\",\"spa\":\x7b\"ts\":0,\"nonce\":\"AAAAAAAAAAAAAAAA\",\"mac\":\"" ++
      mac ++ "\"\x7d\x7d",
    json := .object [("from", .string "alice"), ("server", .string "https://evil"),
      ("spa", .object [("ts", .integer 0), ("nonce", .string "AAAAAAAAAAAAAAAA"), ("mac", .string mac)])] }

/-- The altered packet carries the stamp that was signed, can be announced, and names the other server. -/
theorem altered_packet :
    carriedStamp (sampleConfig [alteredBolt]) "s3cret" alteredBolt.packet = some plainStamp ∧
      announceable (sampleConfig [alteredBolt]) "10.0.0.9" alteredBolt.packet = true ∧
      (packetFields (sampleConfig [alteredBolt]) alteredBolt.packet).bind (fun fields =>
        ((fields.lookup "server").bind Json.toText)) = some "https://evil" := by
  decide +kernel

theorem altered_signedBy : SignedBy (sampleConfig [alteredBolt]) "s3cret" [servedSigning] alteredBolt.packet := by
  intro stamp carried
  rw [altered_packet.1, Option.mem_some_iff] at carried
  subst carried
  exact ⟨servedSigning, List.mem_singleton_self _, plainStamp, by decide +kernel, rfl⟩

theorem altered_enabled : (sampleConfig [alteredBolt]).enabled = some "s3cret" := by decide

/-- The altered packet is dispatched. -/
theorem altered_dispatched :
    ∃ notification, Dispatches (sampleConfig [alteredBolt]) ⟨0, 0, 0⟩ "10.0.0.9" alteredBolt.packet ∅ notification :=
  (dispatches_iff altered_enabled).mpr ⟨plainStamp, altered_packet.1, by decide, by simp, altered_packet.2.1⟩

theorem dispatched_stamp_signed_altered :
    ∃ stamp, carriedStamp (sampleConfig [alteredBolt]) "s3cret" alteredBolt.packet = some stamp ∧
      ∃ signing ∈ [servedSigning], ∃ signed ∈ signing.stamp, signed.text = stamp.text ∧
        (':' ∉ signed.sender.toList → stamp = signed) :=
  (dispatched_stamp_signed altered_enabled [servedSigning] altered_signedBy).1 _ altered_dispatched.choose_spec

/-- The server a bolt names is not protected: a packet that names another one than any signed payload
is dispatched. -/
theorem altered_payload_dispatched :
    ¬ ∀ signings, SignedBy (sampleConfig [alteredBolt]) "s3cret" signings alteredBolt.packet →
      ∀ notification, Dispatches (sampleConfig [alteredBolt]) ⟨0, 0, 0⟩ "10.0.0.9" alteredBolt.packet ∅ notification →
        ∃ fields, packetFields (sampleConfig [alteredBolt]) alteredBolt.packet = some fields ∧
          ∃ signing ∈ signings, ∀ key, key ≠ "spa" → fields.lookup key = signing.payload.lookup key := by
  intro kept
  obtain ⟨notification, sent⟩ := altered_dispatched
  obtain ⟨fields, atFields, signing, member, same⟩ := kept [servedSigning] altered_signedBy notification sent
  obtain rfl := List.mem_singleton.mp member
  have server := same "server" (by decide)
  have evil := altered_packet.2.2
  have home : (servedSigning.payload.lookup "server").bind Json.toText = some "https://home" := by decide +kernel
  rw [atFields, Option.bind_some, server, home] at evil
  exact absurd evil (by decide)

end Altered
end Burble.Bolt
