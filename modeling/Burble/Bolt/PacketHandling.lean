import Burble.Bolt.BoltRuns

namespace Burble.Bolt
variable {config : Config} {secret : String} {reads : Reads} {src : String} {data : List UInt8}

theorem handlePacket_ignored {reason : PacketError} (nonces : Nonces)
    (refused : decode config.decodeJson data = .error reason) :
    handlePacket config reads src data nonces = (.ignored reason, nonces) := by
  unfold handlePacket
  rw [refused]

/-- With a secret configured a packet is handled by what its verification says. -/
theorem handlePacket_ok {packet : Packet} (reads : Reads) (src : String) (nonces : Nonces) (enabled : config.enabled = some secret)
    (decoded : decode config.decodeJson data = .ok packet) :
    handlePacket config reads src data nonces =
      match authenticate config secret reads packet.payload nonces with
      | (.ok, nonces) => dispatch reads packet src nonces
      | (.error reason, nonces) => (.dropped reason, nonces)
      | (.raised, _) => (.crashed, ∅) := by
  rw [handlePacket, decoded]
  dsimp only
  split
  next disabled =>
    rw [enabled] at disabled
    cases disabled
  next found same =>
    rw [enabled] at same
    cases same
    rfl

theorem packetFields_object {packet : Packet} {entries : List (String × Json)}
    (decoded : decode config.decodeJson data = .ok packet) (object : packet.payload = .object entries) :
    packetFields config data = some (Json.toMap entries) := by
  unfold packetFields
  rw [decoded]
  simp only [object]

theorem carriedStamp_eq_some {stamp : Stamp} : carriedStamp config secret data = some stamp ↔
    ∃ fields, packetFields config data = some fields ∧
      shownStamp fields = some (stamp, computeMac config.hmac secret stamp) := by
  unfold carriedStamp
  cases packetFields config data with
  | none => simp
  | some fields =>
    cases atShown : shownStamp fields with
    | none => simp [atShown]
    | some shown =>
      obtain ⟨stamp', mac⟩ := shown
      simp only [Option.bind_some, atShown, Option.some.injEq, exists_eq_left', Prod.mk.injEq]
      constructor
      · intro carried
        split at carried
        next good => exact ⟨Option.some.inj carried, Option.some.inj carried ▸ good⟩
        next => cases carried
      · rintro ⟨rfl, good⟩
        exact if_pos good

/-- A packet stops before the nonce table; or the listener raises on it; or its tag is good and in
time, and the nonce decides. -/
theorem handlePacket_cases (enabled : config.enabled = some secret) (reads : Reads) (src : String)
    (data : List UInt8) (nonces : Nonces) :
    (acceptedStamp config secret reads data nonces = none ∧
      (∃ handled, handlePacket config reads src data nonces = (handled, nonces) ∧
        ∀ notification, handled ≠ .dispatched notification) ∧
      ∀ stamp, carriedStamp config secret data = some stamp → withinWindow reads.window stamp.ts = false) ∨
    (acceptedStamp config secret reads data nonces = none ∧ unreadable config data = true ∧
      handlePacket config reads src data nonces = (.crashed, ∅) ∧ carriedStamp config secret data = none) ∨
    ∃ stamp, carriedStamp config secret data = some stamp ∧ withinWindow reads.window stamp.ts = true ∧
      ((acceptedStamp config secret reads data nonces = none ∧
        handlePacket config reads src data nonces = (.dropped .replayedNonce, prune reads.record nonces) ∧
        ∃ expiry, nonces.lookup stamp.nonce = some expiry ∧ reads.record ≤ expiry) ∨
      (acceptedStamp config secret reads data nonces = some stamp ∧
        (∀ expiry, nonces.lookup stamp.nonce = some expiry → expiry < reads.record) ∧
        ∃ packet, decode config.decodeJson data = .ok packet ∧ handlePacket config reads src data nonces =
          dispatch reads packet src ((prune reads.record nonces).insert stamp.nonce (stamp.ts + windowMs)))) := by
  cases decoded : decode config.decodeJson data with
  | error reason =>
    have noFields : packetFields config data = none := by
      unfold packetFields
      rw [decoded]
    refine .inl ⟨?_, ⟨.ignored reason, handlePacket_ignored nonces decoded, by simp⟩, fun stamp carried => ?_⟩
    · rw [acceptedStamp, noFields, Option.bind_none]
    · rw [carriedStamp, noFields] at carried
      cases carried
  | ok packet =>
    have handled := handlePacket_ok reads src nonces enabled decoded
    by_cases isObject : ∃ entries, packet.payload = .object entries
    · obtain ⟨entries, object⟩ := isObject
      have fields := packetFields_object decoded object
      have verified : authenticate config secret reads packet.payload nonces =
          verify config.hmac secret reads.window reads.record (Json.toMap entries) nonces := by
        unfold authenticate
        simp only [object]
      have accepts : acceptedStamp config secret reads data nonces =
          if (verify config.hmac secret reads.window reads.record (Json.toMap entries) nonces).1 = .ok then
            (shownStamp (Json.toMap entries)).map Prod.fst else none := by
        rw [acceptedStamp, fields, Option.bind_some]
      rw [verified] at handled
      rcases verify_cases config.hmac secret reads.window reads.record (Json.toMap entries) nonces with
        ⟨⟨reason, stops⟩, untimely⟩ | ⟨raises, notShown, tag, atTag, unprintable⟩ | ⟨stamp, shown, inTime, checks⟩
      · rw [stops] at handled accepts
        refine .inl ⟨accepts.trans (if_neg (by simp)), ⟨.dropped reason, handled, by simp⟩, fun stamp carried => ?_⟩
        obtain ⟨found, atFields, shown⟩ := carriedStamp_eq_some.mp carried
        obtain rfl := Option.some.inj (fields.symm.trans atFields)
        exact untimely stamp shown
      · rw [raises] at handled accepts
        refine .inr (.inl ⟨accepts.trans (if_neg (by simp)), ?_, handled, ?_⟩)
        · unfold unreadable
          simp only [decoded, object, atTag, unprintable, Except.isOk, Except.toBool, Option.isNone_none, Bool.and_self]
        · rw [carriedStamp, fields, Option.bind_some, notShown, Option.bind_none]
      · have carried := carriedStamp_eq_some.mpr ⟨_, fields, shown⟩
        refine .inr (.inr ⟨stamp, carried, inTime, ?_⟩)
        rcases recordNonce_cases reads.record stamp.nonce stamp.ts nonces with ⟨replayed, live⟩ | ⟨recorded, free⟩
        · rw [checks, replayed] at handled accepts
          exact .inl ⟨accepts.trans (if_neg (by simp)), handled, live⟩
        · rw [checks, recorded] at handled accepts
          refine .inr ⟨?_, free, packet, rfl, handled⟩
          rw [accepts, if_pos rfl, shown, Option.map_some]
    · have other : ∀ entries, packet.payload ≠ .object entries := not_exists.mp isObject
      have noFields : packetFields config data = none := by
        unfold packetFields
        rw [decoded]
        cases atPayload : packet.payload with
        | object entries => exact absurd atPayload (other entries)
        | _ => simp only [atPayload]
      have raises : authenticate config secret reads packet.payload nonces = (.raised, nonces) := by
        unfold authenticate
        cases atPayload : packet.payload with
        | object entries => exact absurd atPayload (other entries)
        | _ => rfl
      rw [raises] at handled
      refine .inr (.inl ⟨?_, ?_, handled, ?_⟩)
      · rw [acceptedStamp, noFields, Option.bind_none]
      · unfold unreadable
        rw [decoded]
        cases atPayload : packet.payload with
        | object entries => exact absurd atPayload (other entries)
        | _ => simp only [atPayload]
      · rw [carriedStamp, noFields, Option.bind_none, Option.bind_none]

/-- A packet that can be announced comes with an object for its payload or with none at all. -/
theorem dispatch_cases {packet : Packet} {stamp : Stamp} (reads : Reads) (src : String) (nonces : Nonces)
    (decoded : decode config.decodeJson data = .ok packet) (carried : carriedStamp config secret data = some stamp) :
    (∃ notification, announceable config src data = true ∧ notification.payload = packet.payload ∧
      dispatch reads packet src nonces = (.dispatched notification, nonces)) ∨
    (announceable config src data = false ∧ dispatch reads packet src nonces = (.crashed, ∅)) := by
  obtain ⟨fields, atFields, _⟩ := carriedStamp_eq_some.mp carried
  have object : ∃ entries, packet.payload = .object entries ∧ Json.toMap entries = fields := by
    unfold packetFields at atFields
    simp only [decoded] at atFields
    split at atFields
    next entries atPayload => exact ⟨entries, atPayload, Option.some.inj atFields⟩
    next => cases atFields
  obtain ⟨entries, object, rfl⟩ := object
  unfold announceable dispatch incoming
  rw [packetFields_object decoded object]
  simp only [object, payloadFields, bind, Option.bind, extractSender, Option.all_some]
  cases printed : (displayName (Json.toMap entries) src).toText with
  | none => exact .inr ⟨rfl, rfl⟩
  | some text => exact .inl ⟨_, rfl, rfl, rfl⟩

end Burble.Bolt
