import Burble.E2EE.FrameHeader
import Burble.E2EE.MediaRoom
import Burble.E2EE.RoomAgreement

namespace Burble.E2EE
variable {PubKey PrivKey PairKey Key Blob FrameKey : Type} {web : WebCrypto Key FrameKey}

/-- A sealed body opens, but for an empty one, which is too short. -/
theorem decryptFrame_encryptFrame (lawful : web.Lawful) (key : FrameKey) (iv : Iv) (plaintext : List UInt8)
    (roomId : String) (epoch : Nat) (sender : String) (counter : Nat) :
    decryptFrame web key (encryptFrame web key iv plaintext roomId epoch sender counter) roomId epoch sender counter =
      if plaintext = [] then .error "frame too short" else .ok plaintext := by
  obtain ⟨sealedBytes, made⟩ : ∃ sealedBytes,
      sealedBytes = web.encrypt key iv (frameAad roomId epoch sender counter) plaintext := ⟨_, rfl⟩
  have size : sealedBytes.length = plaintext.length + tagBytes := made ▸ lawful.tagged ..
  have cut : sealedBytes.length - tagBytes = plaintext.length := by omega
  obtain ⟨ciphertext, atCiphertext⟩ : ∃ ciphertext, ciphertext = sealedBytes.take plaintext.length := ⟨_, rfl⟩
  obtain ⟨tag, atTag⟩ : ∃ tag, tag = sealedBytes.drop plaintext.length := ⟨_, rfl⟩
  have whole : ciphertext ++ tag = sealedBytes := by rw [atCiphertext, atTag, List.take_append_drop]
  have tagLength : tag.length = tagBytes := by rw [atTag, List.length_drop]; omega
  have ciphertextLength : ciphertext.length = plaintext.length := by rw [atCiphertext, List.length_take]; omega
  have ivLength : (iv : List UInt8).length = ivBytes := iv.2
  have frame : encryptFrame web key iv plaintext roomId epoch sender counter = iv ++ (tag ++ ciphertext) := by
    simp only [encryptFrame, ← made, cut, List.append_assoc, ← atCiphertext, ← atTag]
  have length : ((iv : List UInt8) ++ (tag ++ ciphertext)).length = ivBytes + tagBytes + plaintext.length := by
    simp only [List.length_append, ivLength, tagLength, ciphertextLength, Nat.add_assoc]
  unfold decryptFrame
  rw [frame, length]
  by_cases empty : plaintext = []
  · rw [if_pos empty, if_pos (by rw [empty, List.length_nil]; omega)]
  · have positive : 0 < plaintext.length := List.length_pos_iff.mpr empty
    rw [if_neg empty, if_neg (by omega)]
    simp only [List.take_left' ivLength, ← List.drop_drop, List.drop_left' ivLength, List.take_left' tagLength,
      List.drop_left' tagLength, whole]
    rw [made, lawful.opens]

/-- A frame as `seal()` makes it. -/
structure SealedFrame.Genuine (web : WebCrypto Key FrameKey) (roomId : String) (frame : SealedFrame Key) : Prop where
  named : frame.sender ≠ ""
  wire : ∃ (iv : Iv) (header : List UInt8),
    encodeFrameHeader frame.epoch frame.counter (some frame.sender) = .ok header ∧
    frame.wire = header ++ encryptFrame web
      (deriveSenderFrameKey web frame.roomKey frame.epoch frame.sender frame.counter) iv frame.plaintext roomId
      frame.epoch frame.sender frame.counter

/-- A cryptor as `cryptorFor` makes it, with windows that follow what it opened. -/
structure CryptorRun.InRoom (run : CryptorRun Key FrameKey) (roomId : String) : Prop where
  room : run.cryptor.roomId = roomId
  size : run.cryptor.windowSize = defaultWindowSize
  named : run.cryptor.localId ≠ ""
  tracked : run.Tracked

/-- What a cryptor is made with stays. -/
def FrameCryptor.SameParty (cryptor after : FrameCryptor) : Prop :=
  after.roomId = cryptor.roomId ∧ after.windowSize = cryptor.windowSize ∧ after.localId = cryptor.localId

theorem FrameCryptor.Heard.sameParty {cryptor after : FrameCryptor} (heard : cryptor.Heard after) :
    cryptor.SameParty after := by
  rcases heard with rfl | ⟨_, _, _, _, rfl⟩ <;> exact ⟨rfl, rfl, rfl⟩

namespace CryptorRun
variable {run after : CryptorRun Key FrameKey} {epochs : KeyEpoch Key} {event : CryptorEvent} {roomId : String}

theorem step_sameParty (taken : run.step web epochs event = some after) : run.cryptor.SameParty after.cryptor := by
  cases step_moves taken with
  | refused heard => exact heard.sameParty
  | passed _ passes => exact (FrameCryptor.windowFor_spec passes.found).1.sameParty
  | aside => exact ⟨rfl, rfl, rfl⟩
  | rejects => exact ⟨rfl, rfl, rfl⟩
  | opens found =>
    unfold CryptorRun.opens
    split
    · exact ⟨rfl, rfl, rfl⟩
    · split
      · exact ⟨rfl, rfl, rfl⟩
      · dsimp only
        unfold FrameCryptor.spend
        split <;> exact ⟨rfl, rfl, rfl⟩

theorem InRoom.step (inRoom : run.InRoom roomId) (taken : run.step web epochs event = some after) :
    after.InRoom roomId := by
  obtain ⟨room, size, localId⟩ := step_sameParty taken
  exact ⟨room.trans inRoom.room, size.trans inRoom.size, localId ▸ inRoom.named, inRoom.tracked.step taken⟩

theorem InRoom.genuine (inRoom : run.InRoom roomId) {frame : SealedFrame Key}
    (member : frame ∈ run.sealedFrame web event) : frame.Genuine web roomId := by
  unfold sealedFrame at member
  split at member
  next call iv =>
    split at member
    next => cases member
    next sealing _ =>
      split at member
      next => cases member
      next wire sealed =>
        rw [List.mem_singleton.mp member]
        unfold FrameCryptor.sealed at sealed
        cases atHeader : encodeFrameHeader sealing.epoch sealing.counter (some run.cryptor.localId) with
        | error reason => rw [atHeader] at sealed; cases sealed
        | ok header =>
          rw [atHeader] at sealed
          cases sealed
          exact ⟨inRoom.named, iv, header, atHeader, by rw [inRoom.room]⟩
  next => cases member

end CryptorRun

/-- Every cryptor of the room is one of `cryptorFor`'s, every sealed frame one of theirs. -/
structure MediaRoom.Sound (web : WebCrypto Key FrameKey) (roomId : String)
    (s : MediaRoom PubKey PrivKey PairKey Key Blob FrameKey) : Prop where
  objects : ∀ peerId endpoint, s.endpoints.lookup peerId = some endpoint →
    ∀ run ∈ endpoint.objects, run.InRoom roomId
  frames : ∀ frame ∈ s.frames, frame.Genuine web roomId

theorem Endpoint.cryptorFor_objects {endpoint after : Endpoint Key FrameKey} {roomId localId : String}
    {remoteId : Option String} (made : endpoint.cryptorFor roomId localId remoteId = some after)
    (objects : ∀ run ∈ endpoint.objects, run.InRoom roomId) : ∀ run ∈ after.objects, run.InRoom roomId := by
  unfold cryptorFor at made
  split at made
  next => cases made; exact objects
  next =>
    split at made
    next => cases made
    next nonempty =>
      cases made
      intro run member
      rcases List.mem_append.mp member with old | new
      · exact objects run old
      · rw [List.mem_singleton.mp new]
        rw [not_or] at nonempty
        exact ⟨rfl, rfl, nonempty.1, CryptorRun.create_tracked _ rfl⟩

namespace MediaRoom
variable [ByteSize PubKey] [DecidableEq PubKey] [DecidableEq PrivKey] [DecidableEq PairKey] [DecidableEq Key]
  [ByteSize Blob] [DecidableEq Blob] {config : ProofConfig PubKey}
  {crypto : IdealCrypto PubKey PrivKey PairKey Key Blob} {roomId : String}
  {s after : MediaRoom PubKey PrivKey PairKey Key Blob FrameKey}

omit [ByteSize PubKey] [ByteSize Blob] in
/-- The page a peer has after an event of the room is the one it had, or a new one. -/
theorem endpointsAfter_objects {event : RoomEvent PrivKey} {room : RoomSystem PubKey PrivKey PairKey Key Blob}
    {peerId : String} {endpoint : Endpoint Key FrameKey}
    (found : (s.endpointsAfter crypto roomId event room).lookup peerId = some endpoint) :
    endpoint.objects = [] ∨ ∃ before, s.endpoints.lookup peerId = some before ∧ endpoint.objects = before.objects := by
  have unchanged : s.endpoints.lookup peerId = some endpoint →
      endpoint.objects = [] ∨ ∃ before, s.endpoints.lookup peerId = some before ∧ endpoint.objects = before.objects :=
    fun same => .inr ⟨endpoint, same, rfl⟩
  unfold endpointsAfter at found
  split at found
  next =>
    split at found
    next => exact unchanged found
    next =>
      rw [FiniteMap.lookup_insert_if] at found
      split at found
      next => cases found; exact .inl rfl
      next => exact unchanged found
  next =>
    split at found
    next => exact unchanged found
    next =>
      split at found
      next before _ atEndpoint =>
        split at found
        next =>
          rw [FiniteMap.lookup_insert_if] at found
          split at found
          next same =>
            cases found
            rw [← same] at atEndpoint
            exact .inr ⟨_, atEndpoint, rfl⟩
          next => exact unchanged found
        next => exact unchanged found
      next => exact unchanged found

theorem Sound.step (sound : s.Sound web roomId) {event : MediaEvent PrivKey Key}
    (taken : MediaStep config crypto web roomId s event after) : after.Sound web roomId := by
  cases event with
  | room label =>
    obtain ⟨room, _, same⟩ := Option.bind_eq_some_iff.mp taken
    cases same
    refine ⟨fun peerId endpoint found => ?_, sound.frames⟩
    rcases endpointsAfter_objects found with new | ⟨before, had, same⟩
    · rw [new]
      exact fun _ member => absurd member List.not_mem_nil
    · rw [same]
      exact sound.objects peerId before had
  | cryptorFor peerId remoteId =>
    obtain ⟨session, _, taken⟩ := Option.bind_eq_some_iff.mp taken
    obtain ⟨endpoint, atEndpoint, taken⟩ := Option.bind_eq_some_iff.mp taken
    split at taken
    next =>
      obtain ⟨made, atMade, same⟩ := Option.bind_eq_some_iff.mp taken
      cases same
      refine ⟨fun other found at_ => ?_, sound.frames⟩
      rw [FiniteMap.lookup_insert_if] at at_
      split at at_
      next =>
        cases at_
        exact Endpoint.cryptorFor_objects atMade (sound.objects peerId endpoint atEndpoint)
      next => exact sound.objects other found at_
    next => cases taken
  | cryptor peerId object event =>
    obtain ⟨session, _, taken⟩ := Option.bind_eq_some_iff.mp taken
    obtain ⟨endpoint, atEndpoint, taken⟩ := Option.bind_eq_some_iff.mp taken
    obtain ⟨run, atRun, taken⟩ := Option.bind_eq_some_iff.mp taken
    obtain ⟨moved, atMoved, same⟩ := Option.bind_eq_some_iff.mp taken
    cases same
    have objects := sound.objects peerId endpoint atEndpoint
    have inRoom := objects run (List.mem_of_getElem? atRun)
    refine ⟨fun other found at_ => ?_, fun frame member => ?_⟩
    · rw [FiniteMap.lookup_insert_if] at at_
      split at at_
      next =>
        cases at_
        intro changed member
        rcases List.mem_or_eq_of_mem_set member with old | rfl
        · exact objects changed old
        · exact inRoom.step atMoved
      next => exact sound.objects other found at_
    · rcases List.mem_append.mp member with old | new
      · exact sound.frames frame old
      · exact inRoom.genuine new

omit [ByteSize PubKey] [DecidableEq PubKey] [DecidableEq PrivKey] [DecidableEq PairKey] [DecidableEq Key]
  [ByteSize Blob] [DecidableEq Blob] in
theorem empty_sound : (empty : MediaRoom PubKey PrivKey PairKey Key Blob FrameKey).Sound web roomId :=
  ⟨fun _ _ found => (by cases found), fun _ member => absurd member List.not_mem_nil⟩

end MediaRoom

/-- What `open()` of these bytes, begun now, is going to return: what it decrypts is settled
before its first await. -/
def CryptorRun.opensTo (web : WebCrypto Key FrameKey) (run : CryptorRun Key FrameKey) (epochs : KeyEpoch Key)
    (wire : List UInt8) : Option (List UInt8) :=
  match run.cryptor.beginOpen web epochs wire run.cryptor.remoteId with
  | (cryptor, .ok opening) => (cryptor.decrypted web opening).toOption
  | (_, .error _) => none

/-- A frame of the present epoch and key opens if it is not empty and the windows of all
epochs together leave it room. -/
theorem CryptorRun.opensTo_iff (lawful : web.Lawful) {run : CryptorRun Key FrameKey} {roomId : String}
    (inRoom : run.InRoom roomId) {frame : SealedFrame Key} (genuine : frame.Genuine web roomId)
    (unmarked : ¬ StartsWithMark frame.sender) {epochs : KeyEpoch Key} (current : frame.epoch = epochs.epoch)
    (keyed : epochs.roomKey = some frame.roomKey) (pinned : ∀ remote ∈ run.cryptor.remoteId, frame.sender = remote) :
    run.opensTo web epochs frame.wire = some frame.plaintext ↔
      frame.plaintext ≠ [] ∧ ∀ other ∈ run.counters frame.sender,
        other ≠ frame.counter ∧ other < frame.counter + defaultWindowSize := by
  obtain ⟨named, iv, header, encodes, wire⟩ := genuine
  obtain ⟨key, atKey⟩ : ∃ key, key = deriveSenderFrameKey web frame.roomKey frame.epoch frame.sender frame.counter :=
    ⟨_, rfl⟩
  obtain ⟨body, atBody⟩ : ∃ body, body =
      encryptFrame web key iv frame.plaintext roomId frame.epoch frame.sender frame.counter := ⟨_, rfl⟩
  rw [← atKey, ← atBody] at wire
  have decodes : decodeFrameHeader web (header ++ body) = _ :=
    (decodeFrameHeader_encode_iff encodes (fun none => named (Option.some.inj none)) body).mpr
      fun _ same => Option.some.inj same ▸ unmarked
  rw [← wire] at decodes
  have opens := decryptFrame_encryptFrame lawful key iv frame.plaintext roomId frame.epoch frame.sender frame.counter
  rw [← atBody] at opens
  rw [opensTo, ← inRoom.size]
  constructor
  · intro decrypted
    rcases FrameCryptor.beginOpen_cases web run.cryptor epochs frame.wire run.cryptor.remoteId with
      ⟨_, _, refused, _⟩ | ⟨cryptor, opening, passed, ⟨passes⟩⟩
    · rw [refused] at decrypted
      cases decrypted
    · rw [passed] at decrypted
      obtain ⟨parsed, window, roomKey, parses, _, sender, _, _, found, fresh, keyed', locals⟩ := passes
      cases Except.ok.inj (decodes.symm.trans parses)
      cases Option.some.inj (keyed.symm.trans keyed')
      have named' : opening.senderId = frame.sender := (Option.some.inj sender).symm
      rw [named'] at found locals
      have party := (FrameCryptor.windowFor_spec found).1.roomId.trans inRoom.room
      rw [locals] at decrypted
      dsimp only [FrameCryptor.decrypted] at decrypted
      rw [party, ← current, ← atKey, opens] at decrypted
      refine ⟨fun empty => ?_, (inRoom.tracked.fresh found frame.counter).mp fresh⟩
      rw [if_pos empty] at decrypted
      cases decrypted
  · rintro ⟨nonempty, room⟩
    obtain ⟨window, cryptor, found⟩ : ∃ window cryptor, run.cryptor.windowFor frame.sender = .ok (window, cryptor) := by
      unfold FrameCryptor.windowFor
      cases run.cryptor.windows.lookup frame.sender with
      | some window => exact ⟨_, _, rfl⟩
      | none =>
        rw [inRoom.size]
        exact ⟨_, _, rfl⟩
    have fresh := (inRoom.tracked.fresh found frame.counter).mpr room
    have party := (FrameCryptor.windowFor_spec found).1.roomId.trans inRoom.room
    obtain ⟨opening, made⟩ : ∃ opening : Opening FrameKey, opening = ⟨.frameKey, frame.sender, frame.epoch,
      frame.counter, body, deriveSenderFrameKey web frame.roomKey epochs.epoch frame.sender frame.counter⟩ := ⟨_, rfl⟩
    have sender : opening.senderId = frame.sender := congrArg Opening.senderId made
    have passes : run.cryptor.Passes web epochs frame.wire run.cryptor.remoteId cryptor opening := by
      refine ⟨_, window, frame.roomKey, decodes, current, ?_, ?_, ?_, ?_, fresh, keyed, ?_⟩
      · rw [sender]
      · rw [sender]; exact named
      · rw [sender]; exact pinned
      · rw [sender]; exact found
      · rw [sender]; exact made
    rw [passes.beginOpen, made]
    dsimp only [FrameCryptor.decrypted]
    rw [party, ← current, ← atKey, opens, if_neg nonempty]
    rfl

/-- A cryptor on a peer's page, with the session whose keys it reads. -/
structure Receiver (PubKey PrivKey PairKey Key Blob FrameKey : Type) where
  peerId : String
  session : Session PubKey PrivKey PairKey Key Blob
  run : CryptorRun Key FrameKey

def MediaRoom.receivers (s : MediaRoom PubKey PrivKey PairKey Key Blob FrameKey) :
    List (Receiver PubKey PrivKey PairKey Key Blob FrameKey) :=
  s.endpoints.toList.flatMap fun entry =>
    match s.room.sessions.lookup entry.1 with
    | some session => entry.2.objects.map fun run => ⟨entry.1, session, run⟩
    | none => []

/-- Another member sealed the frame under the receiver's epoch and room key; the receiver is
attached for that member, has not opened the frame's counter in this epoch, and has opened
none in this epoch that is a window ahead of it. -/
structure Receiver.Due (receiver : Receiver PubKey PrivKey PairKey Key Blob FrameKey) (frame : SealedFrame Key) :
    Prop where
  foreign : frame.sender ≠ receiver.peerId
  pinned : ∀ remote ∈ receiver.run.cryptor.remoteId, frame.sender = remote
  current : frame.epoch = receiver.session.epoch
  keyed : receiver.session.roomKey = some frame.roomKey
  unopened : ∀ opened ∈ receiver.run.opened, opened.senderId = frame.sender → opened.epoch = frame.epoch →
    opened.counter ≠ frame.counter ∧ opened.counter < frame.counter + defaultWindowSize

/-- No frame of this sender opened in another epoch has this counter or is a window ahead. -/
def Receiver.WindowClear (receiver : Receiver PubKey PrivKey PairKey Key Blob FrameKey) (frame : SealedFrame Key) :
    Prop :=
  ∀ opened ∈ receiver.run.opened, opened.senderId = frame.sender → opened.epoch ≠ frame.epoch →
    opened.counter ≠ frame.counter ∧ opened.counter < frame.counter + defaultWindowSize

def Receiver.Hears (web : WebCrypto Key FrameKey)
    (receiver : Receiver PubKey PrivKey PairKey Key Blob FrameKey) (frame : SealedFrame Key) : Prop :=
  receiver.run.opensTo web receiver.session.epochs frame.wire = some frame.plaintext

instance [DecidableEq Key] (receiver : Receiver PubKey PrivKey PairKey Key Blob FrameKey) (frame : SealedFrame Key) :
    Decidable (receiver.Due frame) :=
  decidable_of_iff (frame.sender ≠ receiver.peerId ∧ (∀ remote ∈ receiver.run.cryptor.remoteId, frame.sender = remote) ∧
      frame.epoch = receiver.session.epoch ∧ receiver.session.roomKey = some frame.roomKey ∧
      ∀ opened ∈ receiver.run.opened, opened.senderId = frame.sender → opened.epoch = frame.epoch →
        opened.counter ≠ frame.counter ∧ opened.counter < frame.counter + defaultWindowSize)
    ⟨fun ⟨foreign, pinned, current, keyed, unopened⟩ => ⟨foreign, pinned, current, keyed, unopened⟩,
      fun due => ⟨due.foreign, due.pinned, due.current, due.keyed, due.unopened⟩⟩

instance (receiver : Receiver PubKey PrivKey PairKey Key Blob FrameKey) (frame : SealedFrame Key) :
    Decidable (receiver.Hears web frame) := inferInstanceAs (Decidable (_ = _))

section heard
variable [ByteSize PubKey] [DecidableEq PubKey] [DecidableEq PrivKey] [DecidableEq PairKey] [DecidableEq Key]
  [ByteSize Blob] [DecidableEq Blob] {config : ProofConfig PubKey}
  {crypto : IdealCrypto PubKey PrivKey PairKey Key Blob} {roomId : String}
  {labels : List (MediaEvent PrivKey Key)} {last : MediaRoom PubKey PrivKey PairKey Key Blob FrameKey}

/-- In every run, a frame that is due is heard exactly when it is not empty and the windows
the receiver kept from other epochs leave room for it. -/
theorem heard_iff_window_clear (lawful : web.Lawful)
    (run : Run (MediaStep config crypto web roomId) .empty labels last)
    {receiver : Receiver PubKey PrivKey PairKey Key Blob FrameKey} (attached : receiver ∈ last.receivers)
    {frame : SealedFrame Key} (sealed : frame ∈ last.frames) (due : receiver.Due frame)
    (unmarked : ¬ StartsWithMark frame.sender) :
    receiver.Hears web frame ↔ frame.plaintext ≠ [] ∧ receiver.WindowClear frame := by
  have sound : last.Sound web roomId := run.invariant MediaRoom.empty_sound fun sound taken => sound.step taken
  obtain ⟨⟨peerId, endpoint⟩, atPeer, member⟩ := List.mem_flatMap.mp attached
  obtain ⟨cryptor, among, same⟩ : ∃ cryptor ∈ endpoint.objects, receiver.run = cryptor := by
    dsimp only at member
    split at member
    next =>
      obtain ⟨cryptor, among, rfl⟩ := List.mem_map.mp member
      exact ⟨cryptor, among, rfl⟩
    next => cases member
  have inRoom := sound.objects peerId endpoint (FiniteMap.mem_toList.mp atPeer) cryptor among
  rw [← same] at inRoom
  rw [Receiver.Hears, CryptorRun.opensTo_iff lawful inRoom (sound.frames frame sealed) unmarked due.current due.keyed
    due.pinned]
  refine and_congr_right fun _ => ⟨fun clear opened among sender _ => ?_, fun clear counter member => ?_⟩
  · exact clear opened.counter (CryptorRun.mem_counters.mpr ⟨opened, among, sender, rfl⟩)
  · obtain ⟨opened, among, sender, rfl⟩ := CryptorRun.mem_counters.mp member
    by_cases now : opened.epoch = frame.epoch
    · exact due.unopened opened among sender now
    · exact clear opened among sender now

end heard

/-- Alice leads Bob at epoch 0 and hands him its key. -/
def meeting : List (Nat × Nat × RoomEvent Nat) :=
  entrance "alice" 1 ++ proceeding "alice" [3] ++ entrance "bob" 2 ++ proceeding "bob" [3] ++
    [(0, 0, .announce 0), (0, 100, .hearKeySet "alice" 0)] ++ proceeding "alice" [4, 5] ++ [(0, 0, .serve "alice" 6)] ++
    proceeding "alice" [6] ++ [(0, 0, .hearSealed "bob" 0)] ++ proceeding "bob" [4, 5]

/-- Bob leaves and returns with a new page; Alice hands him the key of epoch 1. -/
def reunion : List (Nat × Nat × RoomEvent Nat) :=
  [(0, 0, .leave "bob")] ++ entrance "bob" 4 ++ proceeding "bob" [3] ++
    [(0, 0, .announce 1), (0, 200, .hearKeySet "alice" 1)] ++ proceeding "alice" [7, 8] ++ [(0, 0, .serve "alice" 9)] ++
    proceeding "alice" [9] ++ [(0, 0, .hearSealed "bob" 1)] ++ proceeding "bob" [4, 5]

/-- Bob's page makes its first cryptor, for Alice, and seals a frame with it. -/
def speaking (plaintext : List UInt8) : List (MediaEvent Nat Nat) :=
  [.cryptorFor "bob" (some "alice"), .cryptor "bob" 0 (.sealFrame plaintext), .cryptor "bob" 0 (.seals 0 zeroIv)]

/-- Alice's first cryptor opens Bob's first frame of epoch 0. -/
def listening : List (MediaEvent Nat Nat) :=
  [.openFrame (((FrameCryptor.create "r" "bob" none 256).sealed checksumCrypto
    ⟨0, 0, 100, [1, 2, 3]⟩ zeroIv).toOption.getD []) (some "bob"), .opens 0, .opens 0].map (.cryptor "alice" 0)

def acquainted : List (MediaEvent Nat Nat) :=
  meeting.map .room ++ [.cryptorFor "alice" (some "bob")] ++ speaking [1, 2, 3]

def reacquainted : List (MediaEvent Nat Nat) :=
  acquainted ++ listening ++ reunion.map .room ++ speaking [4]

abbrev SymbolicRoom := MediaRoom KeySymbol Nat PairSymbol Nat BlobSymbol (Nat × List UInt8 × List UInt8)

/-- Alice's transform still holds the window of epoch 0, and refuses Bob's new frame. -/
theorem rejoined_speaker_silenced : ¬ ∀ labels (last : SymbolicRoom),
    Run (MediaStep unprovenSymbols symbolic checksumCrypto "r") .empty labels last →
      ∀ receiver ∈ last.receivers, ∀ frame ∈ last.frames, receiver.Due frame → receiver.Hears checksumCrypto frame := by
  have silenced : ((play (fun s : SymbolicRoom => s.step unprovenSymbols symbolic checksumCrypto "r")
      reacquainted .empty).any fun last =>
        last.receivers.any fun receiver => last.frames.any fun frame =>
          decide (receiver.Due frame) && !decide (receiver.Hears checksumCrypto frame)) = true := by decide +kernel
  obtain ⟨last, played, found⟩ := (Option.any_eq_true ..).mp silenced
  obtain ⟨receiver, attached, found⟩ := List.any_eq_true.mp found
  obtain ⟨frame, sealed, found⟩ := List.any_eq_true.mp found
  obtain ⟨due, deaf⟩ := Bool.and_eq_true_iff.mp found
  intro always
  exact of_decide_eq_false ((Bool.not_eq_true' _).mp deaf)
    (always _ last (play_run played) receiver attached frame sealed (of_decide_eq_true due))

/-- At epoch 0 she hears him. -/
theorem heard_iff_window_clear_acquainted : ∃ last : SymbolicRoom,
    Run (MediaStep unprovenSymbols symbolic checksumCrypto "r") .empty acquainted last ∧
      ∃ receiver ∈ last.receivers, ∃ frame ∈ last.frames, receiver.Due frame ∧ receiver.Hears checksumCrypto frame := by
  have clear : ((play (fun s : SymbolicRoom => s.step unprovenSymbols symbolic checksumCrypto "r")
      acquainted .empty).any fun last => last.receivers.any fun receiver => last.frames.any fun frame =>
        decide (receiver.Due frame ∧ ¬ StartsWithMark frame.sender ∧ frame.plaintext ≠ [] ∧
          receiver.run.opened = [])) = true := by decide +kernel
  obtain ⟨last, played, found⟩ := (Option.any_eq_true ..).mp clear
  obtain ⟨receiver, attached, found⟩ := List.any_eq_true.mp found
  obtain ⟨frame, sealed, found⟩ := List.any_eq_true.mp found
  obtain ⟨due, unmarked, nonempty, unheard⟩ := of_decide_eq_true found
  have run := play_run played
  refine ⟨last, run, receiver, attached, frame, sealed, due, ?_⟩
  refine (heard_iff_window_clear checksumCrypto_lawful run attached sealed due unmarked).mpr ⟨nonempty, ?_⟩
  intro opened member
  rw [unheard] at member
  cases member

end Burble.E2EE
