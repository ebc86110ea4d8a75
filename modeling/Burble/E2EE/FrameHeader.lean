import Burble.TextOrder
import Burble.E2EE.FrameCryptor

namespace Burble.E2EE
variable {Key FrameKey : Type} {web : WebCrypto Key FrameKey}

/-- `TextDecoder` takes such an id's first character for a byte order mark. -/
def StartsWithMark (text : String) : Prop := (utf8 text).take 3 = [0xEF, 0xBB, 0xBF]

instance (text : String) : Decidable (StartsWithMark text) := inferInstanceAs (Decidable (_ = _))

theorem decodeText_utf8 {text : String} (unmarked : ¬ StartsWithMark text) : decodeText web (utf8 text) = text := by
  unfold StartsWithMark at unmarked
  simp only [decodeText, if_neg unmarked, ofUtf8_utf8, Option.getD_some]

theorem utf8_ne_nil {text : String} (nonempty : text ≠ "") : utf8 text ≠ [] := by
  intro none
  exact nonempty (utf8_injective (by rw [none]; rfl))

variable (web) in
/-- What follows a mark is all that is read of a text. -/
theorem decodeText_marked {text : String} (marked : StartsWithMark text) :
    (utf8 (decodeText web (utf8 text))).length + 3 = (utf8 text).length := by
  have begins : utf8 text = utf8 "\uFEFF" ++ (utf8 text).drop 3 := by
    rw [show utf8 "\uFEFF" = [0xEF, 0xBB, 0xBF] by decide, ← marked, List.take_append_drop]
  obtain ⟨back, -, rest⟩ := utf8_prefix begins
  have long : 3 ≤ (utf8 text).length := by
    rw [begins, List.length_append]
    exact Nat.le_add_right 3 _
  unfold StartsWithMark at marked
  simp only [decodeText, if_pos marked, ← rest, ofUtf8_utf8, Option.getD_some]
  rw [rest, List.length_drop]
  omega

variable (web) in
theorem decodeText_utf8_iff {text : String} : decodeText web (utf8 text) = text ↔ ¬ StartsWithMark text := by
  constructor
  · intro same marked
    have shorter := decodeText_marked web marked
    rw [same] at shorter
    omega
  · exact decodeText_utf8

/-! A frame header is its version, a sender id with its length, the epoch and the counter. -/

def frameHeader (id : List UInt8) (epoch counter : Nat) : List UInt8 :=
  [frameVersion, id.length.toUInt8] ++ id ++ bigEndian 4 epoch ++ bigEndian 4 counter

def senderBytes (sender : Option String) : List UInt8 := (sender.map utf8).getD []

def senderOf (web : WebCrypto Key FrameKey) (id : List UInt8) : Option String :=
  if id.length = 0 then none else some (decodeText web id)

section Header
variable {epoch counter : Nat} {sender : Option String} {header id : List UInt8}

theorem encodeFrameHeader_eq_ok : encodeFrameHeader epoch counter sender = .ok header ↔
    epoch ≤ uint32Max ∧ counter ≤ uint32Max ∧ (senderBytes sender).length ≤ 255 ∧
      header = frameHeader (senderBytes sender) epoch counter := by
  unfold encodeFrameHeader senderBytes frameHeader
  dsimp only
  split_ifs with epochFits counterFits short
  · exact iff_of_false nofun fun all => absurd all.1 (by omega)
  · exact iff_of_false nofun fun all => absurd all.2.1 (by omega)
  · exact iff_of_false nofun fun all => absurd all.2.2.1 (by omega)
  · rw [Except.ok.injEq, eq_comm]
    exact ⟨fun same => ⟨by omega, by omega, by omega, same⟩, fun all => all.2.2.2⟩

theorem length_toUInt8 (short : id.length ≤ 255) : id.length.toUInt8.toNat = id.length := by
  rw [show id.length.toUInt8.toNat = id.length % 256 from UInt8.toNat_ofNat]
  omega

/-- A header is read back from the front of a frame. -/
theorem decodeFrameHeader_frameHeader (epochFits : epoch ≤ uint32Max) (counterFits : counter ≤ uint32Max)
    (short : id.length ≤ 255) (body : List UInt8) :
    decodeFrameHeader web (frameHeader id epoch counter ++ body) = .ok ⟨senderOf web id, epoch, counter, body⟩ := by
  rw [uint32Max] at epochFits counterFits
  have epochBytes : ofBigEndian (bigEndian 4 epoch) = epoch := ofBigEndian_of_lt (by omega)
  have counterBytes : ofBigEndian (bigEndian 4 counter) = counter := ofBigEndian_of_lt (by omega)
  have frame : frameHeader id epoch counter ++ body =
      frameVersion :: id.length.toUInt8 :: (id ++ (bigEndian 4 epoch ++ (bigEndian 4 counter ++ body))) := by
    simp only [frameHeader, List.append_assoc, List.cons_append, List.nil_append]
  have long : 10 + id.length ≤ (frameVersion :: id.length.toUInt8 ::
      (id ++ (bigEndian 4 epoch ++ (bigEndian 4 counter ++ body)))).length := by
    simp only [List.length_cons, List.length_append, bigEndian_length]
    omega
  have tail : (frameVersion :: id.length.toUInt8 ::
      (id ++ (bigEndian 4 epoch ++ (bigEndian 4 counter ++ body)))).drop (2 + id.length) =
        bigEndian 4 epoch ++ (bigEndian 4 counter ++ body) := by
    rw [Nat.add_comm, List.drop_succ_cons, List.drop_succ_cons, List.drop_left]
  have rest : (bigEndian 4 epoch ++ (bigEndian 4 counter ++ body)).drop (4 + 4) = body := by
    rw [← List.drop_drop, List.drop_left' (bigEndian_length 4 epoch), List.drop_left' (bigEndian_length 4 counter)]
  rw [frame]
  unfold decodeFrameHeader senderOf
  rw [if_neg (by rw [frameHeaderBytes]; omega), if_neg (by simp)]
  simp only [List.getD_cons_succ, List.getD_cons_zero, length_toUInt8 short, tail]
  rw [if_neg (by omega)]
  simp only [List.drop_succ_cons, List.drop_zero, List.take_left]
  rw [List.take_left' (bigEndian_length 4 epoch), List.drop_left' (bigEndian_length 4 epoch),
    List.take_left' (bigEndian_length 4 counter), epochBytes, counterBytes, rest]

/-- Whatever is read as a frame is a header and a body. -/
theorem decodeFrameHeader_eq_ok {bytes : List UInt8} {fields : FrameHeader}
    (decodes : decodeFrameHeader web bytes = .ok fields) : ∃ id, id = (bytes.drop 2).take (bytes.getD 1 0).toNat ∧
      id.length ≤ 255 ∧ fields.epoch ≤ uint32Max ∧ fields.counter ≤ uint32Max ∧
      bytes = frameHeader id fields.epoch fields.counter ++ fields.body ∧ fields.senderId = senderOf web id := by
  unfold decodeFrameHeader at decodes
  rcases bytes with _ | ⟨version, _ | ⟨idLen, rest⟩⟩
  · cases decodes
  · cases decodes
  simp only [List.getD_cons_succ, List.getD_cons_zero, List.drop_succ_cons, List.drop_zero, List.length_cons] at decodes ⊢
  split at decodes
  next => cases decodes
  next =>
  split at decodes
  next => cases decodes
  next supported =>
  split at decodes
  next => cases decodes
  next long =>
  cases decodes
  have small : idLen.toNat < 256 := idLen.toNat_lt
  have whole : (rest.take idLen.toNat).length = idLen.toNat := by
    rw [List.length_take]
    omega
  have tail : (version :: idLen :: rest).drop (2 + idLen.toNat) = rest.drop idLen.toNat := by
    rw [Nat.add_comm, List.drop_succ_cons, List.drop_succ_cons]
  have epochLong : ((rest.drop idLen.toNat).take 4).length = 4 := by
    rw [List.length_take, List.length_drop]
    omega
  have counterLong : (((rest.drop idLen.toNat).drop 4).take 4).length = 4 := by
    rw [List.length_take, List.length_drop, List.length_drop]
    omega
  have epochFits := ofBigEndian_lt epochLong
  have counterFits := ofBigEndian_lt counterLong
  dsimp only
  rw [tail]
  refine ⟨rest.take idLen.toNat, rfl, by omega, by rw [uint32Max]; omega, by rw [uint32Max]; omega, ?_, ?_⟩
  · have length : (rest.take idLen.toNat).length.toUInt8 = idLen := by
      apply UInt8.toNat_inj.mp
      rw [length_toUInt8 (by omega), whole]
    have parts : rest.take idLen.toNat ++ ((rest.drop idLen.toNat).take 4 ++
        (((rest.drop idLen.toNat).drop 4).take 4 ++ (rest.drop idLen.toNat).drop 8)) = rest := by
      rw [← show ((rest.drop idLen.toNat).drop 4).drop 4 = (rest.drop idLen.toNat).drop 8 from List.drop_drop,
        List.take_append_drop, List.take_append_drop, List.take_append_drop]
    rw [frameHeader, length, bigEndian_ofBigEndian epochLong, bigEndian_ofBigEndian counterLong, ← not_not.mp supported]
    simp only [List.append_assoc, List.cons_append, List.nil_append, parts]
  · rw [senderOf, whole]

/-- Headers of one epoch and counter are told apart by their ids. -/
theorem frameHeader_inj {id' body : List UInt8}
    (same : frameHeader id epoch counter ++ body = frameHeader id' epoch counter ++ body) : id = id' := by
  have headers := List.append_cancel_right same
  unfold frameHeader at headers
  have framed := List.append_cancel_right (List.append_cancel_right headers)
  exact (List.cons.inj (List.cons.inj framed).2).2

end Header

/-! Ids that the decoder reads as they were written. -/

section RoundTrip
variable {id : List UInt8}

/-- Well-formed UTF-8 that does not begin with a byte order mark. -/
def PlainId (id : List UInt8) : Prop := ∃ text, utf8 text = id ∧ ¬ StartsWithMark text

variable (web) in
theorem senderOf_senderBytes_iff {sender : Option String} (filled : sender ≠ some "") :
    senderOf web (senderBytes sender) = sender ↔ ∀ text, sender = some text → ¬ StartsWithMark text := by
  cases sender with
  | none => exact iff_of_true rfl nofun
  | some text =>
    have nonempty : (utf8 text).length ≠ 0 := fun none =>
      utf8_ne_nil (fun empty => filled (congrArg some empty)) (List.length_eq_zero_iff.mp none)
    rw [senderBytes, Option.map_some, Option.getD_some, senderOf, if_neg nonempty, Option.some.injEq, decodeText_utf8_iff web]
    exact ⟨fun unmarked other same => Option.some.inj same ▸ unmarked, fun each => each text rfl⟩

variable (web) in
theorem senderBytes_senderOf_iff : senderBytes (senderOf web id) = id ↔ PlainId id := by
  by_cases none : id.length = 0
  · rw [senderOf, if_pos none, List.length_eq_zero_iff.mp none]
    exact iff_of_true rfl ⟨"", by decide, by decide⟩
  · rw [senderOf, if_neg none, senderBytes, Option.map_some, Option.getD_some]
    constructor
    · intro same
      refine ⟨decodeText web id, same, (decodeText_utf8_iff web).mp ?_⟩
      rw [same]
    · rintro ⟨text, rfl, unmarked⟩
      rw [decodeText_utf8 unmarked]

theorem decodeFrameHeader_encode_iff {epoch counter : Nat} {sender : Option String} {header : List UInt8}
    (encodes : encodeFrameHeader epoch counter sender = .ok header) (filled : sender ≠ some "") (body : List UInt8) :
    decodeFrameHeader web (header ++ body) = .ok ⟨sender, epoch, counter, body⟩ ↔
      ∀ text, sender = some text → ¬ StartsWithMark text := by
  obtain ⟨epochFits, counterFits, short, rfl⟩ := encodeFrameHeader_eq_ok.mp encodes
  rw [decodeFrameHeader_frameHeader epochFits counterFits short, ← senderOf_senderBytes_iff web filled]
  simp only [Except.ok.injEq, FrameHeader.mk.injEq, and_true]

/-- A frame's bytes are written back where its id is plain. -/
theorem decodeFrameHeader_written_iff {bytes : List UInt8} {fields : FrameHeader}
    (decodes : decodeFrameHeader web bytes = .ok fields) :
    (∃ header, encodeFrameHeader fields.epoch fields.counter fields.senderId = .ok header ∧
      header ++ fields.body = bytes) ↔ PlainId ((bytes.drop 2).take (bytes.getD 1 0).toNat) := by
  obtain ⟨id, place, short, epochFits, counterFits, whole, sender⟩ := decodeFrameHeader_eq_ok decodes
  rw [← place, sender, ← senderBytes_senderOf_iff web]
  constructor
  · rintro ⟨header, encodes, written⟩
    obtain ⟨-, -, -, rfl⟩ := encodeFrameHeader_eq_ok.mp encodes
    exact frameHeader_inj (written.trans whole)
  · intro same
    refine ⟨frameHeader id fields.epoch fields.counter, ?_, whole.symm⟩
    exact encodeFrameHeader_eq_ok.mpr ⟨epochFits, counterFits, by rwa [same], by rw [same]⟩

/-- A header round-trips where its sender id does not begin with a byte order mark, and a frame's
bytes are written back where its id is also well formed. -/
theorem frame_header_round_trips_iff (web : WebCrypto Key FrameKey) :
    (∀ epoch counter sender body header, encodeFrameHeader epoch counter sender = .ok header → sender ≠ some "" →
      (decodeFrameHeader web (header ++ body) = .ok ⟨sender, epoch, counter, body⟩ ↔
        ∀ text, sender = some text → ¬ StartsWithMark text)) ∧
    ∀ bytes fields, decodeFrameHeader web bytes = .ok fields →
      ((∃ header, encodeFrameHeader fields.epoch fields.counter fields.senderId = .ok header ∧
          header ++ fields.body = bytes) ↔ PlainId ((bytes.drop 2).take (bytes.getD 1 0).toNat)) := by
  constructor
  · intro epoch counter sender body header encodes filled
    exact decodeFrameHeader_encode_iff encodes filled body
  · intro bytes fields decodes
    exact decodeFrameHeader_written_iff decodes

/-- The frames are not opened here; a byte that is no text is read as a replacement character. -/
def readingCrypto : WebCrypto Nat Nat where
  sha256 bytes := bytes
  hkdf key _ _ := key
  encrypt _ _ _ plaintext := plaintext
  decrypt _ _ _ sealedBytes := some sealedBytes
  replaceMalformed _ := "\uFFFD"

/-- A mark at the start of an id is lost, and a byte that is no text comes back as three others. -/
theorem marked_sender_lost :
    (∃ header, encodeFrameHeader 0 7 (some "\uFEFFalice") = .ok header ∧
      (decodeFrameHeader readingCrypto header).toOption.map FrameHeader.senderId = some (some "alice")) ∧
    ∃ fields, decodeFrameHeader readingCrypto [1, 1, 0xFF, 0, 0, 0, 0, 0, 0, 0, 7] = .ok fields ∧
      encodeFrameHeader fields.epoch fields.counter fields.senderId =
        .ok [1, 3, 0xEF, 0xBF, 0xBD, 0, 0, 0, 0, 0, 0, 0, 7] := by
  exact ⟨⟨_, rfl, by decide +kernel⟩, _, rfl, by decide +kernel⟩

end RoundTrip

end Burble.E2EE
