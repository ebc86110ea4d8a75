import Mathlib
import Burble.Base64
import Burble.Separated
import Burble.TextOrder
import Burble.E2EE.Coordinator
import Burble.E2EE.FrameCryptor

namespace Burble.E2EE

def labelPairwise : String := "burble-e2ee-pairwise-v1"
def labelGroup : String := "burble-e2ee-group-v1"

/-- A stable sort of texts by their codes. -/
def sortBy (code : String → List Nat) (ids : List String) : List String :=
  ids.mergeSort fun one other => !decide (code other < code one)

/-- The bytes of a text, the order in which Elixir compares binaries. -/
def bytewise (text : String) : List Nat := (utf8 text).map UInt8.toNat

/-! What `e2ee.ex` binds. -/

namespace Elixir

def sealAad (roomId : String) (epoch : Nat) (fromId toId : String) : List UInt8 :=
  utf8 ("|".intercalate [labelGroup, roomId, toString epoch, fromId, toId])

def pairwiseSaltText (roomId : String) (epoch : Nat) : List UInt8 :=
  utf8 "pairwise|" ++ utf8 roomId ++ utf8 "|" ++ utf8 (toString epoch)

def pairwiseInfo (myPeerId peerId : String) : List UInt8 :=
  utf8 (labelPairwise ++ "|" ++ "|".intercalate (sortBy bytewise [myPeerId, peerId]))

/-- What an identity key signs for a public key. -/
def keyProofPayload (roomId peerId : String) (publicKey : List UInt8) : List UInt8 :=
  let encoded := Base64.encode64 publicKey
  utf8 s!"{roomId}|{peerId}|{encoded}"

end Elixir

/-! What `e2ee.js` binds. -/

namespace Browser

def sealAad (roomId : String) (epoch : Nat) (fromId toId : String) : List UInt8 :=
  utf8 s!"{labelGroup}|{roomId}|{epoch}|{fromId}|{toId}"

def pairwiseSaltText (roomId : String) (epoch : Nat) : List UInt8 := utf8 s!"pairwise|{roomId}|{epoch}"

def pairwiseInfo (myPeerId theirPeerId : String) : List UInt8 :=
  let joined := "|".intercalate (sortBy utf16 [myPeerId, theirPeerId])
  utf8 s!"{labelPairwise}|{joined}"

def senderFrameInfo (senderId : String) (counter : Nat) : List UInt8 :=
  let infoSuffix := s!"sender|{senderId}|{counter}"
  utf8 s!"burble-e2ee-frame-v1|{infoSuffix}"

end Browser

theorem deriveSenderFrameKey_eq {Key FrameKey : Type} (crypto : WebCrypto Key FrameKey) (groupKey : Key) (epoch : Nat)
    (senderId : String) (counter : Nat) : deriveSenderFrameKey crypto groupKey epoch senderId counter =
      crypto.hkdf groupKey (crypto.sha256 (utf8 s!"frame|{epoch}")) (Browser.senderFrameInfo senderId counter) := rfl

/-- The two programs that build context strings. -/
inductive Side
  | elixir
  | browser

namespace Side

def sealAad : Side → String → Nat → String → String → List UInt8
  | elixir => Elixir.sealAad
  | browser => Browser.sealAad

def pairwiseSaltText : Side → String → Nat → List UInt8
  | elixir => Elixir.pairwiseSaltText
  | browser => Browser.pairwiseSaltText

def pairwiseInfo : Side → String → String → List UInt8
  | elixir => Elixir.pairwiseInfo
  | browser => Browser.pairwiseInfo

end Side

/-- Texts that are written in some characters. -/
def Written (allowed : Char → Prop) (text : String) : Prop := ∀ c ∈ text.toList, allowed c

/-- Ids of peers that the server takes. -/
def PeerId (allowed : Char → Prop) (id : String) : Prop := Written allowed id ∧ validPeerId id = .ok ()

/-- Ids of senders that the client takes. -/
def SenderId (allowed : Char → Prop) (id : String) : Prop := Written allowed id ∧ id ≠ "" ∧ (utf8 id).length ≤ 255

/-- Where ids are written in some characters, what is bound in a context is bound in no other.
A salt is a digest, so it tells contexts apart whose salt texts are no collision of that digest. -/
structure Binds (sha256 : List UInt8 → List UInt8) (allowed : Char → Prop) : Prop where
  sealAad : ∀ (side side' : Side) roomId roomId' epoch epoch' fromId fromId' toId toId', Written allowed roomId →
    Written allowed roomId' → PeerId allowed fromId → PeerId allowed fromId' → PeerId allowed toId → PeerId allowed toId' →
    side.sealAad roomId epoch fromId toId = side'.sealAad roomId' epoch' fromId' toId' →
    roomId = roomId' ∧ epoch = epoch' ∧ fromId = fromId' ∧ toId = toId'
  frameAad : ∀ roomId roomId' epoch epoch' senderId senderId' counter counter', Written allowed roomId →
    Written allowed roomId' → SenderId allowed senderId → SenderId allowed senderId' →
    frameAad roomId epoch senderId counter = frameAad roomId' epoch' senderId' counter' →
    roomId = roomId' ∧ epoch = epoch' ∧ senderId = senderId' ∧ counter = counter'
  frameInfo : ∀ senderId senderId' counter counter', SenderId allowed senderId → SenderId allowed senderId' →
    Browser.senderFrameInfo senderId counter = Browser.senderFrameInfo senderId' counter' →
    senderId = senderId' ∧ counter = counter'
  pairwise : ∀ (side side' : Side) roomId roomId' epoch epoch' one one' other other', Written allowed roomId →
    Written allowed roomId' → PeerId allowed one → PeerId allowed one' → PeerId allowed other → PeerId allowed other' →
    ¬ (side.pairwiseSaltText roomId epoch ≠ side'.pairwiseSaltText roomId' epoch' ∧
      sha256 (side.pairwiseSaltText roomId epoch) = sha256 (side'.pairwiseSaltText roomId' epoch')) →
    sha256 (side.pairwiseSaltText roomId epoch) = sha256 (side'.pairwiseSaltText roomId' epoch') →
    side.pairwiseInfo one other = side'.pairwiseInfo one' other' →
    roomId = roomId' ∧ epoch = epoch' ∧ (one = one' ∧ other = other' ∨ one = other' ∧ other = one')
  keyProof : ∀ roomId roomId' peerId peerId' publicKey publicKey', Written allowed roomId → Written allowed roomId' →
    PeerId allowed peerId → PeerId allowed peerId' → publicKey.length = 32 → publicKey'.length = 32 →
    Elixir.keyProofPayload roomId peerId publicKey = Elixir.keyProofPayload roomId' peerId' publicKey' →
    roomId = roomId' ∧ peerId = peerId' ∧ publicKey = publicKey'

/-! Both sides write the same fields, with bars between them. -/

section Fields
theorem Browser.sealAad_eq (roomId : String) (epoch : Nat) (fromId toId : String) :
    Browser.sealAad roomId epoch fromId toId = Elixir.sealAad roomId epoch fromId toId := by
  rw [Elixir.sealAad, Browser.sealAad]
  congr 1

theorem frameAad_eq (roomId : String) (epoch : Nat) (senderId : String) (counter : Nat) :
    frameAad roomId epoch senderId counter =
      utf8 ("|".intercalate ["frame-aad", roomId, toString epoch, senderId, toString counter]) := by
  rw [frameAad]
  congr 1

theorem Elixir.pairwiseSaltText_eq (roomId : String) (epoch : Nat) :
    Elixir.pairwiseSaltText roomId epoch = utf8 ("|".intercalate ["pairwise", roomId, toString epoch]) := by
  rw [Elixir.pairwiseSaltText, ← utf8_append, ← utf8_append, ← utf8_append]
  congr 1

theorem Browser.pairwiseSaltText_eq (roomId : String) (epoch : Nat) :
    Browser.pairwiseSaltText roomId epoch = Elixir.pairwiseSaltText roomId epoch := by
  rw [Browser.pairwiseSaltText, Elixir.pairwiseSaltText_eq]
  congr 1

theorem Elixir.keyProofPayload_eq (roomId peerId : String) (publicKey : List UInt8) :
    Elixir.keyProofPayload roomId peerId publicKey =
      utf8 ("|".intercalate [roomId, peerId, Base64.encode64 publicKey]) := by
  rw [Elixir.keyProofPayload]
  congr 1

theorem Side.sealAad_eq (side : Side) (roomId : String) (epoch : Nat) (fromId toId : String) :
    side.sealAad roomId epoch fromId toId =
      utf8 ("|".intercalate [labelGroup, roomId, toString epoch, fromId, toId]) := by
  cases side with
  | elixir => rfl
  | browser => exact Browser.sealAad_eq roomId epoch fromId toId

theorem Side.pairwiseSaltText_eq (side : Side) (roomId : String) (epoch : Nat) :
    side.pairwiseSaltText roomId epoch = utf8 ("|".intercalate ["pairwise", roomId, toString epoch]) := by
  cases side with
  | elixir => exact Elixir.pairwiseSaltText_eq roomId epoch
  | browser => exact (Browser.pairwiseSaltText_eq roomId epoch).trans (Elixir.pairwiseSaltText_eq roomId epoch)

theorem sortBy_pair (code : String → List Nat) (one other : String) :
    sortBy code [one, other] = if code other < code one then [other, one] else [one, other] := by
  rw [sortBy]
  by_cases low : code other < code one
  · rw [if_pos low]
    simp [List.mergeSort, List.MergeSort.Internal.splitInTwo, low]
  · rw [if_neg low]
    simp [List.mergeSort, List.MergeSort.Internal.splitInTwo, low]

end Fields

/-- A pair of ids stands in an info in one of its two orders. -/
theorem Side.pairwiseInfo_eq (side : Side) (one other : String) : ∃ low high,
    (low = one ∧ high = other ∨ low = other ∧ high = one) ∧
      side.pairwiseInfo one other = utf8 ("|".intercalate [labelPairwise, low, high]) := by
  have sorted (code : String → List Nat) : ∃ low high, (low = one ∧ high = other ∨ low = other ∧ high = one) ∧
      sortBy code [one, other] = [low, high] := by
    rw [sortBy_pair]
    split
    · exact ⟨other, one, .inr ⟨rfl, rfl⟩, rfl⟩
    · exact ⟨one, other, .inl ⟨rfl, rfl⟩, rfl⟩
  cases side with
  | elixir =>
    obtain ⟨low, high, pair, order⟩ := sorted bytewise
    refine ⟨low, high, pair, ?_⟩
    rw [Side.pairwiseInfo, Elixir.pairwiseInfo, order]
    congr 1
  | browser =>
    obtain ⟨low, high, pair, order⟩ := sorted utf16
    refine ⟨low, high, pair, ?_⟩
    rw [Side.pairwiseInfo, Browser.pairwiseInfo, order]
    congr 1

section Injective
variable {parts parts' : List String} {senderId senderId' roomId roomId' : String} {counter counter' epoch epoch' : Nat}

theorem bar_notMem_toString (n : Nat) : '|' ∉ (toString n).toList := by
  intro member
  have digit := Nat.isDigit_of_mem_toDigits (by omega) (by omega) (Nat.toList_repr ▸ member)
  exact absurd digit (by decide)

theorem toString_inj {n m : Nat} (same : toString n = toString m) : n = m := Nat.repr_injective same

theorem barred_inj (filled : parts ≠ []) (filled' : parts' ≠ []) (free : ∀ part ∈ parts, '|' ∉ part.toList)
    (free' : ∀ part ∈ parts', '|' ∉ part.toList)
    (same : utf8 ("|".intercalate parts) = utf8 ("|".intercalate parts')) : parts = parts' :=
  intercalate_inj (by decide) filled filled' free free' (utf8_injective same)

/-- A number is the last field, and it holds no bar: whatever comes before it is told apart. -/
theorem last_field_inj {front front' : String} {n m : Nat}
    (same : utf8 (front ++ "|" ++ toString n) = utf8 (front' ++ "|" ++ toString m)) : front = front' ∧ n = m := by
  have texts := congrArg String.toList (utf8_injective same)
  simp only [String.toList_append, List.append_assoc] at texts
  obtain ⟨fronts, numbers⟩ := split_at_last (bar_notMem_toString n) (bar_notMem_toString m) texts
  exact ⟨String.toList_inj.mp fronts, toString_inj (String.toList_inj.mp numbers)⟩

theorem senderFrameInfo_inj (same : Browser.senderFrameInfo senderId counter = Browser.senderFrameInfo senderId' counter') :
    senderId = senderId' ∧ counter = counter' := by
  have split (senderId : String) (counter : Nat) : Browser.senderFrameInfo senderId counter =
      utf8 ("burble-e2ee-frame-v1|sender|" ++ senderId ++ "|" ++ toString counter) := by
    rw [Browser.senderFrameInfo]
    congr 1
  rw [split, split] at same
  obtain ⟨fronts, counters⟩ := last_field_inj same
  exact ⟨(String.append_right_inj _).mp fronts, counters⟩

theorem pairwiseSaltText_inj (same : Elixir.pairwiseSaltText roomId epoch = Elixir.pairwiseSaltText roomId' epoch') :
    roomId = roomId' ∧ epoch = epoch' := by
  rw [Elixir.pairwiseSaltText, Elixir.pairwiseSaltText, ← utf8_append, ← utf8_append, ← utf8_append,
    ← utf8_append, ← utf8_append, ← utf8_append] at same
  obtain ⟨fronts, epochs⟩ := last_field_inj same
  exact ⟨(String.append_right_inj _).mp fronts, epochs⟩

end Injective

section Binding
variable {sha256 : List UInt8 → List UInt8} {allowed : Char → Prop} {id : String}

theorem Written.free (written : Written allowed id) (kept : ¬ allowed '|') : '|' ∉ id.toList :=
  fun member => kept (written _ member)

theorem encode64_no_bar (bytes : List UInt8) : '|' ∉ (Base64.encode64 bytes).toList :=
  Base64.encode64_free (by decide +kernel) bytes

theorem binds_of_no_bar (kept : ¬ allowed '|') : Binds sha256 allowed where
  sealAad side side' roomId roomId' epoch epoch' fromId fromId' toId toId' room room' sender sender' target target' same := by
    rw [side.sealAad_eq, side'.sealAad_eq] at same
    have parts := barred_inj (List.cons_ne_nil _ _) (List.cons_ne_nil _ _)
      (by simp only [List.forall_mem_cons]
          exact ⟨by decide, room.free kept, bar_notMem_toString _, sender.1.free kept, target.1.free kept, nofun⟩)
      (by simp only [List.forall_mem_cons]
          exact ⟨by decide, room'.free kept, bar_notMem_toString _, sender'.1.free kept, target'.1.free kept, nofun⟩) same
    simp only [List.cons.injEq, true_and, and_true] at parts
    exact ⟨parts.1, toString_inj parts.2.1, parts.2.2⟩
  frameAad roomId roomId' epoch epoch' senderId senderId' counter counter' room room' sender sender' same := by
    rw [frameAad_eq, frameAad_eq] at same
    have parts := barred_inj (List.cons_ne_nil _ _) (List.cons_ne_nil _ _)
      (by simp only [List.forall_mem_cons]
          exact ⟨by decide, room.free kept, bar_notMem_toString _, sender.1.free kept, bar_notMem_toString _, nofun⟩)
      (by simp only [List.forall_mem_cons]
          exact ⟨by decide, room'.free kept, bar_notMem_toString _, sender'.1.free kept, bar_notMem_toString _, nofun⟩) same
    simp only [List.cons.injEq, true_and, and_true] at parts
    exact ⟨parts.1, toString_inj parts.2.1, parts.2.2.1, toString_inj parts.2.2.2⟩
  frameInfo _ _ _ _ _ _ same := senderFrameInfo_inj same
  pairwise side side' roomId roomId' epoch epoch' one one' other other' room room' first first' second second' unlike digests same := by
    have texts : side.pairwiseSaltText roomId epoch = side'.pairwiseSaltText roomId' epoch' :=
      not_not.mp fun apart => unlike ⟨apart, digests⟩
    rw [side.pairwiseSaltText_eq, side'.pairwiseSaltText_eq, ← Elixir.pairwiseSaltText_eq, ← Elixir.pairwiseSaltText_eq] at texts
    obtain ⟨low, high, pair, info⟩ := side.pairwiseInfo_eq one other
    obtain ⟨low', high', pair', info'⟩ := side'.pairwiseInfo_eq one' other'
    have free : '|' ∉ low.toList ∧ '|' ∉ high.toList := by
      rcases pair with ⟨rfl, rfl⟩ | ⟨rfl, rfl⟩
      · exact ⟨first.1.free kept, second.1.free kept⟩
      · exact ⟨second.1.free kept, first.1.free kept⟩
    have free' : '|' ∉ low'.toList ∧ '|' ∉ high'.toList := by
      rcases pair' with ⟨rfl, rfl⟩ | ⟨rfl, rfl⟩
      · exact ⟨first'.1.free kept, second'.1.free kept⟩
      · exact ⟨second'.1.free kept, first'.1.free kept⟩
    rw [info, info'] at same
    have parts := barred_inj (List.cons_ne_nil _ _) (List.cons_ne_nil _ _)
      (by simp only [List.forall_mem_cons]; exact ⟨by decide, free.1, free.2, nofun⟩)
      (by simp only [List.forall_mem_cons]; exact ⟨by decide, free'.1, free'.2, nofun⟩) same
    simp only [List.cons.injEq, true_and, and_true] at parts
    obtain ⟨rfl, rfl⟩ := parts
    refine ⟨(pairwiseSaltText_inj texts).1, (pairwiseSaltText_inj texts).2, ?_⟩
    rcases pair with ⟨rfl, rfl⟩ | ⟨rfl, rfl⟩
    · exact pair'
    · exact pair'.symm.imp (fun same => ⟨same.2, same.1⟩) (fun same => ⟨same.2, same.1⟩)
  keyProof roomId roomId' peerId peerId' publicKey publicKey' room room' peer peer' long long' same := by
    rw [Elixir.keyProofPayload_eq, Elixir.keyProofPayload_eq] at same
    have parts := barred_inj (List.cons_ne_nil _ _) (List.cons_ne_nil _ _)
      (by simp only [List.forall_mem_cons]
          exact ⟨room.free kept, peer.1.free kept, encode64_no_bar _, nofun⟩)
      (by simp only [List.forall_mem_cons]
          exact ⟨room'.free kept, peer'.1.free kept, encode64_no_bar _, nofun⟩) same
    simp only [List.cons.injEq, and_true] at parts
    exact ⟨parts.1, parts.2.1, Base64.encode64_inj (long.trans long'.symm) parts.2.2⟩

/-- Two peers whose ids are bars share their sealed keys' additional data. -/
theorem not_binds_of_bar (bar : allowed '|') : ¬ Binds sha256 allowed := by
  intro binds
  have bars (count : Nat) : Written allowed (String.ofList (List.replicate count '|')) := by
    intro c member
    rw [String.toList_ofList] at member
    exact List.eq_of_mem_replicate member ▸ bar
  have same := binds.sealAad .elixir .elixir "|" "|" 0 0 "|" "||" "||" "|" (bars 1) (bars 1) ⟨bars 1, by decide⟩
    ⟨bars 2, by decide⟩ ⟨bars 2, by decide⟩ ⟨bars 1, by decide⟩ (by decide)
  exact absurd same.2.2.1 (by decide)

/-- Context strings bind where no id holds the bar that separates their fields, and nowhere else. -/
theorem binds_iff_no_bar (sha256 : List UInt8 → List UInt8) (allowed : Char → Prop) :
    Binds sha256 allowed ↔ ¬ allowed '|' :=
  ⟨fun binds bar => not_binds_of_bar bar binds, binds_of_no_bar⟩

/-- A key sealed from `a|b` for `c` opens as one from `a` for `b|c`. -/
theorem sealed_contexts_collide : validPeerId "a|b" = .ok () ∧ validPeerId "c" = .ok () ∧ validPeerId "a" = .ok () ∧
    validPeerId "b|c" = .ok () ∧ "a|b" ≠ "a" ∧ Elixir.sealAad "lobby" 1 "a|b" "c" = Elixir.sealAad "lobby" 1 "a" "b|c" ∧
    Browser.sealAad "lobby" 1 "a|b" "c" = Browser.sealAad "lobby" 1 "a" "b|c" := by
  decide +kernel

end Binding

end Burble.E2EE
