import Burble.SelfCopy
import Burble.Coprocessor.Compression

namespace Burble.Coprocessor.Compression

/-! The sequences of a block, and the bytes they are written as. -/

/-- Literals, and a copy that follows them. -/
structure Sequence where
  literals : List UInt8
  offset : Nat
  matchLen : Nat
  far : 0 < offset
  near : offset ≤ maxOffset
  long : minMatch ≤ matchLen

def lengthBytes (length : Nat) : List UInt8 := List.replicate (length / 255) 255 ++ [(length % 255).toUInt8]

def extraBytes (length : Nat) : List UInt8 := if length ≥ 15 then lengthBytes (length - 15) else []

def Sequence.bytes (s : Sequence) : List UInt8 :=
  (lengthToken s.literals.length <<< 4 ||| lengthToken (s.matchLen - minMatch)) ::
    (extraBytes s.literals.length ++ (s.literals ++
      ((s.offset &&& 0xFF).toUInt8 :: (s.offset >>> 8 &&& 0xFF).toUInt8 :: extraBytes (s.matchLen - minMatch))))

def lastBytes (literals : List UInt8) : List UInt8 :=
  (lengthToken literals.length <<< 4) :: (extraBytes literals.length ++ literals)

/-- The text after a sequence. -/
def Sequence.extend (s : Sequence) (history : List UInt8) : List UInt8 :=
  history ++ s.literals ++ copied (history ++ s.literals) s.offset s.matchLen

/-- The text that sequences stand for, where every copy begins inside it. -/
inductive Unfolds : List Sequence → List UInt8 → Prop
  | nil : Unfolds [] []
  | snoc {sequences : List Sequence} {history : List UInt8} (unfolds : Unfolds sequences history) (s : Sequence)
      (reaches : s.offset ≤ (history ++ s.literals).length) : Unfolds (sequences ++ [s]) (s.extend history)

theorem extraBytes_length_le (length : Nat) : (extraBytes length).length ≤ length / 255 + 1 := by
  unfold extraBytes
  split
  · rw [lengthBytes, List.length_append, List.length_replicate, List.length_singleton]
    omega
  · exact Nat.zero_le _

theorem extraBytes_length_le_self (length : Nat) : (extraBytes length).length ≤ length := by
  unfold extraBytes
  split
  · rw [lengthBytes, List.length_append, List.length_replicate, List.length_singleton]
    omega
  · exact Nat.zero_le _

/-- A sequence is written in as many bytes as it stands for, and one more for 255 literals. -/
theorem Sequence.bytes_length_le (s : Sequence) :
    s.bytes.length ≤ s.literals.length + s.matchLen + s.literals.length / 255 := by
  have literal := extraBytes_length_le s.literals.length
  have matched := extraBytes_length_le_self (s.matchLen - minMatch)
  have long := s.long
  simp only [Sequence.bytes, List.length_cons, List.length_append]
  unfold minMatch at *
  omega

theorem lastBytes_length_le (literals : List UInt8) :
    (lastBytes literals).length ≤ literals.length + literals.length / 255 + 2 := by
  have := extraBytes_length_le literals.length
  simp only [lastBytes, List.length_cons, List.length_append]
  omega

section Append
variable {size : Nat} {dst : Buffer size}

theorem Buffer.ext {dst other : Buffer size} (same : dst.written = other.written) : dst = other := by
  cases dst
  cases other
  cases same
  rfl

/-- Two writes are one write. -/
theorem Buffer.append_append (dst : Buffer size) (first second : List UInt8) :
    (dst.append first >>= fun dst => dst.append second) = dst.append (first ++ second) := by
  unfold Buffer.append
  by_cases both : (dst.written ++ (first ++ second)).length ≤ size
  · have some : (dst.written ++ first).length ≤ size := by
      simp only [List.length_append] at both ⊢
      omega
    rw [dif_pos some, dif_pos both]
    simp only [bind, Except.bind, List.append_assoc, dif_pos both]
  · rw [dif_neg both]
    by_cases some : (dst.written ++ first).length ≤ size
    · rw [dif_pos some]
      simp only [bind, Except.bind, List.append_assoc, dif_neg both]
    · rw [dif_neg some]
      rfl

theorem Buffer.append_nil (dst : Buffer size) : dst.append [] = .ok dst := by
  have fits : (dst.written ++ []).length ≤ size := by
    rw [List.append_nil]
    exact dst.fits
  rw [Buffer.append, dif_pos fits]
  exact congrArg Except.ok (Buffer.ext (List.append_nil _))

/-- A write for which there is room. -/
theorem Buffer.append_ok (dst : Buffer size) {bytes : List UInt8} (room : dst.written.length + bytes.length ≤ size) :
    ∃ dst', dst.append bytes = .ok dst' ∧ dst'.written = dst.written ++ bytes := by
  have fits : (dst.written ++ bytes).length ≤ size := List.length_append ▸ room
  exact ⟨⟨_, fits⟩, dif_pos fits, rfl⟩

theorem Buffer.copy_eq (dst : Buffer size) {src : List UInt8} {start len : Nat} (inside : start + len ≤ src.length) :
    dst.copy src start len = dst.append ((src.drop start).take len) := by
  have length : ((src.drop start).take len).length = len := by
    rw [List.length_take, List.length_drop]
    omega
  have sliced : slice src start (start + len) = .ok ((src.drop start).take len) := by
    rw [slice, if_pos ⟨Nat.le_add_right _ _, inside⟩, Nat.add_sub_cancel_left]
  rw [Buffer.copy, sliced]
  split
  next full =>
    rw [Buffer.append, dif_neg]
    rw [List.length_append, length]
    omega
  next => rfl

theorem writeExtraLength_eq (dst : Buffer size) (length : Nat) : writeExtraLength dst length = dst.append (lengthBytes length) := by
  induction length using Nat.strongRecOn generalizing dst with
  | ind length ih =>
    rw [writeExtraLength]
    split
    next more =>
      have bytes : lengthBytes length = [255] ++ lengthBytes (length - 255) := by
        have quotient : length / 255 = (length - 255) / 255 + 1 := by omega
        have rest : length % 255 = (length - 255) % 255 := by omega
        rw [lengthBytes, lengthBytes, quotient, rest, List.replicate_succ]
        rfl
      rw [bytes, ← Buffer.append_append]
      refine congrArg _ (funext fun dst => ih (length - 255) (by omega) dst)
    next less =>
      have small : length < 255 := Nat.lt_of_not_le less
      rw [lengthBytes, Nat.div_eq_of_lt small, Nat.mod_eq_of_lt small]
      rfl

theorem writeExtra_eq (dst : Buffer size) (length : Nat) : writeExtra dst length = dst.append (extraBytes length) := by
  unfold writeExtra extraBytes
  split
  · exact writeExtraLength_eq dst _
  · exact (Buffer.append_nil dst).symm

theorem writeLastLiterals_eq (dst : Buffer size) {src : List UInt8} {anchor litLen : Nat}
    (inside : anchor + litLen ≤ src.length) :
    writeLastLiterals dst src anchor litLen = dst.append (lastBytes ((src.drop anchor).take litLen)) := by
  have length : ((src.drop anchor).take litLen).length = litLen := by
    rw [List.length_take, List.length_drop]
    omega
  simp only [writeLastLiterals, writeExtra_eq, Buffer.copy_eq _ inside, Buffer.append_append, lastBytes, length,
    List.singleton_append]

theorem writeSequence_eq (dst : Buffer size) {src : List UInt8} {anchor : Nat} (s : Sequence)
    (literals : (src.drop anchor).take s.literals.length = s.literals) (inside : anchor + s.literals.length ≤ src.length) :
    writeSequence dst src anchor s.literals.length s.offset s.matchLen = dst.append s.bytes := by
  have length : sub s.matchLen minMatch = .ok (s.matchLen - minMatch) := if_pos s.long
  have copied (dst : Buffer size) : dst.copy src anchor s.literals.length = dst.append s.literals := by
    rw [Buffer.copy_eq dst inside, literals]
  rw [writeSequence, length]
  change (dst.append _ >>= fun dst => writeExtra dst _ >>= fun dst => dst.copy src anchor _ >>= fun dst =>
    dst.append _ >>= fun dst => writeExtra dst _) = _
  simp only [writeExtra_eq, copied, Buffer.append_append, Sequence.bytes, List.cons_append, List.nil_append]

end Append

/-! What is written is read. -/

section Tokens

theorem readExtra_replicate (base times last : Nat) (small : last < 255) (rest : List UInt8) :
    readExtra base (List.replicate times 255 ++ last.toUInt8 :: rest) = (base + 255 * times + last, rest) := by
  have value : (last.toUInt8).toNat = last := UInt8.toNat_ofNat_of_lt' (Nat.lt_trans small (by decide))
  induction times generalizing base with
  | zero =>
    have other : last.toUInt8 ≠ 255 := fun same => by
      have := congrArg UInt8.toNat same
      rw [value] at this
      exact absurd this (Nat.ne_of_lt small)
    rw [List.replicate_zero, List.nil_append, readExtra, if_pos other, value]
    rfl
  | succ times ih =>
    rw [List.replicate_succ, List.cons_append, readExtra, if_neg (fun other => other rfl), ih]
    refine Prod.ext ?_ rfl
    change base + 255 + 255 * times + last = base + 255 * (times + 1) + last
    omega

theorem readLength_extraBytes (length : Nat) (rest : List UInt8) :
    readLength (min length 15) (extraBytes length ++ rest) = (length, rest) := by
  unfold extraBytes
  split
  next extended =>
    rw [Nat.min_eq_right extended, readLength, if_pos rfl, lengthBytes, List.append_assoc, List.singleton_append,
      readExtra_replicate _ _ _ (Nat.mod_lt _ (by decide))]
    refine Prod.ext ?_ rfl
    change 15 + 255 * ((length - 15) / 255) + (length - 15) % 255 = length
    omega
  next short =>
    have less : length < 15 := Nat.lt_of_not_le short
    rw [Nat.min_eq_left (Nat.le_of_lt less), readLength, if_neg (Nat.ne_of_lt less)]
    rfl

theorem lengthToken_eq (length : Nat) : lengthToken length = (min length 15).toUInt8 := by
  unfold lengthToken
  split
  next extended => rw [Nat.min_eq_right extended]; rfl
  next short => rw [Nat.min_eq_left (Nat.le_of_lt (Nat.lt_of_not_le short))]

/-- The halves of a token are read as they are written. -/
theorem token_halves (high low : Nat) :
    (lengthToken high <<< 4 ||| lengthToken low).toNat >>> 4 = min high 15 ∧
      (lengthToken high <<< 4 ||| lengthToken low).toNat &&& 0x0F = min low 15 := by
  have all : ∀ high low : Fin 16, (high.val.toUInt8 <<< 4 ||| low.val.toUInt8).toNat >>> 4 = high.val ∧
      (high.val.toUInt8 <<< 4 ||| low.val.toUInt8).toNat &&& 0x0F = low.val := by decide +kernel
  rw [lengthToken_eq, lengthToken_eq]
  exact all ⟨min high 15, Nat.lt_succ_of_le (Nat.min_le_right _ _)⟩ ⟨min low 15, Nat.lt_succ_of_le (Nat.min_le_right _ _)⟩

theorem token_high (high : Nat) : (lengthToken high <<< 4).toNat >>> 4 = min high 15 := by
  have none : lengthToken high <<< 4 ||| lengthToken 0 = lengthToken high <<< 4 := UInt8.or_zero
  exact none ▸ (token_halves high 0).1

theorem offset_bytes {offset : Nat} (near : offset ≤ maxOffset) :
    (offset &&& 0xFF).toUInt8.toNat ||| (offset >>> 8 &&& 0xFF).toUInt8.toNat <<< 8 = offset := by
  have near : offset ≤ 65535 := near
  have low : offset &&& 0xFF = offset % 256 := Nat.and_two_pow_sub_one_eq_mod offset 8
  have high : offset >>> 8 &&& 0xFF = offset / 256 := by
    rw [Nat.shiftRight_eq_div_pow]
    exact (Nat.and_two_pow_sub_one_eq_mod _ 8).trans (Nat.mod_eq_of_lt (by omega))
  have lowByte : (offset % 256).toUInt8.toNat = offset % 256 := UInt8.toNat_ofNat_of_lt' (Nat.mod_lt _ (by decide))
  have highByte : (offset / 256).toUInt8.toNat = offset / 256 := UInt8.toNat_ofNat_of_lt' (by
    change offset / 256 < 256
    omega)
  rw [low, high, lowByte, highByte, Nat.or_comm, ← Nat.shiftLeft_add_eq_or_of_lt (Nat.mod_lt _ (by decide)),
    Nat.shiftLeft_eq]
  omega

end Tokens

section Decoding
variable {room : Nat}

/-- A copy goes as far as there is room. -/
theorem copyMatch_upto (history : List UInt8) {offset : Nat} (matchLen : Nat) (far : 0 < offset)
    (reaches : offset ≤ history.length) {i : Nat} (begun : i ≤ matchLen) {dst : Buffer room}
    (written : dst.written = history ++ copied history offset i) :
    ∃ dst', copyMatch (history.length - offset) offset i matchLen dst = .ok dst' ∧
      dst'.written = history ++ copied history offset (min matchLen (room - history.length)) := by
  have length : dst.written.length = history.length + i := by
    rw [written, List.length_append, copied_length]
  have fits := dst.fits
  induction more : matchLen - i generalizing i dst with
  | zero =>
    have done : min matchLen (room - history.length) = i := by omega
    rw [copyMatch, if_neg fun ⟨less, _⟩ => by omega, done]
    exact ⟨dst, rfl, written⟩
  | succ left ih =>
    rw [copyMatch]
    split
    next space =>
      have inside : history.length - offset + i % offset < history.length := by
        have := Nat.mod_lt i far
        omega
      have byte : at_ dst.written (history.length - offset + i % offset) =
          .ok (history.getD (history.length - offset + i % offset) default) := by
        rw [at_, written, List.getElem?_append_left inside, List.getElem?_eq_getElem inside,
          List.getD_eq_getElem _ _ inside]
      have one : dst.written.length + [history.getD (history.length - offset + i % offset) default].length ≤ room :=
        space.2
      obtain ⟨next, appended, grown⟩ := dst.append_ok one
      rw [written, List.append_assoc, ← copied_succ] at grown
      have longer : next.written.length = history.length + (i + 1) := by
        rw [grown, List.length_append, copied_length]
      rw [byte]
      simp only [bind, Except.bind, appended]
      exact ih space.1 grown longer next.fits (by omega)
    next full =>
      have done : min matchLen (room - history.length) = i := by omega
      rw [done]
      exact ⟨dst, rfl, written⟩

theorem copyMatch_copied (history : List UInt8) {offset matchLen : Nat} (far : 0 < offset)
    (reaches : offset ≤ history.length) (fits : history.length + matchLen ≤ room) {i : Nat} (begun : i ≤ matchLen)
    {dst : Buffer room} (written : dst.written = history ++ copied history offset i) :
    ∃ dst', copyMatch (history.length - offset) offset i matchLen dst = .ok dst' ∧
      dst'.written = history ++ copied history offset matchLen := by
  have whole : min matchLen (room - history.length) = matchLen := by omega
  have upto := copyMatch_upto history matchLen far reaches begun written
  rwa [whole] at upto

/-- A sequence is decompressed to the text that it extends the text so far by. -/
theorem decompressLoop_sequence {originalSize : Nat} (s : Sequence) (dst : Buffer room) (rest : List UInt8)
    (reaches : s.offset ≤ (dst.written ++ s.literals).length)
    (whole : (s.extend dst.written).length ≤ originalSize) (fits : originalSize ≤ room) :
    ∃ dst', dst'.written = s.extend dst.written ∧
      decompressLoop originalSize (s.bytes ++ rest) dst = decompressLoop originalSize rest dst' := by
  have total : (s.extend dst.written).length = dst.written.length + s.literals.length + s.matchLen := by
    rw [Sequence.extend, List.length_append, List.length_append, copied_length]
  have long : 4 ≤ s.matchLen := s.long
  obtain ⟨high, low⟩ := token_halves s.literals.length (s.matchLen - minMatch)
  obtain ⟨between, appended, written⟩ := dst.append_ok
    (show dst.written.length + s.literals.length ≤ room by omega)
  have length : between.written.length = dst.written.length + s.literals.length := by
    rw [written, List.length_append]
  obtain ⟨dst', copies, extended⟩ := copyMatch_copied (dst.written ++ s.literals) s.far reaches
    (by rw [List.length_append]; omega) (Nat.zero_le s.matchLen)
    (show between.written = dst.written ++ s.literals ++ copied (dst.written ++ s.literals) s.offset 0 by
      rw [written]; exact (List.append_nil _).symm)
  refine ⟨dst', extended, ?_⟩
  have matchLen : s.matchLen - minMatch + minMatch = s.matchLen := Nat.sub_add_cancel s.long
  have literal := readLength_extraBytes s.literals.length (s.literals ++
    ((s.offset &&& 0xFF).toUInt8 :: (s.offset >>> 8 &&& 0xFF).toUInt8 :: (extraBytes (s.matchLen - minMatch) ++ rest)))
  have split : s.bytes ++ rest = (lengthToken s.literals.length <<< 4 ||| lengthToken (s.matchLen - minMatch)) ::
      (extraBytes s.literals.length ++ (s.literals ++ ((s.offset &&& 0xFF).toUInt8 ::
        (s.offset >>> 8 &&& 0xFF).toUInt8 :: (extraBytes (s.matchLen - minMatch) ++ rest)))) := by
    simp only [Sequence.bytes, List.cons_append, List.append_assoc]
  rw [split, decompressLoop, if_neg (by omega), high]
  simp only [literal, List.take_left, List.drop_left, List.length_append, List.length_cons]
  rw [if_neg (by omega), appended]
  simp only [bind, Except.bind]
  rw [if_neg (by simp only [List.isEmpty_cons, Bool.false_eq_true, false_or]; omega)]
  split
  next lo hi later found =>
    rw [literal] at found
    rw [List.drop_left] at found
    cases found
    have valid : ¬(s.offset = 0 ∨ s.offset > between.written.length) := by
      have far := s.far
      rw [written]
      omega
    rw [offset_bytes s.near, low, readLength_extraBytes, matchLen, if_neg valid, length]
    rw [List.length_append] at copies
    rw [copies]
  next other =>
    rw [literal] at other
    exact absurd (List.drop_left ..) (other _ _ _)

/-- Last literals end the text. -/
theorem decompressLoop_last {originalSize : Nat} (literals : List UInt8) (dst : Buffer room)
    (some : dst.written.length < originalSize) (whole : dst.written.length + literals.length = originalSize)
    (fits : originalSize ≤ room) :
    ∃ dst', dst'.written = dst.written ++ literals ∧
      decompressLoop originalSize (lastBytes literals) dst = .ok dst' := by
  have literal := readLength_extraBytes literals.length literals
  obtain ⟨dst', appended, written⟩ := dst.append_ok (show dst.written.length + literals.length ≤ room by omega)
  refine ⟨dst', written, ?_⟩
  rw [lastBytes, decompressLoop, if_neg (by omega), token_high]
  simp only [literal, List.take_length, List.drop_length]
  rw [if_neg (by omega), appended]
  simp only [bind, Except.bind, List.isEmpty_nil, true_or, if_true]
  rfl

/-- The bytes of sequences are decompressed to their text. -/
theorem decompressLoop_sequences {originalSize : Nat} {sequences : List Sequence} {history : List UInt8}
    (unfolds : Unfolds sequences history) (rest : List UInt8) (whole : history.length ≤ originalSize)
    (fits : originalSize ≤ room) : ∃ dst : Buffer room, dst.written = history ∧
      decompressLoop originalSize (sequences.flatMap Sequence.bytes ++ rest) .empty =
        decompressLoop originalSize rest dst := by
  induction unfolds generalizing rest with
  | nil => exact ⟨.empty, rfl, rfl⟩
  | @snoc sequences history _ s reaches ih =>
    have shorter : history.length ≤ (s.extend history).length := by
      rw [Sequence.extend, List.append_assoc, List.length_append]
      exact Nat.le_add_right _ _
    obtain ⟨between, written, begun⟩ := ih (s.bytes ++ rest) (Nat.le_trans shorter whole)
    subst written
    obtain ⟨dst, extended, ended⟩ := decompressLoop_sequence s between rest reaches whole fits
    refine ⟨dst, extended, ?_⟩
    rw [List.flatMap_append, List.flatMap_singleton, List.append_assoc, begun, ended]

end Decoding

end Burble.Coprocessor.Compression
