import Burble.Coprocessor.CompressionRoundTrip
import Burble.Coprocessor.Lz4

namespace Burble.Coprocessor
open Compression (Sequence Unfolds Buffer Block extraBytes lengthBytes lastBytes lengthToken minMatch)

section Reading

theorem readLz4ExtraLength_replicate (times last : Nat) (small : last < 255) (rest : List UInt8) :
    readLz4ExtraLength 15 (List.replicate times 255 ++ last.toUInt8 :: rest) = (15 + 255 * times + last, rest) := by
  have value : (last.toUInt8).toNat = last := UInt8.toNat_ofNat_of_lt' (Nat.lt_trans small (by decide))
  induction times with
  | zero =>
    rw [List.replicate_zero, List.nil_append]
    have other : last.toUInt8 ≠ 255 := fun same => by
      rw [same] at value
      exact absurd value (Nat.ne_of_gt small)
    rw [readLz4ExtraLength.eq_2 _ _ other, value]
  | succ times ih =>
    rw [List.replicate_succ, List.cons_append, readLz4ExtraLength, ih]
    refine Prod.ext ?_ rfl
    change 15 + 255 * times + last + 255 = 15 + 255 * (times + 1) + last
    omega

/-- A length is read as it is written. -/
theorem readLz4ExtraLength_extraBytes (length : Nat) (rest : List UInt8) :
    readLz4ExtraLength (min length 15) (extraBytes length ++ rest) = (length, rest) := by
  unfold extraBytes
  split
  next extended =>
    rw [Nat.min_eq_right extended, lengthBytes, List.append_assoc, List.singleton_append,
      readLz4ExtraLength_replicate _ _ (Nat.mod_lt _ (by decide))]
    refine Prod.ext ?_ rfl
    change 15 + 255 * ((length - 15) / 255) + (length - 15) % 255 = length
    omega
  next short =>
    rw [Nat.min_eq_left (by omega), List.nil_append]
    exact readLz4ExtraLength.eq_3 _ _ (fun _ same => by omega) (fun _ _ same => by omega)

theorem copied_getElem? (history : List UInt8) {offset : Nat} (far : 0 < offset) (reaches : offset ≤ history.length)
    (done : Nat) : (history ++ copied history offset done)[history.length - offset + done]? =
      some (history.getD (history.length - offset + done % offset) default) := by
  have inside : history.length - offset + done % offset < history.length := by
    have less := Nat.mod_lt done far
    omega
  rw [List.getD_eq_getElem _ _ inside]
  by_cases early : done < offset
  · have here : done % offset = done := Nat.mod_eq_of_lt early
    rw [List.getElem?_append_left (by omega), List.getElem?_eq_getElem (by omega)]
    simp only [here]
  · have late : history.length ≤ history.length - offset + done := by omega
    have place : history.length - offset + done - history.length = done - offset := by omega
    have turn : (done - offset) % offset = done % offset := (Nat.mod_eq_sub_mod (Nat.le_of_not_lt early)).symm
    rw [List.getElem?_append_right late, place, copied, List.getElem?_map, List.getElem?_range (by omega), Option.map_some,
      turn, List.getD_eq_getElem _ _ inside]

/-- A copy that begins inside the output appends what it is defined to. -/
theorem copyBytes_copied (history : List UInt8) {offset : Nat} (far : 0 < offset) (reaches : offset ≤ history.length)
    (done left : Nat) : copyBytes (history ++ copied history offset done) (history.length - offset + done : Nat) left =
      some (history ++ copied history offset (done + left)) := by
  induction left generalizing done with
  | zero => rfl
  | succ left ih =>
    have later := ih (done + 1)
    rw [← Nat.add_assoc, Nat.add_assoc done 1, Nat.add_comm 1, Int.natCast_succ] at later
    rw [copyBytes, if_pos (Int.natCast_nonneg _), Int.toNat_natCast, copied_getElem? history far reaches]
    dsimp only
    rw [List.append_assoc, ← copied_succ]
    exact later

theorem lz4CopyMatch_copied (history : List UInt8) {offset : Nat} (far : 0 < offset) (reaches : offset ≤ history.length)
    (matchLen : Nat) : lz4CopyMatch history offset matchLen = some (history ++ copied history offset matchLen) := by
  have whole := copyBytes_copied history far reaches 0 matchLen
  have none : copied history offset 0 = [] := rfl
  rw [none, List.append_nil, Nat.add_zero, Nat.zero_add] at whole
  rw [lz4CopyMatch, ← Int.ofNat_sub reaches]
  exact whole

end Reading

section Decoding

theorem low_high {offset : Nat} (near : offset ≤ Compression.maxOffset) :
    (offset &&& 0xFF).toUInt8.toNat + 256 * (offset >>> 8 &&& 0xFF).toUInt8.toNat = offset := by
  have shifted := Compression.offset_bytes near
  rw [Nat.or_comm, ← Nat.shiftLeft_add_eq_or_of_lt (UInt8.toNat_lt _), Nat.shiftLeft_eq] at shifted
  omega

/-- A sequence is decompressed to the text that it extends the output by. -/
theorem decompress_sequence (s : Sequence) (output rest : List UInt8) (reaches : s.offset ≤ (output ++ s.literals).length)
    (maxSize : Nat) : lz4DecompressBlock (s.bytes ++ rest) output maxSize =
      if (s.extend output).length ≥ maxSize then some ((s.extend output).take maxSize)
      else lz4DecompressBlock rest (s.extend output) maxSize := by
  obtain ⟨high, low⟩ := Compression.token_halves s.literals.length (s.matchLen - minMatch)
  have matchLen : s.matchLen - minMatch + 4 = s.matchLen := Nat.sub_add_cancel s.long
  have literal := readLz4ExtraLength_extraBytes s.literals.length (s.literals ++
    ((s.offset &&& 0xFF).toUInt8 :: (s.offset >>> 8 &&& 0xFF).toUInt8 :: (extraBytes (s.matchLen - minMatch) ++ rest)))
  have split : s.bytes ++ rest = (lengthToken s.literals.length <<< 4 ||| lengthToken (s.matchLen - minMatch)) ::
      (extraBytes s.literals.length ++ (s.literals ++ ((s.offset &&& 0xFF).toUInt8 ::
        (s.offset >>> 8 &&& 0xFF).toUInt8 :: (extraBytes (s.matchLen - minMatch) ++ rest)))) := by
    simp only [Sequence.bytes, List.cons_append, List.append_assoc]
  rw [split, lz4DecompressBlock, high]
  simp only [literal, List.take_left, List.length_append, List.length_cons]
  rw [if_neg (by omega)]
  split
  next empty =>
    rw [literal, List.drop_left] at empty
    cases empty
  next single =>
    rw [literal, List.drop_left] at single
    cases single
  next lo hi later found =>
    rw [literal, List.drop_left] at found
    cases found
    rw [low_high s.near, low, readLz4ExtraLength_extraBytes, matchLen, lz4CopyMatch_copied _ s.far reaches]
    rfl

/-- The bytes of sequences are decompressed to their text, and nothing after it once it is long enough. -/
theorem decompress_sequences {sequences : List Sequence} {history : List UInt8} (unfolds : Unfolds sequences history)
    (rest : List UInt8) {maxSize : Nat} (whole : history.length ≤ maxSize) :
    lz4DecompressBlock (sequences.flatMap Sequence.bytes ++ rest) [] maxSize =
      if sequences ≠ [] ∧ maxSize ≤ history.length then some history else lz4DecompressBlock rest history maxSize := by
  induction unfolds generalizing rest with
  | nil => rw [if_neg fun some => some.1 rfl]; rfl
  | @snoc sequences history _ s reaches ih =>
    have grown : (s.extend history).length = history.length + s.literals.length + s.matchLen := by
      rw [Sequence.extend, List.length_append, List.length_append, copied_length]
    have long : 4 ≤ s.matchLen := s.long
    rw [List.flatMap_append, List.flatMap_singleton, List.append_assoc, ih _ (by omega), if_neg (by omega),
      decompress_sequence s history rest reaches]
    by_cases full : maxSize ≤ (s.extend history).length
    · rw [if_pos full, if_pos ⟨by simp, full⟩, List.take_of_length_le whole]
    · rw [if_neg full, if_neg fun some => full some.2]

/-- Every block of a source is decompressed to it. -/
theorem decompress_block {src bytes : List UInt8} {sequences : List Sequence} {anchor : Nat}
    (block : Block src bytes sequences anchor) : lz4DecompressBlock bytes [] src.length = some src := by
  obtain ⟨within, unfolds, written⟩ := block
  have taken : (src.take anchor).length = anchor := List.length_take_of_le within
  rw [written, decompress_sequences unfolds _ (by omega), taken]
  have last : lz4DecompressBlock (lastBytes (src.drop anchor)) (src.take anchor) src.length = some src := by
    have ends := @decompress_literals (src.drop anchor) (lengthToken (src.drop anchor).length <<< 4)
      (extraBytes (src.drop anchor).length) (src.take anchor) src.length
      (by rw [Compression.token_high]; exact readLz4ExtraLength_extraBytes _ _)
    rwa [List.take_append_drop] at ends
  by_cases some : anchor < src.length
  · rw [if_neg fun full => Nat.not_le.mpr some full.2, if_pos (.inl some)]
    exact last
  · have same : anchor = src.length := by omega
    rw [same, List.take_length] at unfolds last ⊢
    by_cases none : src = []
    · rw [none] at unfolds
      rw [if_neg fun full => full.1 unfolds.of_nil, if_pos (.inr none)]
      exact last
    · have full : sequences ≠ [] := by
        intro empty
        cases unfolds with
        | nil => exact none rfl
        | snoc => exact absurd empty (by simp)
      rw [if_pos ⟨full, Nat.le_refl _⟩]

/-- What the Zig compressor writes for fewer than 65536 bytes is decompressed to them. -/
theorem elixir_reads_zig (data : List UInt8) (short : data.length < 65536) (size : Nat)
    (room : Compression.lz4CompressBound data.length ≤ size) : ∃ dst : Buffer size,
      Compression.lz4Compress data size = .ok dst ∧ decompressLz4 dst.written data.length = .ok data := by
  obtain ⟨dst, sequences, anchor, done, block⟩ := Compression.compress_block (by omega) room
  refine ⟨dst, done, ?_⟩
  rw [decompressLz4, decompress_block block]

end Decoding

/-- A text that repeats itself. -/
theorem repeated_read : ∃ dst : Buffer 40, Compression.lz4Compress (List.replicate 20 7) 40 = .ok dst ∧
    decompressLz4 dst.written 20 = .ok (List.replicate 20 7) :=
  elixir_reads_zig (List.replicate 20 7) (by decide) 40 (by decide)

end Burble.Coprocessor
