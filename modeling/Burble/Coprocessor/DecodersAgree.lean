import Burble.Coprocessor.CrossDecoding
import Burble.Coprocessor.DecoderSafety

namespace Burble.Coprocessor
open Compression (readExtra readLength Buffer decompressLoop decompressMatch minMatch)

/-! The two decoders, a sequence at a time. -/

section Sequences

theorem readLz4ExtraLength_fifteen (base : Nat) (rest : List UInt8) :
    readExtra (base + 15) rest = (base + (readLz4ExtraLength 15 rest).1, (readLz4ExtraLength 15 rest).2) := by
  induction rest generalizing base with
  | nil => rfl
  | cons extra rest ih =>
    rw [readExtra]
    by_cases full : extra = 255
    · have next : base + 15 + (255 : UInt8).toNat = base + 255 + 15 := Nat.add_right_comm base 15 255
      rw [full, if_neg (by decide), next, ih, readLz4ExtraLength]
      refine Prod.ext ?_ rfl
      change base + 255 + _ = base + (_ + 255)
      omega
    · rw [if_pos full, readLz4ExtraLength.eq_2 _ _ full, Nat.add_assoc]

/-- Both decoders read a length alike, one that the source breaks off included. -/
theorem readLz4ExtraLength_eq (half : Nat) (rest : List UInt8) : readLz4ExtraLength half rest = readLength half rest := by
  unfold readLength
  split
  next fifteen =>
    have read := readLz4ExtraLength_fifteen 0 rest
    rw [Nat.zero_add, Nat.zero_add] at read
    rw [fifteen, read]
  next short => exact readLz4ExtraLength.eq_3 _ _ (fun _ same => absurd same short) (fun _ _ same => absurd same short)

theorem offset_eq (lo hi : UInt8) : lo.toNat + 256 * hi.toNat = lo.toNat ||| hi.toNat <<< 8 := by
  rw [Nat.or_comm, ← Nat.shiftLeft_add_eq_or_of_lt (UInt8.toNat_lt lo), Nat.shiftLeft_eq]
  omega

/-- A copy raises exactly where the other decoder refuses its offset. -/
theorem lz4CopyMatch_cases (history : List UInt8) (offset matchLen : Nat) :
    lz4CopyMatch history offset (matchLen + 4) =
      if offset = 0 ∨ offset > history.length then none else some (history ++ copied history offset (matchLen + minMatch)) := by
  by_cases invalid : offset = 0 ∨ offset > history.length
  · rw [if_pos invalid, lz4CopyMatch, copyBytes]
    rcases invalid with rfl | far
    · have last : ((history.length : Int) - (0 : Nat)).toNat = history.length := by omega
      rw [last, List.getElem?_eq_none (Nat.le_refl _)]
      split <;> rfl
    · rw [if_neg (by omega)]
  · rw [if_neg invalid]
    exact lz4CopyMatch_copied history (by omega) (by omega) _

/-- What the first sequence of a source comes to, behind an output of `reach` bytes. -/
inductive First
  /-- the literals go beyond the source -/
  | short
  /-- the source ends with the literals -/
  | last (literals : List UInt8)
  /-- the literals are not followed by an offset into the output -/
  | stuck (literals : List UInt8)
  | sequence (literals : List UInt8) (offset matchLen : Nat) (later : List UInt8)

def firstSequence (token : UInt8) (rest : List UInt8) (reach : Nat) : First :=
  let literal := readLength (token.toNat >>> 4) rest
  if literal.1 > literal.2.length then .short
  else
    let literals := literal.2.take literal.1
    match literal.2.drop literal.1 with
    | [] => .last literals
    | lo :: hi :: later =>
      let offset := lo.toNat ||| hi.toNat <<< 8
      if offset = 0 ∨ offset > reach + literals.length then .stuck literals
      else
        let matched := readLength (token.toNat &&& 0x0F) later
        .sequence literals offset (matched.1 + minMatch) matched.2
    | _ => .stuck literals

theorem firstSequence_sequence {token : UInt8} {rest literals later : List UInt8} {reach offset matchLen : Nat}
    (found : firstSequence token rest reach = .sequence literals offset matchLen later) :
    0 < offset ∧ offset ≤ reach + literals.length ∧ 4 ≤ matchLen ∧ later.length < (token :: rest).length := by
  unfold firstSequence at found
  dsimp only at found
  split at found
  · cases found
  · split at found
    · cases found
    next lo hi after left =>
      split at found
      · cases found
      next valid =>
        cases found
        have read := Compression.readLength_rest (token.toNat >>> 4) rest
        have matched := Compression.readLength_rest (token.toNat &&& 0x0F) after
        have count := congrArg List.length left
        simp only [List.length_drop, List.length_cons] at count
        refine ⟨by omega, by omega, Nat.le_add_left _ _, ?_⟩
        rw [List.length_cons]
        omega
    · cases found

theorem lz4DecompressBlock_first (token : UInt8) (rest output : List UInt8) (maxSize : Nat) :
    lz4DecompressBlock (token :: rest) output maxSize =
      match firstSequence token rest output.length with
      | .short | .stuck _ => none
      | .last literals => some (output ++ literals)
      | .sequence literals offset matchLen later =>
        let text := output ++ literals ++ copied (output ++ literals) offset matchLen
        if text.length ≥ maxSize then some (text.take maxSize) else lz4DecompressBlock later text maxSize := by
  rw [lz4DecompressBlock]
  simp only [readLz4ExtraLength_eq]
  unfold firstSequence
  by_cases short : (readLength (token.toNat >>> 4) rest).1 > (readLength (token.toNat >>> 4) rest).2.length
  · rw [if_pos short, if_pos short]
  rw [if_neg short, if_neg short]
  split
  next empty =>
    rw [readLz4ExtraLength_eq] at empty
    rw [empty]
  next single =>
    rw [readLz4ExtraLength_eq] at single
    rw [single]
  next lo hi later found =>
    rw [readLz4ExtraLength_eq] at found
    rw [found, lz4CopyMatch_cases, offset_eq, List.length_append]
    dsimp only
    generalize (lo.toNat ||| hi.toNat <<< 8) = offset
    by_cases invalid : offset = 0 ∨
        offset > output.length + ((readLength (token.toNat >>> 4) rest).2.take (readLength (token.toNat >>> 4) rest).1).length
    · rw [if_pos invalid, if_pos invalid]
    · rw [if_neg invalid, if_neg invalid]

theorem append_written {room : Nat} {dst next : Buffer room} {bytes : List UInt8}
    (appended : dst.append bytes = .ok next) : next.written = dst.written ++ bytes := by
  unfold Buffer.append at appended
  split at appended
  · cases appended
    rfl
  · cases appended

theorem decompressLoop_first {originalSize room : Nat} (token : UInt8) (rest : List UInt8) {dst : Buffer room}
    (some : dst.written.length < originalSize) : decompressLoop originalSize (token :: rest) dst =
      match firstSequence token rest dst.written.length with
      | .short => .error .failed
      | .last literals => dst.append literals
      | .stuck literals => dst.append literals >>= fun dst =>
        if dst.written.length ≥ originalSize then .ok dst else .error .failed
      | .sequence literals offset matchLen later => dst.append literals >>= fun dst =>
        if dst.written.length ≥ originalSize then .ok dst
        else Compression.copyMatch (dst.written.length - offset) offset 0 matchLen dst >>=
          decompressLoop originalSize later := by
  rw [Compression.decompressLoop_cons _ _ some]
  unfold firstSequence
  dsimp only
  generalize readLength (token.toNat >>> 4) rest = literal
  by_cases short : literal.1 > literal.2.length
  · rw [if_pos (.inl short), if_pos short]
  rw [if_neg short]
  have taken : (literal.2.take literal.1).length = literal.1 := List.length_take_of_le (by omega)
  -- literals without room fail in `append` as they do in the check before it
  have checked {after : Buffer room → Except Compression.Stop (Buffer room)} :
      (if literal.1 > literal.2.length ∨ dst.written.length + literal.1 > room then .error .failed
        else dst.append (literal.2.take literal.1) >>= after) = dst.append (literal.2.take literal.1) >>= after := by
    split
    next full =>
      rw [Buffer.append, dif_neg]
      · rfl
      · rw [List.length_append, taken]
        omega
    next => rfl
  rw [checked]
  rcases literal.2.drop literal.1 with _ | ⟨lo, _ | ⟨hi, later⟩⟩
  · dsimp only
    cases dst.append (literal.2.take literal.1) <;> simp [bind, Except.bind]
  · refine congrArg _ (funext fun next => ?_)
    simp [decompressMatch]
  · dsimp only
    by_cases invalid : (lo.toNat ||| hi.toNat <<< 8) = 0 ∨
        (lo.toNat ||| hi.toNat <<< 8) > dst.written.length + (literal.2.take literal.1).length
    · rw [if_pos invalid]
      dsimp only
      cases appended : dst.append (literal.2.take literal.1) with
      | error stop => rfl
      | ok next =>
        rw [← List.length_append, ← append_written appended] at invalid
        simp only [bind, Except.bind, List.isEmpty_cons, Bool.false_eq_true, false_or, decompressMatch, if_pos invalid]
    · rw [if_neg invalid]
      dsimp only
      cases appended : dst.append (literal.2.take literal.1) with
      | error stop => rfl
      | ok next =>
        rw [← List.length_append, ← append_written appended] at invalid
        simp only [bind, Except.bind, List.isEmpty_cons, Bool.false_eq_true, false_or, decompressMatch, if_neg invalid]

end Sequences

/-! What each decoder makes of a source that the other one decodes. -/

section Agreement
variable {originalSize room : Nat}

/-- A text that is not cut begins with the output there is. -/
theorem lz4DecompressBlock_extends {src output text : List UInt8} {maxSize : Nat}
    (done : lz4DecompressBlock src output maxSize = some text) (short : text.length < maxSize) : output <+: text := by
  induction length : src.length using Nat.strongRecOn generalizing src output with
  | ind length ih =>
    cases src with
    | nil =>
      rw [lz4DecompressBlock] at done
      cases done
      exact List.prefix_refl _
    | cons token rest =>
      rw [lz4DecompressBlock_first] at done
      split at done
      · cases done
      · cases done
      next literals _ =>
        cases done
        exact List.prefix_append _ _
      next literals offset matchLen later found =>
        obtain ⟨_, _, _, less⟩ := firstSequence_sequence found
        dsimp only at done
        split at done
        next full =>
          cases done
          rw [List.length_take_of_le full] at short
          exact absurd short (Nat.lt_irrefl _)
        next =>
          rw [List.append_assoc] at done
          exact (List.prefix_append _ _).trans (ih _ (length ▸ less) done rfl)

/-- A source that is decompressed to the end is to the same text by the other decoder, given its length. -/
theorem decompressLoop_whole {src text : List UInt8} {maxSize : Nat} {dst : Buffer room}
    (done : lz4DecompressBlock src dst.written maxSize = some text) (short : text.length < maxSize)
    (fits : text.length ≤ room) : ∃ out : Buffer room, decompressLoop text.length src dst = .ok out ∧ out.written = text := by
  induction length : src.length using Nat.strongRecOn generalizing src dst with
  | ind length ih =>
    have begins := lz4DecompressBlock_extends done short
    by_cases full : text.length ≤ dst.written.length
    · refine ⟨dst, Compression.decompressLoop_full src full, begins.eq_of_length_le full⟩
    cases src with
    | nil =>
      rw [lz4DecompressBlock] at done
      cases done
      exact absurd (Nat.le_refl _) full
    | cons token rest =>
      rw [lz4DecompressBlock_first] at done
      rw [decompressLoop_first _ _ (Nat.lt_of_not_le full)]
      split at done
      · cases done
      · cases done
      next literals found =>
        cases done
        rw [found]
        obtain ⟨out, appended, written⟩ := @Buffer.append_ok room dst literals (by rw [← List.length_append]; exact fits)
        exact ⟨out, appended, written⟩
      next literals offset matchLen later found =>
        obtain ⟨far, reaches, long, less⟩ := firstSequence_sequence found
        rw [← List.length_append] at reaches
        dsimp only at done
        split at done
        next cut =>
          cases done
          rw [List.length_take_of_le cut] at short
          exact absurd short (Nat.lt_irrefl _)
        next whole =>
          have grown := (lz4DecompressBlock_extends done short).length_le
          rw [List.length_append, copied_length] at grown
          obtain ⟨next, appended, written⟩ := @Buffer.append_ok room dst literals (by rw [← List.length_append]; omega)
          rw [← written] at done reaches grown
          obtain ⟨after, copies, copiedTo⟩ := @Compression.copyMatch_copied room next.written offset matchLen far reaches
            (by omega) 0 (Nat.zero_le _) next (List.append_nil _).symm
          rw [← copiedTo] at done
          rw [found]
          simp only [appended, bind, Except.bind]
          rw [if_neg (by omega), copies]
          exact ih _ (length ▸ less) done rfl

/-- What one decoder returns below the size that it is asked for, the other one returns; at that size they have the same
bytes, unless the rest of the source, which only the other one reads, makes it raise. -/
theorem lz4DecompressBlock_of_loop {src : List UInt8} {dst out : Buffer room} (within : originalSize ≤ room)
    (some : dst.written.length < originalSize) (done : decompressLoop originalSize src dst = .ok out) :
    (out.written.length < originalSize → lz4DecompressBlock src dst.written originalSize = .some out.written) ∧
      (originalSize ≤ out.written.length → ∀ text, lz4DecompressBlock src dst.written originalSize = .some text →
        text.take originalSize = out.written.take originalSize) := by
  induction length : src.length using Nat.strongRecOn generalizing src dst with
  | ind length ih =>
    cases src with
    | nil =>
      rw [decompressLoop] at done
      cases done
      exact ⟨fun _ => by rw [lz4DecompressBlock], fun full => absurd some (Nat.not_lt.mpr full)⟩
    | cons token rest =>
      rw [decompressLoop_first _ _ some] at done
      rw [lz4DecompressBlock_first]
      split at done
      · cases done
      next literals found =>
        rw [found]
        dsimp only
        rw [← append_written done]
        exact ⟨fun _ => rfl, fun _ text same => by cases same; rfl⟩
      next literals found =>
        rw [found]
        obtain ⟨next, appended, done⟩ := Fallible.bind_ok.mp done
        split at done
        next full =>
          cases done
          exact ⟨fun short => absurd short (Nat.not_lt.mpr full), fun _ text same => by cases same⟩
        next => cases done
      next literals offset matchLen later found =>
        rw [found]
        obtain ⟨far, reaches, long, less⟩ := firstSequence_sequence found
        obtain ⟨next, appended, done⟩ := Fallible.bind_ok.mp done
        rw [← List.length_append] at reaches
        dsimp only
        rw [← append_written appended] at reaches ⊢
        generalize whole : next.written ++ copied next.written offset matchLen = extended
        have grown : extended.length = next.written.length + matchLen := by
          rw [← whole, List.length_append, copied_length]
        -- a text that is cut begins as any destination does that begins it and is long enough
        have cut {full : Buffer room} (begins : full.written <+: extended) (enough : originalSize ≤ full.written.length)
            (ends : out = full) (long : originalSize ≤ extended.length) :
            (out.written.length < originalSize → (if extended.length ≥ originalSize then
                .some (extended.take originalSize) else lz4DecompressBlock later extended originalSize) =
                  .some out.written) ∧
              (originalSize ≤ out.written.length → ∀ text, (if extended.length ≥ originalSize then
                .some (extended.take originalSize) else lz4DecompressBlock later extended originalSize) = .some text →
                  text.take originalSize = out.written.take originalSize) := by
          refine ⟨fun short => absurd (ends ▸ enough) (Nat.not_le.mpr short), fun _ text same => ?_⟩
          rw [if_pos long] at same
          cases same
          obtain ⟨more, rfl⟩ := begins
          rw [ends, List.take_take, Nat.min_self, List.take_append_of_le_length enough]
        split at done
        next full =>
          cases done
          exact cut ⟨_, whole⟩ full rfl (by omega)
        next =>
          obtain ⟨after, copies, copiedTo⟩ := @Compression.copyMatch_upto room next.written offset matchLen far reaches
            0 (Nat.zero_le _) next (List.append_nil _).symm
          rw [copies] at done
          replace done : decompressLoop originalSize later after = .ok out := done
          have begins : after.written <+: extended := by
            rw [copiedTo, ← whole]
            exact (List.prefix_append_right_inj _).mpr (copied_begins _ _ (Nat.min_le_left _ _))
          by_cases full : originalSize ≤ after.written.length
          · rw [Compression.decompressLoop_full _ full] at done
            cases done
            exact cut begins full rfl (full.trans begins.length_le)
          · have reached : after.written.length = next.written.length + min matchLen (room - next.written.length) := by
              rw [copiedTo, List.length_append, copied_length]
            have same : after.written = extended := begins.eq_of_length_le (by omega)
            rw [same] at full
            rw [if_neg full, ← same]
            exact ih _ (length ▸ less) (same ▸ Nat.lt_of_not_le full) done rfl

end Agreement

theorem decompressInto_ends (src dst : List UInt8) (originalSize : Nat) :
    Compression.Ends src (Compression.decompressInto src dst originalSize).1
      (Compression.decompressInto src dst originalSize).2 (decompressLoop originalSize src (.empty : Buffer dst.length)) := by
  have ends := @Compression.decompressAt_ends src dst.length .empty originalSize 0 _ (Compression.Writes.empty src dst)
  rwa [List.drop_zero] at ends

theorem decompressInto_ok {src dst : List UInt8} {originalSize : Nat} {out : Buffer dst.length}
    (done : decompressLoop originalSize src .empty = .ok out) :
    (Compression.decompressInto src dst originalSize).1 = out.written.length ∧
      (Compression.decompressInto src dst originalSize).2.dst.take out.written.length = out.written := by
  have ends := decompressInto_ends src dst originalSize
  rw [done] at ends
  exact ⟨ends.1, ends.2.text⟩

/-- A call of the decoder that returns something has not failed. -/
theorem decompressInto_returns {src dst : List UInt8} {originalSize : Nat}
    (returned : 0 < (Compression.decompressInto src dst originalSize).1) :
    ∃ out : Buffer dst.length, decompressLoop originalSize src .empty = .ok out := by
  have ends := decompressInto_ends src dst originalSize
  cases done : decompressLoop originalSize src (.empty : Buffer dst.length) with
  | ok out => exact ⟨out, rfl⟩
  | error stop =>
    rw [done] at ends
    exact absurd (ends.2.1 ▸ returned) (Nat.lt_irrefl 0)

theorem decompressLz4_ok {src text : List UInt8} {size : Nat} :
    decompressLz4 src size = .ok text ↔ lz4DecompressBlock src [] size = some text := by
  unfold decompressLz4
  split
  next data found => simp only [Except.ok.injEq, found, Option.some.injEq]
  next none => simp only [none, reduceCtorEq]

/-- The decoder in Zig and the one in Elixir on any source: a text shorter than the size asked for is returned by both,
at that size both have the same bytes where both return, and a source that Elixir decodes to its end Zig decodes to the
same text. -/
theorem decoders_agree (src dst : List UInt8) (originalSize : Nat) (room : originalSize ≤ dst.length) :
    (0 < (Compression.decompressInto src dst originalSize).1 →
      (Compression.decompressInto src dst originalSize).1 < originalSize →
        decompressLz4 src originalSize = .ok ((Compression.decompressInto src dst originalSize).2.dst.take
          (Compression.decompressInto src dst originalSize).1)) ∧
      (originalSize ≤ (Compression.decompressInto src dst originalSize).1 → ∀ text,
        decompressLz4 src originalSize = .ok text →
          text.take originalSize = (Compression.decompressInto src dst originalSize).2.dst.take originalSize) ∧
      ∀ text maxSize, decompressLz4 src maxSize = .ok text → text.length < maxSize → text.length ≤ dst.length →
        (Compression.decompressInto src dst text.length).1 = text.length ∧
          (Compression.decompressInto src dst text.length).2.dst.take text.length = text := by
  refine ⟨fun returned short => ?_, fun full text same => ?_, fun text maxSize whole short fits => ?_⟩
  · obtain ⟨out, done⟩ := decompressInto_returns returned
    obtain ⟨count, begins⟩ := decompressInto_ok done
    have nothing : (Buffer.empty : Buffer dst.length).written.length < originalSize := Nat.zero_lt_of_lt short
    rw [count] at short ⊢
    rw [begins, decompressLz4_ok]
    exact (lz4DecompressBlock_of_loop room nothing done).1 short
  · rcases Nat.eq_zero_or_pos originalSize with rfl | positive
    · rw [List.take_zero, List.take_zero]
    · obtain ⟨out, done⟩ := decompressInto_returns (Nat.lt_of_lt_of_le positive full)
      obtain ⟨count, begins⟩ := decompressInto_ok done
      rw [count] at full
      have nothing : (Buffer.empty : Buffer dst.length).written.length < originalSize := positive
      rw [(lz4DecompressBlock_of_loop room nothing done).2 full text (decompressLz4_ok.mp same), ← begins,
        List.take_take, Nat.min_eq_left full]
  · obtain ⟨out, done, written⟩ := @decompressLoop_whole dst.length src text maxSize .empty (decompressLz4_ok.mp whole)
      short fits
    have ends := decompressInto_ok done
    rwa [written] at ends

/-- A source of literals, into a destination that is longer. -/
theorem decoders_agree_literals :
    (Compression.decompressInto [0x30, 1, 2, 3] [0, 0, 0, 0, 0] 3).1 = 3 ∧
      (Compression.decompressInto [0x30, 1, 2, 3] [0, 0, 0, 0, 0] 3).2.dst.take 3 = [1, 2, 3] := by
  have whole : decompressLz4 [0x30, 1, 2, 3] 4 = .ok [1, 2, 3] :=
    decompressLz4_ok.mpr (@decompress_short [1, 2, 3] (by decide) 4)
  exact (decoders_agree [0x30, 1, 2, 3] [0, 0, 0, 0, 0] 3 (by decide)).2.2 [1, 2, 3] 4 whole (by decide) (by decide)

/-- What Elixir compresses is read by the Zig decoder exactly up to sixteen bytes. -/
theorem zig_reads_elixir_iff (data dst : List UInt8) (room : data.length ≤ dst.length) :
    ((Compression.decompressInto (lz4Compress data) dst data.length).1 = data.length ∧
      (Compression.decompressInto (lz4Compress data) dst data.length).2.dst.take data.length = data) ↔ data.length ≤ 16 := by
  constructor
  · rintro ⟨count, -⟩
    by_contra long
    obtain ⟨first, one, two, later, same, outside⟩ := compress_long (Nat.lt_of_not_le long)
    obtain ⟨out, done⟩ := decompressInto_returns (count ▸ (by omega : 0 < data.length))
    have refused : firstSequence 16 (first :: one :: two :: later) 0 = .stuck [first] := by
      have literal : readLength ((16 : UInt8).toNat >>> 4) (first :: one :: two :: later) =
          (1, first :: one :: two :: later) := rfl
      rw [firstSequence, literal]
      simp only [gt_iff_lt, List.length_cons, List.drop_succ_cons, List.drop_zero, List.take_succ_cons, List.take_zero,
        List.length_nil]
      rw [if_neg (by omega), if_pos (.inr (offset_eq one two ▸ by omega))]
    rw [same, decompressLoop_first _ _ (show 0 < data.length by omega),
      show (Buffer.empty : Buffer dst.length).written.length = 0 from rfl, refused] at done
    obtain ⟨next, appended, done⟩ := Fallible.bind_ok.mp done
    have length : next.written.length = 1 := by
      rw [append_written appended]
      rfl
    rw [if_neg (by omega)] at done
    cases done
  · intro short
    obtain ⟨out, done, written⟩ := @decompressLoop_whole dst.length (lz4Compress data) data (data.length + 1) .empty
      (decompress_short short _) (Nat.lt_succ_self _) room
    have ends := decompressInto_ok done
    rwa [written] at ends

theorem zig_reads_five : (Compression.decompressInto (lz4Compress [1, 2, 3, 4, 5]) [0, 0, 0, 0, 0] 5).1 = 5 ∧
    (Compression.decompressInto (lz4Compress [1, 2, 3, 4, 5]) [0, 0, 0, 0, 0] 5).2.dst.take 5 = [1, 2, 3, 4, 5] :=
  (zig_reads_elixir_iff [1, 2, 3, 4, 5] [0, 0, 0, 0, 0] (by decide)).mpr (by decide)

end Burble.Coprocessor
