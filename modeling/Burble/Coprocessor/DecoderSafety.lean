import Burble.Coprocessor.DecoderAccesses

namespace Burble.Coprocessor.Compression

/-! No source makes the decompressor go outside its slices, or read what it has not written. -/

def Access.Inside (srcLen dstLen : Nat) : Access → Prop
  | .readSrc index => index < srcLen
  | .readDst index => index < dstLen
  | .writeDst index => index < dstLen

/-- A byte of the destination is read only after it is written. -/
def WrittenFirst (accesses : List Access) : Prop :=
  ∀ before index after, accesses = before ++ .readDst index :: after → .writeDst index ∈ before

theorem WrittenFirst.snoc {accesses : List Access} (first : WrittenFirst accesses) {access : Access}
    (written : ∀ index, access = .readDst index → .writeDst index ∈ accesses) : WrittenFirst (accesses ++ [access]) := by
  intro before index after split
  rcases List.eq_nil_or_concat after with rfl | ⟨after, last, rfl⟩
  · obtain ⟨same, read⟩ := List.append_inj' split rfl
    cases read
    exact same ▸ written index rfl
  · rw [List.concat_eq_append, ← List.cons_append, ← List.append_assoc] at split
    exact first before index after (List.append_inj' split rfl).1

structure Safe (src : List UInt8) (size : Nat) (call : Call) : Prop where
  length : call.dst.length = size
  inside : ∀ access ∈ call.accesses, access.Inside src.length size
  first : WrittenFirst call.accesses

/-- A safe call whose destination begins with what is written. -/
structure Writes (src : List UInt8) {size : Nat} (dst : Buffer size) (call : Call) : Prop extends Safe src size call where
  text : call.dst.take dst.written.length = dst.written
  filled : ∀ index < dst.written.length, .writeDst index ∈ call.accesses

section Accesses
variable {src : List UInt8} {size : Nat} {dst : Buffer size} {call : Call}

theorem Writes.empty (src dst : List UInt8) : Writes src (.empty : Buffer dst.length) ⟨dst, []⟩ where
  length := rfl
  inside := by simp
  first := by
    intro before index after split
    simp at split
  text := rfl
  filled index none := absurd none (Nat.not_lt_zero _)

theorem Safe.snoc {dst' : List UInt8} {access : Access} (safe : Safe src size call) (length : dst'.length = size)
    (inside : access.Inside src.length size) (written : ∀ index, access = .readDst index → .writeDst index ∈ call.accesses) :
    Safe src size ⟨dst', call.accesses ++ [access]⟩ where
  length := length
  inside other mem := by
    rcases List.mem_append.mp mem with old | new
    · exact safe.inside other old
    · rw [List.mem_singleton.mp new]
      exact inside
  first := safe.first.snoc written

theorem Writes.readSrc (writes : Writes src dst call) {index : Nat} (inside : index < src.length) :
    Writes src dst (call.readSrc src index).2 where
  toSafe := writes.toSafe.snoc writes.length inside (by simp)
  text := writes.text
  filled index less := List.mem_append_left _ (writes.filled index less)

theorem Writes.readDst (writes : Writes src dst call) {index : Nat} (inside : index < dst.written.length) :
    Writes src dst (call.readDst index).2 where
  toSafe := writes.toSafe.snoc writes.length (Nat.lt_of_lt_of_le inside dst.fits) (by
    intro other same
    cases same
    exact writes.filled index inside)
  text := writes.text
  filled index less := List.mem_append_left _ (writes.filled index less)

theorem Writes.byte (writes : Writes src dst call) {index : Nat} (inside : index < dst.written.length) :
    at_ dst.written index = .ok (call.readDst index).1 := by
  have far : index < call.dst.length := writes.length ▸ Nat.lt_of_lt_of_le inside dst.fits
  have here : dst.written[index]? = call.dst[index]? := by
    conv_lhs => rw [← writes.text]
    rw [List.getElem?_take_of_lt inside]
  rw [at_, here, List.getElem?_eq_getElem far, Call.readDst, List.getD_eq_getElem _ _ far]

theorem Writes.writeDst (writes : Writes src dst call) (byte : UInt8) (room : dst.written.length < size) :
    ∃ dst', dst.append [byte] = .ok dst' ∧ dst'.written = dst.written ++ [byte] ∧
      Writes src dst' (call.writeDst dst.written.length byte) := by
  obtain ⟨dst', appended, written⟩ := @Buffer.append_ok size dst [byte] room
  have grown : dst'.written.length = dst.written.length + 1 := by
    rw [written, List.length_append, List.length_singleton]
  refine ⟨dst', appended, written, writes.toSafe.snoc ?_ room (by simp), ?_, fun index less => ?_⟩
  · rw [List.length_set, writes.length]
  · have inside : dst.written.length < call.dst.length := writes.length ▸ room
    rw [grown, written, Call.writeDst, List.take_add_one, List.take_set_of_le (Nat.le_refl _), writes.text,
      List.getElem?_set_self inside]
    rfl
  · rcases Nat.lt_succ_iff_lt_or_eq.mp (grown ▸ less) with old | rfl
    · exact List.mem_append_left _ (writes.filled index old)
    · exact List.mem_append_right _ (List.mem_singleton_self _)

end Accesses

section Loops
variable {src : List UInt8} {size : Nat} {dst : Buffer size}

theorem readExtraAt_reads {srcPos : Nat} (base len : Nat) {call : Call} (writes : Writes src dst call)
    (begun : srcPos ≤ src.length) :
    (readExtraAt src srcPos (len + base) call).1 ≤ src.length ∧
      src.drop (readExtraAt src srcPos (len + base) call).1 = (readExtra len (src.drop srcPos)).2 ∧
      (readExtraAt src srcPos (len + base) call).2.1 = (readExtra len (src.drop srcPos)).1 + base ∧
      Writes src dst (readExtraAt src srcPos (len + base) call).2.2 := by
  induction left : src.length - srcPos generalizing srcPos len call with
  | zero =>
    have ended : srcPos = src.length := by omega
    rw [readExtraAt, if_neg (by omega), ended, List.drop_length]
    exact ⟨Nat.le_refl _, rfl, rfl, writes⟩
  | succ left ih =>
    have inside : srcPos < src.length := by omega
    have head : src.drop srcPos = (call.readSrc src srcPos).1 :: src.drop (srcPos + 1) := by
      rw [List.drop_eq_getElem_cons inside, Call.readSrc, List.getD_eq_getElem _ _ inside]
    have add : len + base + (call.readSrc src srcPos).1.toNat = len + (call.readSrc src srcPos).1.toNat + base := by omega
    rw [readExtraAt, if_pos inside, head, readExtra]
    dsimp only
    split
    · exact ⟨inside, rfl, add, writes.readSrc inside⟩
    · rw [add]
      exact ih _ (writes.readSrc inside) inside (by omega)

theorem readLengthAt_reads {srcPos : Nat} (half base : Nat) {call : Call} (writes : Writes src dst call)
    (begun : srcPos ≤ src.length) :
    (readLengthAt src half srcPos (half + base) call).1 ≤ src.length ∧
      src.drop (readLengthAt src half srcPos (half + base) call).1 = (readLength half (src.drop srcPos)).2 ∧
      (readLengthAt src half srcPos (half + base) call).2.1 = (readLength half (src.drop srcPos)).1 + base ∧
      Writes src dst (readLengthAt src half srcPos (half + base) call).2.2 := by
  unfold readLengthAt readLength
  split
  · exact readExtraAt_reads base half writes begun
  · exact ⟨begun, rfl, rfl, writes⟩

theorem copyLiteralsAt_writes {srcPos count : Nat} {call : Call} (writes : Writes src dst call)
    (inside : srcPos + count ≤ src.length) (room : dst.written.length + count ≤ size) :
    ∃ dst', dst.append ((src.drop srcPos).take count) = .ok dst' ∧
      dst'.written.length = dst.written.length + count ∧
      Writes src dst' (copyLiteralsAt src srcPos dst.written.length count call) := by
  induction count generalizing srcPos dst call with
  | zero =>
    rw [List.take_zero, Buffer.append_nil]
    exact ⟨dst, rfl, rfl, writes⟩
  | succ count ih =>
    have here : srcPos < src.length := by omega
    obtain ⟨next, appended, written, kept⟩ := (writes.readSrc here).writeDst (call.readSrc src srcPos).1 (by omega)
    have length : next.written.length = dst.written.length + 1 := by
      rw [written, List.length_append, List.length_singleton]
    obtain ⟨dst', later, grown, whole⟩ := @ih next (srcPos + 1) _ kept (by omega) (by omega)
    have head : (src.drop srcPos).take (count + 1) = [(call.readSrc src srcPos).1] ++ (src.drop (srcPos + 1)).take count := by
      rw [List.drop_eq_getElem_cons here, List.take_succ_cons, Call.readSrc, List.getD_eq_getElem _ _ here]
      rfl
    refine ⟨dst', ?_, by omega, ?_⟩
    · rw [head, ← Buffer.append_append, appended]
      exact later
    · rw [length] at whole
      exact whole

theorem copyMatchAt_writes {matchStart offset : Nat} (matchLen : Nat) (far : 0 < offset) {i : Nat} {call : Call}
    (writes : Writes src dst call) (reaches : matchStart + offset ≤ dst.written.length) :
    ∃ dst', copyMatch matchStart offset i matchLen dst = .ok dst' ∧
      (copyMatchAt matchStart offset matchLen i dst.written.length call).1 = dst'.written.length ∧
      Writes src dst' (copyMatchAt matchStart offset matchLen i dst.written.length call).2 := by
  induction left : matchLen - i generalizing i dst call with
  | zero =>
    have done : ¬(i < matchLen) := by omega
    rw [copyMatch, copyMatchAt, if_neg fun both => done both.1, if_neg fun both => done both.1]
    exact ⟨dst, rfl, rfl, writes⟩
  | succ left ih =>
    rw [copyMatch, copyMatchAt, writes.length]
    split
    next more =>
      have inside : matchStart + i % offset < dst.written.length := by
        have := Nat.mod_lt i far
        omega
      obtain ⟨next, appended, written, kept⟩ :=
        (writes.readDst inside).writeDst (call.readDst (matchStart + i % offset)).1 more.2
      have length : next.written.length = dst.written.length + 1 := by
        rw [written, List.length_append, List.length_singleton]
      have later := @ih next (i + 1) _ kept (by omega) (by omega)
      rw [length] at later
      rw [writes.byte inside]
      simp only [bind, Except.bind, appended]
      exact later
    next => exact ⟨dst, rfl, rfl, writes⟩

end Loops

section Turns
variable {src : List UInt8} {size : Nat} {dst : Buffer size}

/-- The call ends as the decompressor does that reads a source as a list. -/
def Ends (src : List UInt8) {size : Nat} (count : Nat) (call : Call) : Except Stop (Buffer size) → Prop
  | .ok dst => count = dst.written.length ∧ Writes src dst call
  | .error stop => stop = .failed ∧ count = 0 ∧ Safe src size call

/-- A turn comes to what the rest of that decompressor does. -/
def Turn.Agrees (src : List UInt8) {size : Nat} (originalSize : Nat) (outcome : Except Stop (Buffer size)) : Turn → Prop
  | .returns count call => Ends src count call outcome
  | .continues srcPos dstPos call => ∃ dst : Buffer size, dstPos = dst.written.length ∧ Writes src dst call ∧
      outcome = decompressLoop originalSize (src.drop srcPos) dst

/-- What `decompressLoop` does after the literals of a sequence. -/
def decompressMatch (originalSize half : Nat) (dst : Buffer size) : List UInt8 → Except Stop (Buffer size)
  | lo :: hi :: later =>
    let offset := lo.toNat ||| hi.toNat <<< 8
    if offset = 0 ∨ offset > dst.written.length then .error .failed
    else do
      let matched := readLength half later
      decompressLoop originalSize matched.2 (← copyMatch (dst.written.length - offset) offset 0 (matched.1 + minMatch) dst)
  | _ => .error .failed

theorem decompressLoop_cons {originalSize : Nat} (token : UInt8) (rest : List UInt8)
    (some : dst.written.length < originalSize) : decompressLoop originalSize (token :: rest) dst =
      let literal := readLength (token.toNat >>> 4) rest
      if literal.1 > literal.2.length ∨ dst.written.length + literal.1 > size then .error .failed
      else dst.append (literal.2.take literal.1) >>= fun dst =>
        if (literal.2.drop literal.1).isEmpty ∨ dst.written.length ≥ originalSize then .ok dst
        else decompressMatch originalSize (token.toNat &&& 0x0F) dst (literal.2.drop literal.1) := by
  rw [decompressLoop, if_neg (Nat.not_le.mpr some)]
  dsimp only
  split
  · rfl
  · refine congrArg _ (funext fun dst => ?_)
    split
    · rfl
    · split
      next lo hi later found => rw [found]; rfl
      next short => rw [decompressMatch.eq_2 _ _ _ _ short]

theorem drop_two {srcPos : Nat} (inside : srcPos + 2 ≤ src.length) :
    src.drop srcPos = src.getD srcPos 0 :: src.getD (srcPos + 1) 0 :: src.drop (srcPos + 2) := by
  rw [List.drop_eq_getElem_cons (by omega), List.drop_eq_getElem_cons (by omega), List.getD_eq_getElem _ _ (by omega),
    List.getD_eq_getElem _ _ (by omega)]

theorem matchTurn_agrees {originalSize srcPos : Nat} (half : Nat) {call : Call} (writes : Writes src dst call)
    (begun : srcPos ≤ src.length) : (matchTurn src half srcPos dst.written.length call).Agrees src originalSize
      (decompressMatch originalSize half dst (src.drop srcPos)) := by
  unfold matchTurn
  split
  next short =>
    have length := List.length_drop (i := srcPos) (l := src)
    rw [decompressMatch.eq_2 _ _ _ _ fun lo hi later pair => by
      rw [pair, List.length_cons, List.length_cons] at length
      omega]
    exact ⟨rfl, rfl, writes.toSafe⟩
  next pair =>
    have within : srcPos + 2 ≤ src.length := Nat.le_of_not_lt pair
    have low : srcPos < src.length := by omega
    have high : srcPos + 1 < src.length := by omega
    have read := (writes.readSrc low).readSrc high
    rw [drop_two within, decompressMatch]
    dsimp only [Call.readSrc] at read ⊢
    generalize (src.getD srcPos 0).toNat ||| (src.getD (srcPos + 1) 0).toNat <<< 8 = offset
    by_cases invalid : offset = 0 ∨ offset > dst.written.length
    · rw [if_pos invalid, if_pos invalid]
      exact ⟨rfl, rfl, read.toSafe⟩
    · rw [if_neg invalid, if_neg invalid]
      obtain ⟨_, rest, length, kept⟩ := readLengthAt_reads half minMatch read within
      obtain ⟨dst', copies, count, whole⟩ := @copyMatchAt_writes src size dst (dst.written.length - offset) offset
        ((readLength half (src.drop (srcPos + 2))).1 + minMatch) (by omega) 0 _ kept (by omega)
      rw [length]
      refine ⟨dst', count, whole, ?_⟩
      rw [copies, rest]
      rfl

theorem sequenceAt_agrees {originalSize srcPos : Nat} {call : Call} (writes : Writes src dst call)
    (inside : srcPos < src.length) (some : dst.written.length < originalSize) :
    (sequenceAt src originalSize srcPos dst.written.length call).Agrees src originalSize
      (decompressLoop originalSize (src.drop srcPos) dst) := by
  have head : src.drop srcPos = src.getD srcPos 0 :: src.drop (srcPos + 1) := by
    rw [List.drop_eq_getElem_cons inside, List.getD_eq_getElem _ _ inside]
  have begun : srcPos + 1 ≤ src.length := inside
  obtain ⟨within, rest, length, kept⟩ :=
    readLengthAt_reads ((src.getD srcPos 0).toNat >>> 4) 0 (writes.readSrc inside) begun
  rw [head, decompressLoop_cons _ _ some]
  unfold sequenceAt
  dsimp only [Call.readSrc, Nat.add_zero] at rest length kept within ⊢
  generalize readLengthAt src _ (srcPos + 1) _ _ = read at rest length kept within ⊢
  generalize readLength _ (src.drop (srcPos + 1)) = literal at rest length ⊢
  have left := congrArg List.length rest
  rw [List.length_drop] at left
  rw [length, kept.length]
  by_cases outside : literal.1 > literal.2.length ∨ dst.written.length + literal.1 > size
  · rw [if_pos outside, if_pos (by omega)]
    exact ⟨rfl, rfl, kept.toSafe⟩
  · rw [if_neg outside, if_neg (by omega)]
    obtain ⟨dst', appended, grown, whole⟩ := @copyLiteralsAt_writes src size dst read.1 literal.1 _ kept (by omega) (by omega)
    have after : src.drop (read.1 + literal.1) = literal.2.drop literal.1 := by rw [← rest, List.drop_drop]
    have ended : (literal.2.drop literal.1).isEmpty ↔ read.1 + literal.1 ≥ src.length := by
      rw [List.isEmpty_iff, List.drop_eq_nil_iff]
      omega
    rw [rest] at appended
    rw [appended]
    dsimp only [bind, Except.bind]
    rw [← grown]
    by_cases last : read.1 + literal.1 ≥ src.length ∨ dst'.written.length ≥ originalSize
    · rw [if_pos (last.imp_left ended.mpr), if_pos last]
      exact ⟨rfl, whole⟩
    · rw [if_neg (fun or => last (or.imp_left ended.mp)), if_neg last, ← after]
      exact matchTurn_agrees _ whole (by omega)

/-- The decompressor on any source ends as the one does that reads it as a list. -/
theorem decompressAt_ends {originalSize srcPos : Nat} {call : Call} (writes : Writes src dst call) :
    Ends src (decompressAt src originalSize srcPos dst.written.length call).1
      (decompressAt src originalSize srcPos dst.written.length call).2
      (decompressLoop originalSize (src.drop srcPos) dst) := by
  induction left : src.length - srcPos using Nat.strongRecOn generalizing srcPos dst call with
  | ind left ih =>
    rw [decompressAt]
    split
    next more =>
      have agrees := sequenceAt_agrees writes more.1 more.2
      split
      next count call' returns =>
        rw [returns] at agrees
        exact agrees
      next srcPos' dstPos' call' continues =>
        have further := sequenceAt_pos src continues
        rw [continues] at agrees
        obtain ⟨dst', length, whole, same⟩ := agrees
        rw [same, length]
        exact ih (src.length - srcPos') (by omega) whole rfl
    next ended =>
      have done : decompressLoop originalSize (src.drop srcPos) dst = .ok dst := by
        rw [decompressLoop.eq_def]
        split
        · rfl
        next found =>
          have length := congrArg List.length found
          rw [List.length_drop, List.length_cons] at length
          rw [if_pos (by omega)]
      rw [done]
      exact ⟨rfl, writes⟩

end Turns

/-! What is written depends on the source alone. -/

section Text

/-- The text of a source, as far as it can be read, where there is always room. -/
def unpack (src history : List UInt8) : List UInt8 :=
  match src with
  | [] => history
  | token :: rest =>
    let literal := readLength (token.toNat >>> 4) rest
    if literal.1 > literal.2.length then history
    else
      let history := history ++ literal.2.take literal.1
      match _left : literal.2.drop literal.1 with
      | lo :: hi :: later =>
        let offset := lo.toNat ||| hi.toNat <<< 8
        if offset = 0 ∨ offset > history.length then history
        else
          let matched := readLength (token.toNat &&& 0x0F) later
          unpack matched.2 (history ++ copied history offset (matched.1 + minMatch))
      | _ => history
termination_by src.length
decreasing_by
  have skipped := congrArg List.length _left
  have read : literal.2.length ≤ rest.length := readLength_rest _ rest
  have matchedRead : matched.2.length ≤ later.length := readLength_rest _ later
  simp only [List.length_drop, List.length_cons] at skipped
  change matched.2.length < rest.length + 1
  omega

def unpackMatch (half : Nat) (history : List UInt8) : List UInt8 → List UInt8
  | lo :: hi :: later =>
    let offset := lo.toNat ||| hi.toNat <<< 8
    if offset = 0 ∨ offset > history.length then history
    else
      let matched := readLength half later
      unpack matched.2 (history ++ copied history offset (matched.1 + minMatch))
  | _ => history

theorem unpack_cons (token : UInt8) (rest history : List UInt8) : unpack (token :: rest) history =
    let literal := readLength (token.toNat >>> 4) rest
    if literal.1 > literal.2.length then history
    else unpackMatch (token.toNat &&& 0x0F) (history ++ literal.2.take literal.1) (literal.2.drop literal.1) := by
  rw [unpack]
  dsimp only
  split
  · rfl
  · split
    next lo hi later found => rw [found]; rfl
    next short => rw [unpackMatch.eq_2 _ _ _ short]

theorem unpackMatch_extends {rest : List UInt8} (half : Nat) (history : List UInt8)
    (shorter : ∀ src history, src.length < rest.length → history <+: unpack src history) :
    history <+: unpackMatch half history rest := by
  unfold unpackMatch
  split
  next lo hi later =>
    dsimp only
    split
    · exact List.prefix_refl _
    · have read := readLength_rest half later
      refine (List.prefix_append _ _).trans (shorter _ _ ?_)
      simp only [List.length_cons]
      omega
  next => exact List.prefix_refl _

theorem unpack_extends (src history : List UInt8) : history <+: unpack src history := by
  induction length : src.length using Nat.strongRecOn generalizing src history with
  | ind length ih =>
    cases src with
    | nil =>
      simp only [unpack, List.prefix_rfl]
    | cons token rest =>
      have read := readLength_rest (token.toNat >>> 4) rest
      rw [unpack_cons]
      dsimp only
      split
      · exact List.prefix_refl _
      · refine List.IsPrefix.trans (List.prefix_append _ _) (unpackMatch_extends _ _ fun src history less => ?_)
        rw [List.length_drop] at less
        exact ih src.length (by rw [← length, List.length_cons]; omega) src history rfl

variable {size originalSize : Nat}

theorem decompressLoop_full (src : List UInt8) {dst : Buffer size} (full : originalSize ≤ dst.written.length) :
    decompressLoop originalSize src dst = .ok dst := by
  rw [decompressLoop.eq_def]
  split
  · rfl
  · rw [if_pos full]

theorem decompressMatch_text {rest : List UInt8} (half : Nat) {dst out : Buffer size} (room : originalSize ≤ size)
    (shorter : ∀ src (dst : Buffer size), src.length < rest.length →
      decompressLoop originalSize src dst = .ok out → out.written <+: unpack src dst.written)
    (done : decompressMatch originalSize half dst rest = .ok out) : out.written <+: unpackMatch half dst.written rest := by
  unfold unpackMatch
  split
  next lo hi later =>
    rw [decompressMatch] at done
    dsimp only at done ⊢
    generalize lo.toNat ||| hi.toNat <<< 8 = offset at done ⊢
    by_cases invalid : offset = 0 ∨ offset > dst.written.length
    · rw [if_pos invalid] at done
      cases done
    · have read := readLength_rest half later
      rw [if_neg invalid] at done ⊢
      generalize readLength half later = matched at done read ⊢
      obtain ⟨next, copies, written⟩ := @copyMatch_upto size dst.written offset (matched.1 + minMatch) (by omega)
        (by omega) 0 (Nat.zero_le _) dst (List.append_nil _).symm
      rw [copies] at done
      replace done : decompressLoop originalSize matched.2 next = .ok out := done
      by_cases fits : matched.1 + minMatch ≤ size - dst.written.length
      · rw [Nat.min_eq_left fits] at written
        rw [← written]
        refine shorter matched.2 next ?_ done
        simp only [List.length_cons]
        omega
      · -- A copy that is cut short fills the destination, and nothing follows it.
        have fitted := dst.fits
        have length : next.written.length = size := by
          rw [written, List.length_append, copied_length]
          omega
        rw [decompressLoop_full _ (Nat.le_trans room (Nat.le_of_eq length.symm))] at done
        cases done
        rw [written]
        exact ((List.prefix_append_right_inj _).mpr (copied_begins _ _ (Nat.min_le_left _ _))).trans (unpack_extends _ _)
  next short =>
    rw [decompressMatch.eq_2 _ _ _ _ short] at done
    cases done

theorem decompressLoop_text (room : originalSize ≤ size) {src : List UInt8} {dst out : Buffer size}
    (done : decompressLoop originalSize src dst = .ok out) : out.written <+: unpack src dst.written := by
  induction length : src.length using Nat.strongRecOn generalizing src dst with
  | ind length ih =>
    by_cases full : originalSize ≤ dst.written.length
    · rw [decompressLoop_full src full] at done
      cases done
      exact unpack_extends _ _
    · cases src with
      | nil =>
        rw [decompressLoop] at done
        cases done
        exact unpack_extends _ _
      | cons token rest =>
        have read := readLength_rest (token.toNat >>> 4) rest
        rw [decompressLoop_cons _ _ (Nat.lt_of_not_le full)] at done
        rw [unpack_cons]
        dsimp only at done ⊢
        generalize readLength (token.toNat >>> 4) rest = literal at done read ⊢
        by_cases outside : literal.1 > literal.2.length ∨ dst.written.length + literal.1 > size
        · rw [if_pos outside] at done
          cases done
        · rw [if_neg outside] at done
          rw [if_neg fun more => outside (.inl more)]
          obtain ⟨next, appended, written⟩ := @Buffer.append_ok size dst (literal.2.take literal.1) (by
            rw [List.length_take]
            omega)
          rw [appended] at done
          dsimp only [bind, Except.bind] at done
          rw [← written]
          split at done
          · cases done
            exact unpackMatch_extends _ _ fun src history _ => unpack_extends src history
          · refine decompressMatch_text _ room (fun src dst less done => ?_) done
            rw [List.length_drop] at less
            exact ih src.length (by rw [← length, List.length_cons]; omega) done rfl

end Text

/-- On any source the decompressor stays inside its slices, reads what it has written, and returns at most the room that
    it is given, and where it returns the original size the bytes below it are the source's. -/
theorem decompressInto_safe (src dst : List UInt8) (originalSize : Nat) (room : originalSize ≤ dst.length) :
    (∀ access ∈ (decompressInto src dst originalSize).2.accesses, access.Inside src.length dst.length) ∧
      WrittenFirst (decompressInto src dst originalSize).2.accesses ∧
      (decompressInto src dst originalSize).1 ≤ dst.length ∧
      ((decompressInto src dst originalSize).1 = originalSize →
        (decompressInto src dst originalSize).2.dst.take originalSize = (unpack src []).take originalSize) := by
  have ends := @decompressAt_ends src dst.length .empty originalSize 0 _ (Writes.empty src dst)
  change Ends src (decompressInto src dst originalSize).1 (decompressInto src dst originalSize).2 _ at ends
  rw [List.drop_zero] at ends
  match done : decompressLoop originalSize src (.empty : Buffer dst.length), ends with
  | .ok out, ends =>
    obtain ⟨count, writes⟩ := ends
    refine ⟨writes.inside, writes.first, count ▸ out.fits, fun whole => ?_⟩
    have text := decompressLoop_text room done
    have size : originalSize = out.written.length := whole.symm.trans count
    have taken := writes.text
    rw [← size] at taken
    rw [taken, size]
    exact List.prefix_iff_eq_take.mp text
  | .error stop, ends =>
    obtain ⟨_, none, safe⟩ := ends
    refine ⟨safe.inside, safe.first, none ▸ Nat.zero_le _, fun whole => ?_⟩
    rw [← whole, none, List.take_zero, List.take_zero]

/-- A copy that would go beyond the destination. -/
theorem decompressInto_cut : WrittenFirst (decompressInto [0x1F, 7, 1, 0, 200] (List.replicate 30 0) 30).2.accesses ∧
    (decompressInto [0x1F, 7, 1, 0, 200] (List.replicate 30 0) 30).1 ≤ 30 := by
  obtain ⟨_, first, most, _⟩ := decompressInto_safe [0x1F, 7, 1, 0, 200] (List.replicate 30 0) 30 (by decide)
  exact ⟨first, most⟩

end Burble.Coprocessor.Compression
