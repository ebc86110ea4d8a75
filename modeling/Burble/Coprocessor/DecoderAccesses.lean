import Burble.Coprocessor.Lz4Sequences

namespace Burble.Coprocessor.Compression

/-! The decompressor with its cursors, and every access that it makes to its source and its destination. -/

inductive Access
  | readSrc (index : Nat)
  | readDst (index : Nat)
  | writeDst (index : Nat)
  deriving DecidableEq

/-- A destination, whatever it held before the call, and the accesses so far. -/
structure Call where
  dst : List UInt8
  accesses : List Access

namespace Call

def readSrc (call : Call) (src : List UInt8) (index : Nat) : UInt8 × Call :=
  (src.getD index 0, { call with accesses := call.accesses ++ [.readSrc index] })

def readDst (call : Call) (index : Nat) : UInt8 × Call :=
  (call.dst.getD index 0, { call with accesses := call.accesses ++ [.readDst index] })

def writeDst (call : Call) (index : Nat) (byte : UInt8) : Call :=
  ⟨call.dst.set index byte, call.accesses ++ [.writeDst index]⟩

end Call

section Decoder
variable (src : List UInt8)

/-- The loop over the bytes of a length, up to one that is not 255: where it stops, and the length. -/
def readExtraAt (srcPos len : Nat) (call : Call) : Nat × Nat × Call :=
  if srcPos < src.length then
    let (extra, call) := call.readSrc src srcPos
    if extra ≠ 255 then (srcPos + 1, len + extra.toNat, call) else readExtraAt (srcPos + 1) (len + extra.toNat) call
  else (srcPos, len, call)
termination_by src.length - srcPos

def readLengthAt (half srcPos len : Nat) (call : Call) : Nat × Nat × Call :=
  if half = 15 then readExtraAt src srcPos len call else (srcPos, len, call)

def copyLiteralsAt (srcPos dstPos : Nat) : Nat → Call → Call
  | 0, call => call
  | count + 1, call =>
    let (byte, call) := call.readSrc src srcPos
    copyLiteralsAt (srcPos + 1) (dstPos + 1) count (call.writeDst dstPos byte)

def copyMatchAt (matchStart offset matchLen i dstPos : Nat) (call : Call) : Nat × Call :=
  if i < matchLen ∧ dstPos < call.dst.length then
    let (byte, call) := call.readDst (matchStart + i % offset)
    copyMatchAt matchStart offset matchLen (i + 1) (dstPos + 1) (call.writeDst dstPos byte)
  else (dstPos, call)
termination_by matchLen - i

theorem readExtraAt_pos (srcPos len : Nat) (call : Call) : srcPos ≤ (readExtraAt src srcPos len call).1 := by
  induction srcPos, len, call using readExtraAt.induct src with
  | case1 srcPos len call inside extra call' read other =>
    rw [readExtraAt, if_pos inside, read]
    dsimp only
    rw [if_pos other]
    exact Nat.le_succ _
  | case2 srcPos len call inside extra call' read full ih =>
    rw [readExtraAt, if_pos inside, read]
    dsimp only
    rw [if_neg full]
    exact Nat.le_trans (Nat.le_succ _) ih
  | case3 srcPos len call outside =>
    rw [readExtraAt, if_neg outside]

theorem readLengthAt_pos (half srcPos len : Nat) (call : Call) : srcPos ≤ (readLengthAt src half srcPos len call).1 := by
  rw [readLengthAt]
  split
  · exact readExtraAt_pos src srcPos len call
  · exact Nat.le_refl _

/-- What one turn of the loop of `lz4_decompress` comes to. -/
inductive Turn
  | returns (count : Nat) (call : Call)
  | continues (srcPos dstPos : Nat) (call : Call)

/-- The match after literals that end at two cursors. -/
def matchTurn (half srcPos dstPos : Nat) (call : Call) : Turn :=
  if srcPos + 2 > src.length then .returns 0 call
  else
    let lo := call.readSrc src srcPos
    let hi := lo.2.readSrc src (srcPos + 1)
    let offset := lo.1.toNat ||| hi.1.toNat <<< 8
    if offset = 0 ∨ offset > dstPos then .returns 0 hi.2
    else
      let matched := readLengthAt src half (srcPos + 2) (half + minMatch) hi.2
      let copied := copyMatchAt (dstPos - offset) offset matched.2.1 0 dstPos matched.2.2
      .continues matched.1 copied.1 copied.2

def sequenceAt (originalSize srcPos dstPos : Nat) (call : Call) : Turn :=
  let token := call.readSrc src srcPos
  let half := token.1.toNat >>> 4
  let literal := readLengthAt src half (srcPos + 1) half token.2
  let litLen := literal.2.1
  if literal.1 + litLen > src.length ∨ dstPos + litLen > literal.2.2.dst.length then .returns 0 literal.2.2
  else
    let call := copyLiteralsAt src literal.1 dstPos litLen literal.2.2
    if literal.1 + litLen ≥ src.length ∨ dstPos + litLen ≥ originalSize then .returns (dstPos + litLen) call
    else matchTurn src (token.1.toNat &&& 0x0F) (literal.1 + litLen) (dstPos + litLen) call

theorem matchTurn_pos {half srcPos dstPos srcPos' dstPos' : Nat} {call call' : Call}
    (turn : matchTurn src half srcPos dstPos call = .continues srcPos' dstPos' call') : srcPos < srcPos' := by
  unfold matchTurn at turn
  split at turn
  · cases turn
  · dsimp only at turn
    split at turn
    · cases turn
    · cases turn
      exact Nat.lt_of_lt_of_le (Nat.lt_add_of_pos_right (by decide)) (readLengthAt_pos src _ _ _ _)

theorem sequenceAt_pos {originalSize srcPos dstPos srcPos' dstPos' : Nat} {call call' : Call}
    (turn : sequenceAt src originalSize srcPos dstPos call = .continues srcPos' dstPos' call') : srcPos < srcPos' := by
  unfold sequenceAt at turn
  dsimp only at turn
  split at turn
  · cases turn
  · split at turn
    · cases turn
    · have literal := readLengthAt_pos src ((call.readSrc src srcPos).1.toNat >>> 4) (srcPos + 1)
        ((call.readSrc src srcPos).1.toNat >>> 4) (call.readSrc src srcPos).2
      have matched := matchTurn_pos src turn
      omega

/-- What is returned is the number of bytes that are written, or 0 where the source cannot be read. -/
def decompressAt (originalSize srcPos dstPos : Nat) (call : Call) : Nat × Call :=
  if _inside : srcPos < src.length ∧ dstPos < originalSize then
    match _turn : sequenceAt src originalSize srcPos dstPos call with
    | .returns count call => (count, call)
    | .continues srcPos dstPos call => decompressAt originalSize srcPos dstPos call
  else (dstPos, call)
termination_by src.length - srcPos
decreasing_by
  have further := sequenceAt_pos src _turn
  omega

def decompressInto (dst : List UInt8) (originalSize : Nat) : Nat × Call := decompressAt src originalSize 0 0 ⟨dst, []⟩

end Decoder

end Burble.Coprocessor.Compression
