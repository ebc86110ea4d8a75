import Burble.Bytes

namespace Burble.Coprocessor

/-- `encode_lz4_length`: as many bytes of 255 as go into it, and the rest. -/
def encodeLz4Length (len : Nat) : List UInt8 :=
  if len < 255 then [len.toUInt8] else 255 :: encodeLz4Length (len - 255)
termination_by len

def countMatchingBytes (data : List UInt8) (a b size count : Nat) : Nat :=
  if count ≥ 255 then count
  else if a + count < size ∧ b + count < size ∧ data[a + count]? = data[b + count]? then
    countMatchingBytes data a b size (count + 1)
  else count
termination_by 255 - count

/-- The better of two matches, each an offset and a length. -/
def betterMatch (offset matchLen : Nat) : Option (Nat × Nat) → Option (Nat × Nat)
  | none => some (offset, matchLen)
  | some (bestOffset, bestLen) => if matchLen > bestLen then some (offset, matchLen) else some (bestOffset, bestLen)

def findLz4MatchScan (data : List UInt8) (pos scan scanEnd size : Nat) (best : Option (Nat × Nat)) : Option (Nat × Nat) :=
  if scan ≥ scanEnd then best
  else
    let matchLen := countMatchingBytes data scan pos size 0
    let newBest := if matchLen ≥ 4 then betterMatch (pos - scan) matchLen best else best
    findLz4MatchScan data pos (scan + 1) scanEnd size newBest
termination_by scanEnd - scan

def findLz4Match (data : List UInt8) (pos windowStart size : Nat) : Option (Nat × Nat) :=
  if pos + 4 > size then none else findLz4MatchScan data pos windowStart pos size none

/-- A match is of four bytes at least. -/
theorem findLz4MatchScan_len {data : List UInt8} {pos scan scanEnd size : Nat} {best : Option (Nat × Nat)}
    (long : ∀ found ∈ best, 4 ≤ found.2) : ∀ found ∈ findLz4MatchScan data pos scan scanEnd size best, 4 ≤ found.2 := by
  induction scan, best using findLz4MatchScan.induct data pos scanEnd size with
  | case1 scan best done =>
    rw [findLz4MatchScan, if_pos done]
    exact long
  | case2 scan best more matchLen newBest ih =>
    rw [findLz4MatchScan, if_neg more]
    refine ih fun found member => ?_
    simp only [newBest] at member
    split at member
    next enough =>
      cases best with
      | none =>
        cases member
        exact enough
      | some former =>
        simp only [betterMatch] at member
        split at member
        · cases member
          exact enough
        · cases member
          exact long former rfl
    next => exact long found member

theorem findLz4Match_len {data : List UInt8} {pos windowStart size : Nat} {found : Nat × Nat}
    (matched : findLz4Match data pos windowStart size = some found) : 4 ≤ found.2 := by
  unfold findLz4Match at matched
  split at matched
  · cases matched
  · exact findLz4MatchScan_len (fun _ none => by cases none) found matched

/-- The end of a block: the literals that are taken to remain. The chunks so far are listed backwards. -/
def lz4FinishBlock (data : List UInt8) (pos size : Nat) (acc : List (List UInt8)) : List (List UInt8) :=
  let remaining := size - (pos - acc.flatten.length)
  if remaining > 0 then
    let lits := (data.drop (size - remaining)).take remaining
    let litLen := lits.length
    let token := min litLen 15 <<< 4
    let extra := if litLen ≥ 15 then encodeLz4Length (litLen - 15) else []
    ((token.toUInt8 :: extra ++ lits) :: acc).reverse
  else acc.reverse

/-- The chunk for one byte without a match, and the chunk for a match. -/
def lz4Literal (byte : UInt8) : List UInt8 := [(1 <<< 4 : Nat).toUInt8, byte]

def lz4MatchChunk (offset matchLen : Nat) : List UInt8 :=
  let ml := matchLen - 4
  let token := min ml 15
  let extra := if ml ≥ 15 then encodeLz4Length (ml - 15) else []
  token.toUInt8 :: littleEndian 2 offset ++ extra

def lz4CompressBlock (data : List UInt8) (pos size : Nat) (acc : List (List UInt8)) : List (List UInt8) :=
  if pos ≥ size then lz4FinishBlock data pos size acc
  else
    match found : findLz4Match data pos (pos - 4096) size with
    | none => lz4CompressBlock data (pos + 1) size (lz4Literal (data.getD pos 0) :: acc)
    | some (offset, matchLen) => lz4CompressBlock data (pos + matchLen) size (lz4MatchChunk offset matchLen :: acc)
termination_by size - pos
decreasing_by
  · omega
  · have long := findLz4Match_len found
    dsimp only at long
    omega

def lz4Compress (data : List UInt8) : List UInt8 :=
  if data.length ≤ 16 then
    let litLen := data.length
    let token := min litLen 15 <<< 4
    let extra := if litLen ≥ 15 then [(litLen - 15).toUInt8] else []
    token.toUInt8 :: extra ++ data
  else (lz4CompressBlock data 0 data.length []).flatten

/-- Of a length of fifteen, the bytes that add to it. -/
def readLz4ExtraLength : Nat → List UInt8 → Nat × List UInt8
  | 15, 255 :: rest => ((readLz4ExtraLength 15 rest).1 + 255, (readLz4ExtraLength 15 rest).2)
  | 15, byte :: rest => (15 + byte.toNat, rest)
  | len, rest => (len, rest)

/-- Copy bytes of the output to its end, from a place that may lie outside, where reading raises. -/
def copyBytes (output : List UInt8) (src : Int) : Nat → Option (List UInt8)
  | 0 => some output
  | remaining + 1 =>
    if 0 ≤ src then
      match output[src.toNat]? with
      | some byte => copyBytes (output ++ [byte]) (src + 1) remaining
      | none => none
    else none

def lz4CopyMatch (output : List UInt8) (offset matchLen : Nat) : Option (List UInt8) :=
  copyBytes output (output.length - offset) matchLen

theorem readLz4ExtraLength_rest (len : Nat) (rest : List UInt8) :
    (readLz4ExtraLength len rest).2.length ≤ rest.length := by
  fun_induction readLz4ExtraLength len rest with
  | case1 rest ih => exact ih.trans (Nat.le_succ _)
  | case2 byte rest other => exact Nat.le_succ _
  | case3 len rest => exact Nat.le_refl _

/-- `nothing` is what comes of an exception. -/
def lz4DecompressBlock (compressed output : List UInt8) (maxSize : Nat) : Option (List UInt8) :=
  match compressed with
  | [] => some output
  | token :: rest =>
    let literal := readLz4ExtraLength (token.toNat >>> 4) rest
    if literal.2.length < literal.1 then none
    else
      let output := output ++ literal.2.take literal.1
      match _left : literal.2.drop literal.1 with
      | [] => some output
      | [_] => none
      | lo :: hi :: later =>
        let matched := readLz4ExtraLength (token.toNat &&& 0x0F) later
        match lz4CopyMatch output (lo.toNat + 256 * hi.toNat) (matched.1 + 4) with
        | none => none
        | some output =>
          if output.length ≥ maxSize then some (output.take maxSize)
          else lz4DecompressBlock matched.2 output maxSize
termination_by compressed.length
decreasing_by
  have skipped := congrArg List.length _left
  have read : literal.2.length ≤ rest.length := readLz4ExtraLength_rest _ rest
  have matchedRead : matched.2.length ≤ later.length := readLz4ExtraLength_rest _ later
  simp only [List.length_drop, List.length_cons] at skipped
  show matched.2.length < rest.length + 1
  omega

inductive Lz4Error
  | decompressFailed
  deriving DecidableEq, Repr

def compressLz4 (data : List UInt8) : Except Lz4Error (List UInt8) := .ok (lz4Compress data)

def decompressLz4 (compressed : List UInt8) (originalSize : Nat) : Except Lz4Error (List UInt8) :=
  match lz4DecompressBlock compressed [] originalSize with
  | some data => .ok data
  | none => .error .decompressFailed

end Burble.Coprocessor

namespace Burble.Coprocessor
variable {data : List UInt8}

/-- A run of literals that ends the input, of a length that is read as it is written. -/
theorem decompress_literals {token : UInt8} {extra : List UInt8} (output : List UInt8) (maxSize : Nat)
    (length : readLz4ExtraLength (token.toNat >>> 4) (extra ++ data) = (data.length, data)) :
    lz4DecompressBlock (token :: (extra ++ data)) output maxSize = some (output ++ data) := by
  rw [lz4DecompressBlock]
  simp only [length, Nat.lt_irrefl, if_false]
  split
  next => rw [List.take_length]
  next _ only =>
    rw [length, List.drop_length] at only
    cases only
  next _ _ _ more =>
    rw [length, List.drop_length] at more
    cases more

/-- Up to sixteen bytes are one run of literals. -/
theorem decompress_short (short : data.length ≤ 16) (maxSize : Nat) :
    lz4DecompressBlock (lz4Compress data) [] maxSize = some data := by
  rw [lz4Compress, if_pos short]
  refine decompress_literals [] maxSize ?_
  by_cases extended : data.length ≥ 15
  · rcases (by omega : data.length = 15 ∨ data.length = 16) with same | same
    · simp [same, readLz4ExtraLength]
    · simp [same, readLz4ExtraLength]
  · simp only [if_neg extended, List.nil_append]
    have token : (min data.length 15 <<< 4).toUInt8.toNat >>> 4 = data.length := by
      rw [Nat.min_eq_left (by omega), Nat.shiftLeft_eq, Nat.toUInt8, UInt8.toNat_ofNat', Nat.shiftRight_eq_div_pow]
      omega
    rw [token]
    unfold readLz4ExtraLength
    split
    · omega
    · omega
    · rfl

/-- A block that is being compressed keeps the chunks there are. -/
theorem compressBlock_acc (data : List UInt8) (pos size : Nat) (acc : List (List UInt8)) :
    ∃ more, lz4CompressBlock data pos size acc = acc.reverse ++ more := by
  induction pos, acc using lz4CompressBlock.induct data size with
  | case1 pos acc done =>
    rw [lz4CompressBlock, if_pos done, lz4FinishBlock]
    split
    · exact ⟨_, List.reverse_cons⟩
    · exact ⟨[], (List.append_nil _).symm⟩
  | case2 pos acc more none ih =>
    obtain ⟨later, same⟩ := ih
    rw [lz4CompressBlock, if_neg more]
    split
    next =>
      rw [same, List.reverse_cons, List.append_assoc]
      exact ⟨_, rfl⟩
    next found =>
      rw [none] at found
      cases found
  | case3 pos acc more offset matchLen found ih =>
    obtain ⟨later, same⟩ := ih
    rw [lz4CompressBlock, if_neg more]
    split
    next none =>
      rw [none] at found
      cases found
    next again =>
      rw [found] at again
      cases again
      rw [same, List.reverse_cons, List.append_assoc]
      exact ⟨_, rfl⟩

/-- Nothing matches the first byte, and the second can only match the first. -/
theorem findLz4Match_first (data : List UInt8) (size : Nat) : findLz4Match data 0 0 size = none := by
  unfold findLz4Match
  split
  · rfl
  · rw [findLz4MatchScan, if_pos (Nat.le_refl 0)]

theorem findLz4Match_second (data : List UInt8) (size : Nat) :
    findLz4Match data 1 0 size = none ∨ ∃ matchLen, findLz4Match data 1 0 size = some (1, matchLen) := by
  unfold findLz4Match
  split
  · exact .inl rfl
  · rw [findLz4MatchScan, if_neg (by decide)]
    simp only [betterMatch]
    rw [findLz4MatchScan, if_pos (by decide)]
    split
    · exact .inr ⟨_, rfl⟩
    · exact .inl rfl

/-- More than sixteen bytes begin with one literal, and with two bytes that are no offset into it. -/
theorem compress_long (long : 16 < data.length) : ∃ first one two later,
    lz4Compress data = 16 :: first :: one :: two :: later ∧ 1 < UInt8.toNat one + 256 * UInt8.toNat two := by
  rw [lz4Compress, if_neg (Nat.not_le.mpr long), lz4CompressBlock, if_neg (by omega)]
  split
  next =>
    rw [lz4CompressBlock, if_neg (by omega)]
    split
    next =>
      obtain ⟨more, same⟩ := compressBlock_acc data (0 + 1 + 1) data.length
        [lz4Literal (data.getD (0 + 1) 0), lz4Literal (data.getD 0 0)]
      rw [same]
      exact ⟨_, 16, _, _, rfl, Nat.lt_add_right _ (by decide)⟩
    next offset matchLen found =>
      have offsetOne : offset = 1 := by
        rcases findLz4Match_second data data.length with none | ⟨_, some⟩
        · rw [none] at found
          cases found
        · rw [some] at found
          cases found
          rfl
      subst offsetOne
      obtain ⟨more, same⟩ := compressBlock_acc data (0 + 1 + matchLen) data.length
        [lz4MatchChunk 1 matchLen, lz4Literal (data.getD 0 0)]
      rw [same]
      exact ⟨_, _, 1, _, rfl, by simp⟩
  next found =>
    rw [findLz4Match_first] at found
    cases found

/-- A copy from before the output raises. -/
theorem decompress_outside {first one two : UInt8} {later : List UInt8} (maxSize : Nat)
    (outside : 1 < one.toNat + 256 * two.toNat) :
    lz4DecompressBlock (16 :: first :: one :: two :: later) [] maxSize = none := by
  have literal : readLz4ExtraLength ((16 : UInt8).toNat >>> 4) (first :: one :: two :: later) =
      (1, first :: one :: two :: later) := rfl
  have copied (matchLen : Nat) : lz4CopyMatch ([] ++ [first]) (one.toNat + 256 * two.toNat) (matchLen + 4) = none := by
    rw [lz4CopyMatch, copyBytes, if_neg]
    simp only [List.nil_append, List.length_singleton]
    omega
  rw [lz4DecompressBlock]
  simp only [literal]
  rw [if_neg (by simp)]
  split
  next none => cases none
  next => rfl
  next more =>
    cases more
    simp only [List.take_succ_cons, List.take_zero]
    rw [copied]

/-- More than sixteen bytes are not decompressed. -/
theorem decompress_long (long : 16 < data.length) (maxSize : Nat) :
    lz4DecompressBlock (lz4Compress data) [] maxSize = none := by
  obtain ⟨first, one, two, later, same, outside⟩ := compress_long long
  rw [same]
  exact decompress_outside maxSize outside

/-- Compression round trips for sixteen bytes and fewer. -/
theorem lz4_round_trip_iff (data : List UInt8) :
    (∀ compressed, compressLz4 data = .ok compressed → decompressLz4 compressed data.length = .ok data) ↔
      data.length ≤ 16 := by
  constructor
  · intro trips
    by_contra long
    have tripped := trips _ rfl
    rw [decompressLz4, decompress_long (Nat.lt_of_not_le long)] at tripped
    cases tripped
  · rintro short compressed ⟨⟩
    rw [decompressLz4, decompress_short short]

/-- Seventeen zeros. -/
theorem zeros_lost : ∃ compressed, compressLz4 (List.replicate 17 0) = .ok compressed ∧
    decompressLz4 compressed 17 = .error .decompressFailed := by
  refine ⟨_, rfl, ?_⟩
  rw [decompressLz4, decompress_long (by decide)]

end Burble.Coprocessor
