import Mathlib.Logic.Function.Basic
import Mathlib.Algebra.Ring.Nat
import Mathlib.Data.List.GetD
import Burble.Fallible

namespace Burble.Coprocessor.Compression

/-- What ends a kernel early: a failed safety check, or a return of 0. -/
inductive Stop
  | castTruncatesBits
  | integerOverflow
  | outOfBounds
  | failed
  deriving DecidableEq, Repr

/-- A destination of `size` bytes that is filled from its start. -/
structure Buffer (size : Nat) where
  written : List UInt8
  fits : written.length ≤ size

section Checked

def sub (a b : Nat) : Except Stop Nat := if b ≤ a then .ok (a - b) else .error .integerOverflow

def castU16 (value : Nat) : Except Stop UInt16 := if value < 65536 then .ok value.toUInt16 else .error .castTruncatesBits

def slice (data : List UInt8) (start stop : Nat) : Except Stop (List UInt8) :=
  if start ≤ stop ∧ stop ≤ data.length then .ok ((data.drop start).take (stop - start)) else .error .outOfBounds

def at_ (data : List UInt8) (index : Nat) : Except Stop UInt8 :=
  match data[index]? with
  | some byte => .ok byte
  | none => .error .outOfBounds

end Checked

namespace Buffer
variable {size : Nat}

def empty : Buffer size := ⟨[], Nat.zero_le _⟩

def append (dst : Buffer size) (bytes : List UInt8) : Except Stop (Buffer size) :=
  if fits : (dst.written ++ bytes).length ≤ size then .ok ⟨dst.written ++ bytes, fits⟩ else .error .failed

/-- Copy a slice of the source, after the check that there is room for it. -/
def copy (dst : Buffer size) (src : List UInt8) (start len : Nat) : Except Stop (Buffer size) :=
  if dst.written.length + len > size then .error .failed
  else do dst.append (← slice src start (start + len))

/-- A return of 0 leaves nothing that is read. -/
def returned : Except Stop (Buffer size) → Except Stop (Buffer size)
  | .error .failed => .ok empty
  | outcome => outcome

end Buffer

def minMatch : Nat := 4
def maxOffset : Nat := 65535
def lastLiterals : Nat := 5
def minLength : Nat := 13

def read32 (data : List UInt8) (pos : Nat) : UInt32 :=
  if pos + 4 > data.length then 0
  else (data.getD pos 0).toUInt32 ||| (data.getD (pos + 1) 0).toUInt32 <<< 8 |||
    (data.getD (pos + 2) 0).toUInt32 <<< 16 ||| (data.getD (pos + 3) 0).toUInt32 <<< 24

def hash4 (data : List UInt8) (pos : Nat) : BitVec 12 :=
  if pos + 4 > data.length then 0
  else ((read32 data pos * 2654435761) >>> 20).toBitVec.setWidth 12

/-- How far two slices agree, up to a length. -/
def countMatch : List UInt8 → List UInt8 → Nat → Nat
  | a :: as, b :: bs, maxLen + 1 => if a = b then countMatch as bs maxLen + 1 else 0
  | _, _, _ => 0

section Writing
variable {size : Nat}

def writeExtraLength (dst : Buffer size) (length : Nat) : Except Stop (Buffer size) :=
  if length ≥ 255 then do writeExtraLength (← dst.append [255]) (length - 255)
  else dst.append [length.toUInt8]
termination_by length
decreasing_by omega

/-- The half of a token for a length. -/
def lengthToken (length : Nat) : UInt8 := if length ≥ 15 then 15 else length.toUInt8

def writeExtra (dst : Buffer size) (length : Nat) : Except Stop (Buffer size) :=
  if length ≥ 15 then writeExtraLength dst (length - 15) else .ok dst

def writeSequence (dst : Buffer size) (src : List UInt8) (anchor litLen offset matchLen : Nat) :
    Except Stop (Buffer size) := do
  let ml ← sub matchLen minMatch
  let dst ← dst.append [lengthToken litLen <<< 4 ||| lengthToken ml]
  let dst ← writeExtra dst litLen
  let dst ← dst.copy src anchor litLen
  let dst ← dst.append [(offset &&& 0xFF).toUInt8, (offset >>> 8 &&& 0xFF).toUInt8]
  writeExtra dst ml

def writeLastLiterals (dst : Buffer size) (src : List UInt8) (anchor litLen : Nat) : Except Stop (Buffer size) := do
  let dst ← dst.append [lengthToken litLen <<< 4]
  let dst ← writeExtra dst litLen
  dst.copy src anchor litLen

def writeLiteralOnly (src : List UInt8) (size : Nat) : Except Stop (Buffer size) :=
  writeLastLiterals .empty src 0 src.length

end Writing

/-- The positions that were last seen with a hash. -/
abbrev Table := BitVec 12 → UInt16

/-- A match at a position the table gives: its offset, and how far it goes beyond four bytes. -/
def findMatch (src : List UInt8) (srcPos matchPos : Nat) : Except Stop (Option (Nat × Nat)) :=
  if matchPos > 0 then do
    let offset ← sub srcPos matchPos
    if offset ≤ maxOffset ∧ read32 src matchPos = read32 src srcPos then
      let ahead ← slice src (srcPos + minMatch) src.length
      let behind ← slice src (matchPos + minMatch) src.length
      let left ← sub (← sub src.length srcPos) minMatch
      return some (offset, countMatch ahead behind left)
    else return none
  else return none

/-- The table after a match that ends at a position. -/
def refresh (src : List UInt8) (srcLimit : Nat) (table : Table) (srcPos : Nat) : Except Stop Table :=
  if srcPos > 1 ∧ srcPos < srcLimit then do
    let behind ← sub srcPos 2
    return Function.update table (hash4 src behind) (← castU16 behind)
  else return table

/-- The loop of `lz4_compress`: the start of the literals that are left, and what is written. -/
def compressLoop {size : Nat} (src : List UInt8) (srcLimit : Nat) (table : Table) (srcPos anchor : Nat)
    (dst : Buffer size) : Except Stop (Nat × Buffer size) :=
  if srcPos < srcLimit then do
    let h := hash4 src srcPos
    let matchPos := (table h).toNat
    let table := Function.update table h (← castU16 srcPos)
    match ← findMatch src srcPos matchPos with
    | some (offset, count) =>
      let litLen ← sub srcPos anchor
      let dst ← writeSequence dst src anchor litLen offset (minMatch + count)
      let table ← refresh src srcLimit table (srcPos + (minMatch + count))
      compressLoop src srcLimit table (srcPos + (minMatch + count)) (srcPos + (minMatch + count)) dst
    | none => compressLoop src srcLimit table (srcPos + 1) anchor dst
  else return (anchor, dst)
termination_by srcLimit - srcPos
decreasing_by
  · have := Nat.le_add_right minMatch count
    unfold minMatch at *
    omega
  · omega

def srcLimit (length : Nat) : Nat :=
  if length > lastLiterals + minMatch then length - lastLiterals - minMatch else 0

def lz4Compress (src : List UInt8) (size : Nat) : Except Stop (Buffer size) :=
  if src.length < minLength ∨ size = 0 then (writeLiteralOnly src size |> Buffer.returned)
  else Buffer.returned do
    let table := Function.update (fun _ => 0) (hash4 src 0) 0
    let (anchor, dst) ← compressLoop src (srcLimit src.length) table 1 0 Buffer.empty
    let remaining ← sub src.length anchor
    if remaining > 0 then writeLastLiterals dst src anchor remaining else return dst

def lz4CompressBound (inputLen : Nat) : Nat := inputLen + inputLen / 255 + 16

/-! The decompressor. A source is the bytes that are left of it. -/

def readExtra (len : Nat) : List UInt8 → Nat × List UInt8
  | [] => (len, [])
  | extra :: rest => if extra ≠ 255 then (len + extra.toNat, rest) else readExtra (len + extra.toNat) rest

/-- A length of a token, and what follows it. -/
def readLength (token : Nat) (rest : List UInt8) : Nat × List UInt8 :=
  if token = 15 then readExtra token rest else (token, rest)

theorem readExtra_rest (len : Nat) (rest : List UInt8) : (readExtra len rest).2.length ≤ rest.length := by
  induction rest generalizing len with
  | nil => exact Nat.le_refl _
  | cons extra rest ih =>
    rw [readExtra]
    split
    · exact Nat.le_succ _
    · exact Nat.le_trans (ih _) (Nat.le_succ _)

theorem readLength_rest (token : Nat) (rest : List UInt8) : (readLength token rest).2.length ≤ rest.length := by
  rw [readLength]
  split
  · exact readExtra_rest _ _
  · exact Nat.le_refl _

section Reading
variable {room : Nat}

def copyMatch (matchStart offset i matchLen : Nat) (dst : Buffer room) : Except Stop (Buffer room) :=
  if i < matchLen ∧ dst.written.length < room then do
    let byte ← at_ dst.written (matchStart + i % offset)
    copyMatch matchStart offset (i + 1) matchLen (← dst.append [byte])
  else return dst
termination_by matchLen - i

def decompressLoop (originalSize : Nat) (src : List UInt8) (dst : Buffer room) : Except Stop (Buffer room) :=
  match src with
  | [] => .ok dst
  | token :: rest =>
    if dst.written.length ≥ originalSize then .ok dst
    else
      let literal := readLength (token.toNat >>> 4) rest
      if literal.1 > literal.2.length ∨ dst.written.length + literal.1 > room then .error .failed
      else do
        let dst ← dst.append (literal.2.take literal.1)
        if (literal.2.drop literal.1).isEmpty ∨ dst.written.length ≥ originalSize then return dst
        else
          match _left : literal.2.drop literal.1 with
          | lo :: hi :: later =>
            let offset := lo.toNat ||| hi.toNat <<< 8
            if offset = 0 ∨ offset > dst.written.length then .error .failed
            else
              let matched := readLength (token.toNat &&& 0x0F) later
              let dst ← copyMatch (dst.written.length - offset) offset 0 (matched.1 + minMatch) dst
              decompressLoop originalSize matched.2 dst
          | _ => .error .failed
termination_by src.length
decreasing_by
  have skipped := congrArg List.length _left
  have read : literal.2.length ≤ rest.length := readLength_rest _ rest
  have matchedRead : matched.2.length ≤ later.length := readLength_rest _ later
  simp only [List.length_drop, List.length_cons] at skipped
  change matched.2.length < rest.length + 1
  omega

def lz4Decompress (src : List UInt8) (room originalSize : Nat) : Except Stop (Buffer room) :=
  Buffer.returned (decompressLoop originalSize src .empty)

end Reading

end Burble.Coprocessor.Compression

namespace Burble.Coprocessor.Compression

/-! The positions at which the compressor looks for a match, with a table of positions of any size. -/

section Search
variable (src : List UInt8)

/-- A match at an earlier position: its offset, and how far it goes beyond four bytes. -/
def matchAt (srcPos matchPos : Nat) : Option (Nat × Nat) :=
  if 0 < matchPos ∧ srcPos - matchPos ≤ maxOffset ∧ read32 src matchPos = read32 src srcPos then
    some (srcPos - matchPos, countMatch (src.drop (srcPos + minMatch)) (src.drop (matchPos + minMatch))
      (src.length - srcPos - minMatch))
  else none

/-- The table after a match that ends at a position. -/
def refreshed (limit : Nat) (seen : BitVec 12 → Nat) (next : Nat) : BitVec 12 → Nat :=
  if next < limit then Function.update seen (hash4 src (next - 2)) (next - 2) else seen

/-- The table with a position. -/
def noted (table : BitVec 12 → Nat) (srcPos : Nat) : BitVec 12 → Nat := Function.update table (hash4 src srcPos) srcPos

def searched (limit : Nat) (table : BitVec 12 → Nat) (srcPos : Nat) : List Nat :=
  if srcPos < limit then
    srcPos :: match matchAt src srcPos (table (hash4 src srcPos)) with
      | some (_, count) =>
        searched limit (refreshed src limit (noted src table srcPos) (srcPos + (minMatch + count)))
          (srcPos + (minMatch + count))
      | none => searched limit (noted src table srcPos) (srcPos + 1)
  else []
termination_by limit - srcPos
decreasing_by
  · have : 0 < minMatch := by decide
    omega
  · omega

def searchedPositions : List Nat := searched src (srcLimit src.length) (fun _ => 0) 1

end Search

/-! What a match says of the source. -/

section Words

theorem or_shift {low high width : Nat} (small : low < 2 ^ width) : low ||| high <<< width = low + high * 2 ^ width := by
  rw [Nat.or_comm, ← Nat.shiftLeft_add_eq_or_of_lt small, Nat.shiftLeft_eq, Nat.add_comm]

theorem shifted_toNat (byte : UInt8) {width : UInt32} (fits : width.toNat ≤ 24) :
    (byte.toUInt32 <<< width).toNat = byte.toNat <<< width.toNat := by
  have small := UInt8.toNat_lt byte
  have power : 2 ^ width.toNat ≤ 2 ^ 24 := Nat.pow_le_pow_right (by decide) fits
  have product : byte.toNat * 2 ^ width.toNat < 2 ^ 8 * 2 ^ 24 :=
    Nat.mul_lt_mul_of_lt_of_le small power (by decide)
  rw [UInt32.toNat_shiftLeft, Nat.mod_eq_of_lt (Nat.lt_of_le_of_lt fits (by decide)), UInt8.toNat_toUInt32,
    Nat.shiftLeft_eq]
  exact Nat.mod_eq_of_lt product

theorem word_toNat (a b c d : UInt8) :
    (a.toUInt32 ||| b.toUInt32 <<< 8 ||| c.toUInt32 <<< 16 ||| d.toUInt32 <<< 24).toNat =
      a.toNat + b.toNat * 2 ^ 8 + c.toNat * 2 ^ 16 + d.toNat * 2 ^ 24 := by
  have aSmall := UInt8.toNat_lt a
  have bSmall := UInt8.toNat_lt b
  have cSmall := UInt8.toNat_lt c
  have one : (b.toUInt32 <<< 8).toNat = b.toNat <<< 8 := shifted_toNat b (by decide)
  have two : (c.toUInt32 <<< 16).toNat = c.toNat <<< 16 := shifted_toNat c (by decide)
  have three : (d.toUInt32 <<< 24).toNat = d.toNat <<< 24 := shifted_toNat d (by decide)
  rw [UInt32.toNat_or, UInt32.toNat_or, UInt32.toNat_or, one, two, three, UInt8.toNat_toUInt32,
    or_shift (show a.toNat < 2 ^ 8 by omega),
    or_shift (show a.toNat + b.toNat * 2 ^ 8 < 2 ^ 16 by omega),
    or_shift (show a.toNat + b.toNat * 2 ^ 8 + c.toNat * 2 ^ 16 < 2 ^ 24 by omega)]

/-- Equal words are of equal bytes. -/
theorem read32_agrees {data : List UInt8} {a b : Nat} (fits : a + 4 ≤ data.length) (fits' : b + 4 ≤ data.length)
    (same : read32 data a = read32 data b) : ∀ i < 4, data.getD (a + i) default = data.getD (b + i) default := by
  have equal := congrArg UInt32.toNat same
  rw [read32, read32, if_neg (by omega), if_neg (by omega), word_toNat, word_toNat] at equal
  have small (k : Nat) : (data.getD k 0).toNat < 256 := UInt8.toNat_lt _
  have bounds := And.intro (And.intro (small a) (small (a + 1))) (And.intro (small (a + 2)) (small b))
  have others := And.intro (small (b + 1)) (small (b + 2))
  intro i inside
  apply UInt8.toNat_inj.mp
  change (data.getD (a + i) 0).toNat = (data.getD (b + i) 0).toNat
  match i, inside with
  | 0, _ => rw [Nat.add_zero, Nat.add_zero]; omega
  | 1, _ => omega
  | 2, _ => omega
  | 3, _ => omega

end Words

section Matches
variable {src : List UInt8} {srcPos matchPos : Nat}

theorem countMatch_le (as bs : List UInt8) (maxLen : Nat) : countMatch as bs maxLen ≤ maxLen := by
  fun_induction countMatch as bs maxLen with
  | case1 a as bs maxLen ih => exact Nat.succ_le_succ ih
  | case2 => exact Nat.zero_le _
  | case3 => exact Nat.zero_le _

theorem countMatch_agrees (as bs : List UInt8) (maxLen : Nat) :
    ∀ i < countMatch as bs maxLen, as.getD i default = bs.getD i default := by
  fun_induction countMatch as bs maxLen with
  | case1 a as bs maxLen ih =>
    intro i inside
    cases i with
    | zero => rfl
    | succ i =>
      rw [List.getD_cons_succ, List.getD_cons_succ]
      exact ih i (Nat.lt_of_succ_lt_succ inside)
  | case2 => exact fun i inside => absurd inside (Nat.not_lt_zero i)
  | case3 => exact fun i inside => absurd inside (Nat.not_lt_zero i)

theorem getD_drop (data : List UInt8) (n i : Nat) : (data.drop n).getD i default = data.getD (n + i) default := by
  rw [List.getD_eq_getElem?_getD, List.getD_eq_getElem?_getD, List.getElem?_drop]

/-- A match is the same bytes an offset back. -/
structure MatchFound (src : List UInt8) (srcPos offset matchLen : Nat) : Prop where
  far : 0 < offset
  near : offset ≤ maxOffset
  reaches : offset ≤ srcPos
  fits : srcPos + matchLen ≤ src.length
  agrees : ∀ i < matchLen, src.getD (srcPos + i) default = src.getD (srcPos - offset + i) default

theorem matchAt_found (before : matchPos < srcPos) (room : srcPos + minMatch ≤ src.length) {offset count : Nat}
    (found : matchAt src srcPos matchPos = some (offset, count)) :
    MatchFound src srcPos offset (minMatch + count) := by
  unfold matchAt at found
  split at found
  next valid =>
    obtain ⟨some, near, word⟩ := valid
    cases found
    have room' : srcPos + 4 ≤ src.length := room
    have limit := countMatch_le (src.drop (srcPos + minMatch)) (src.drop (matchPos + minMatch))
      (src.length - srcPos - minMatch)
    refine ⟨by omega, near, Nat.sub_le _ _, by omega, fun i inside => ?_⟩
    have back : srcPos - (srcPos - matchPos) = matchPos := by omega
    rw [back]
    by_cases early : i < minMatch
    · exact (read32_agrees (by omega) room' word i early).symm
    · have later := countMatch_agrees (src.drop (srcPos + minMatch)) (src.drop (matchPos + minMatch))
        (src.length - srcPos - minMatch) (i - minMatch) (by omega)
      have here : srcPos + minMatch + (i - minMatch) = srcPos + i := by omega
      have there : matchPos + minMatch + (i - minMatch) = matchPos + i := by omega
      rwa [getD_drop, getD_drop, here, there] at later
  next => cases found

theorem findMatch_eq (before : matchPos < srcPos) (room : srcPos + minMatch ≤ src.length) :
    findMatch src srcPos matchPos = .ok (matchAt src srcPos matchPos) := by
  have offset : sub srcPos matchPos = .ok (srcPos - matchPos) := if_pos (Nat.le_of_lt before)
  have left : sub src.length srcPos = .ok (src.length - srcPos) := if_pos (by omega)
  have left' : sub (src.length - srcPos) minMatch = .ok (src.length - srcPos - minMatch) := if_pos (by omega)
  have sliced (start : Nat) (inside : start ≤ src.length) : slice src start src.length = .ok (src.drop start) := by
    rw [slice, if_pos ⟨inside, Nat.le_refl _⟩, List.take_of_length_le (Nat.le_of_eq List.length_drop)]
  rw [findMatch, matchAt]
  by_cases some : 0 < matchPos
  · rw [if_pos some, offset, sliced _ room, sliced _ (by omega), left]
    simp only [bind, Except.bind, left', some, true_and]
    split <;> rfl
  · rw [if_neg some, if_neg fun valid => some valid.1]
    rfl

end Matches

end Burble.Coprocessor.Compression
