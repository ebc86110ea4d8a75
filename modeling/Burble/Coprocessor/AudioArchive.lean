import Burble.Coprocessor.Lz4

namespace Burble.Coprocessor

/-- The arithmetic of the samples, which are floats, with the constants that are used. -/
structure Arithmetic (Sample : Type) where
  minusOne : Sample
  one : Sample
  fullScale : Sample
  max : Sample → Sample → Sample
  min : Sample → Sample → Sample
  mul : Sample → Sample → Sample
  trunc : Sample → Int
  divide : Int → Sample → Sample

namespace Arithmetic
variable {Sample : Type} (arith : Arithmetic Sample)

/-- `trunc(max(-1.0, min(1.0, s)) * 32767.0)` -/
def quantise (sample : Sample) : Int :=
  arith.trunc (arith.mul (arith.max arith.minusOne (arith.min arith.one sample)) arith.fullScale)

/-- `s / 32767.0` -/
def restore (value : Int) : Sample := arith.divide value arith.fullScale

/-- A clamped sample is within full scale, and different integers stay different when they are divided by
it as long as they are far from the end of the exact ones. -/
structure Lawful : Prop where
  bounded : ∀ sample, -32767 ≤ arith.quantise sample ∧ arith.quantise sample ≤ 32767
  exact : ∀ value other : Int, value.natAbs < 2 ^ 31 → other.natAbs < 2 ^ 31 →
    arith.restore value = arith.restore other → value = other

end Arithmetic

/-- The differences of samples from the ones before them. -/
def deltasFrom : Int → List Int → List Int
  | _, [] => []
  | prev, sample :: rest => (sample - prev) :: deltasFrom sample rest

def deltaEncode : List Int → List Int
  | [] => []
  | first :: rest => first :: deltasFrom first rest

def samplesFrom : Int → List Int → List Int
  | _, [] => []
  | prev, delta :: rest => (prev + delta) :: samplesFrom (prev + delta) rest

def deltaDecode : List Int → List Int
  | [] => []
  | first :: deltas => first :: samplesFrom first deltas

/-- `<<d::signed-16>>` -/
def signed16 (value : Int) : List UInt8 := bigEndian 2 (value % 65536).toNat

def ofSigned16 (hi lo : UInt8) : Int :=
  let value := ofBigEndian [hi, lo]
  if value < 32768 then value else value - 65536

/-- Sixteen bits at a time, as long as there are any. -/
def deltasOf : List UInt8 → List Int
  | hi :: lo :: rest => ofSigned16 hi lo :: deltasOf rest
  | _ => []

def archiveMagic : List UInt8 := [66, 65, 82, 67]

def archiveVersion : UInt8 := 1

section Archive
variable {Sample : Type} (arith : Arithmetic Sample)

def deltaBin (pcm : List Sample) : List UInt8 := (deltaEncode (pcm.map arith.quantise)).flatMap signed16

def frameEntry (pcm : List Sample) : List UInt8 :=
  let compressed := lz4Compress (deltaBin arith pcm)
  littleEndian 4 compressed.length ++ compressed

/-- Each frame's entry with where it stands among them. -/
def compressFrames : List (List Sample) → Nat → List (List UInt8 × Nat)
  | [], _ => []
  | pcm :: rest, offset => (frameEntry arith pcm, offset) :: compressFrames rest (offset + (frameEntry arith pcm).length)

def archiveHeaderSize (frameCount : Nat) : Nat := 4 + 1 + 4 + 1 + 4 + frameCount * 4

def compressAudioArchive (frames : List (List Sample)) (sampleRate channels : Nat) : List UInt8 :=
  let compressedFrames := compressFrames arith frames 0
  let offsetTable := compressedFrames.flatMap fun entry => littleEndian 4 (entry.2 + archiveHeaderSize frames.length)
  let frameData := compressedFrames.flatMap fun entry => entry.1
  archiveMagic ++ [archiveVersion] ++ littleEndian 4 sampleRate ++ [channels.toUInt8] ++ littleEndian 4 frames.length ++
    offsetTable ++ frameData

/-- What comes of decompressing a frame. An archive that is not well formed raises. -/
inductive ArchiveError
  | invalidIndex
  | decompressFailed
  | raised
  deriving DecidableEq, Repr

/-- `<<_::binary-size(skip), bytes::binary-size(size), rest::binary>>` -/
def binarySlice (bytes : List UInt8) (skip : Int) (size : Nat) : Except ArchiveError (List UInt8 × List UInt8) :=
  if 0 ≤ skip ∧ skip + size ≤ bytes.length then
    .ok ((bytes.drop skip.toNat).take size, bytes.drop (skip.toNat + size))
  else .error .raised

/-- The frame at an offset, counted from the end of the offset table. -/
def decompressAt (framesData : List UInt8) (relOffset : Int) : Except ArchiveError (List Sample) := do
  let (frameLen, compressed) ← binarySlice framesData relOffset 4
  let (compressedData, _) ← binarySlice compressed 0 (ofLittleEndian frameLen)
  match decompressLz4 compressedData (960 * 2) with
  | .ok deltaBin => return (deltaDecode (deltasOf deltaBin)).map arith.restore
  | .error _ => .error .decompressFailed

def decompressAudioFrame (archive : List UInt8) (frameIndex : Nat) : Except ArchiveError (List Sample) :=
  let frameCount := ofLittleEndian ((archive.drop 10).take 4)
  if archive.length ≥ 14 ∧ archive.take 5 = archiveMagic ++ [archiveVersion] ∧ frameIndex < frameCount then do
    let offsetTableSize := frameCount * 4
    let (offsetTable, framesData) ← binarySlice (archive.drop 14) 0 offsetTableSize
    let (absOffset, _) ← binarySlice offsetTable (frameIndex * 4 : Nat) 4
    let headerSize := 4 + 1 + 4 + 1 + 4 + offsetTableSize
    decompressAt arith framesData (ofLittleEndian absOffset - headerSize : Int)
  else .error .invalidIndex

end Archive
end Burble.Coprocessor
