import Burble.Coprocessor.AudioArchive
import Burble.Coprocessor.Lz4
import Mathlib.Data.Rat.Floor
import Mathlib.Algebra.Order.Field.Rat

namespace Burble.Coprocessor

/-- A step from one sample to the next that fits into sixteen bits. -/
def Near (prev sample : Int) : Prop := -32768 ≤ sample - prev ∧ sample - prev ≤ 32767

section Deltas

theorem bmod_eq_iff (delta : Int) : delta.bmod 65536 = delta ↔ -32768 ≤ delta ∧ delta ≤ 32767 := by
  rw [Int.bmod_def]
  split <;> omega

theorem bmod_bounds (delta : Int) : -32768 ≤ delta.bmod 65536 ∧ delta.bmod 65536 ≤ 32767 := by
  rw [Int.bmod_def]
  split <;> omega

/-- A difference comes back as far as sixteen bits hold it. -/
theorem deltasOf_signed16 (delta : Int) (rest : List UInt8) :
    deltasOf (signed16 delta ++ rest) = delta.bmod 65536 :: deltasOf rest := by
  have small : (delta % 65536).toNat < 256 ^ 2 := by omega
  have bytes : signed16 delta = [((delta % 65536).toNat / 256).toUInt8, (delta % 65536).toNat.toUInt8] := by
    simp [signed16, bigEndian, littleEndian]
  have value := ofBigEndian_of_lt small
  rw [signed16] at bytes
  rw [bytes] at value
  rw [signed16, bytes, List.cons_append, List.cons_append, List.nil_append, deltasOf, ofSigned16, value, Int.bmod_def]
  split <;> split <;> congr 1 <;> omega

theorem deltasOf_flatMap (deltas : List Int) :
    deltasOf (deltas.flatMap signed16) = deltas.map fun delta => delta.bmod 65536 := by
  induction deltas with
  | nil => rfl
  | cons delta rest ih => rw [List.flatMap_cons, deltasOf_signed16, ih, List.map_cons]

theorem samplesFrom_iff (prev : Int) (rest : List Int) :
    samplesFrom prev ((deltasFrom prev rest).map fun delta => delta.bmod 65536) = rest ↔
      (prev :: rest).IsChain Near := by
  induction rest generalizing prev with
  | nil => simp [deltasFrom, samplesFrom]
  | cons sample rest ih =>
    rw [deltasFrom, List.map_cons, samplesFrom, List.cons_eq_cons, List.isChain_cons_cons, ← ih sample, Near,
      ← bmod_eq_iff]
    constructor
    · rintro ⟨now, later⟩
      rw [now] at later
      exact ⟨by omega, later⟩
    · rintro ⟨now, later⟩
      have same : prev + (sample - prev).bmod 65536 = sample := by omega
      exact ⟨same, by rw [same]; exact later⟩

/-- Samples of sixteen bits come back if and only if every step between them fits into sixteen. -/
theorem deltaDecode_iff (samples : List Int) (bounded : ∀ sample ∈ samples, -32768 ≤ sample ∧ sample ≤ 32767) :
    deltaDecode ((deltaEncode samples).map fun delta => delta.bmod 65536) = samples ↔ samples.IsChain Near := by
  cases samples with
  | nil => simp [deltaEncode, deltaDecode]
  | cons first rest =>
    have fits := (bmod_eq_iff first).mpr (bounded first List.mem_cons_self)
    rw [deltaEncode, List.map_cons, deltaDecode, fits, List.cons_eq_cons, and_iff_right rfl]
    exact samplesFrom_iff first rest

theorem samplesFrom_bounds (deltas : List Int) (small : ∀ delta ∈ deltas, -32768 ≤ delta ∧ delta ≤ 32767)
    (prev : Int) :
    ∀ sample ∈ samplesFrom prev deltas, sample.natAbs ≤ prev.natAbs + 32768 * deltas.length := by
  induction deltas generalizing prev with
  | nil => simp [samplesFrom]
  | cons delta rest ih =>
    have now := small delta List.mem_cons_self
    have later := ih (fun other member => small other (List.mem_cons_of_mem _ member)) (prev + delta)
    intro sample member
    rw [List.length_cons]
    rcases List.mem_cons.mp member with rfl | among
    · omega
    · have bound := later sample among
      omega

theorem deltaDecode_bounds (deltas : List Int) (small : ∀ delta ∈ deltas, -32768 ≤ delta ∧ delta ≤ 32767) :
    ∀ sample ∈ deltaDecode deltas, sample.natAbs ≤ 32768 * deltas.length := by
  cases deltas with
  | nil => simp [deltaDecode]
  | cons first rest =>
    have now := small first List.mem_cons_self
    have later := samplesFrom_bounds rest (fun delta member => small delta (List.mem_cons_of_mem _ member)) first
    intro sample member
    rw [List.length_cons]
    rcases List.mem_cons.mp member with rfl | among
    · omega
    · have bound := later sample among
      omega

@[simp] theorem deltasFrom_length (prev : Int) (samples : List Int) :
    (deltasFrom prev samples).length = samples.length := by
  induction samples generalizing prev with
  | nil => rfl
  | cons sample rest ih => rw [deltasFrom, List.length_cons, ih, List.length_cons]

@[simp] theorem deltaEncode_length (samples : List Int) : (deltaEncode samples).length = samples.length := by
  cases samples with
  | nil => rfl
  | cons first rest => rw [deltaEncode, List.length_cons, deltasFrom_length, List.length_cons]

end Deltas

section Layout
variable {Entry : Type} {write : Entry → List UInt8}

/-- Entries that are written one after the other, around one of them. -/
theorem flatMap_around {entries : List Entry} {i : Nat} {entry : Entry} (here : entries[i]? = some entry) :
    entries.flatMap write =
      (entries.take i).flatMap write ++ write entry ++ (entries.drop (i + 1)).flatMap write := by
  obtain ⟨among, rfl⟩ := List.getElem?_eq_some_iff.mp here
  rw [List.append_assoc, ← List.flatMap_cons, ← List.drop_eq_getElem_cons among, ← List.flatMap_append,
    List.take_append_drop]

theorem flatMap_fixed_length {width : Nat} (fixed : ∀ entry, (write entry).length = width) (entries : List Entry) :
    (entries.flatMap write).length = entries.length * width := by
  induction entries with
  | nil => simp
  | cons entry rest ih =>
    rw [List.flatMap_cons, List.length_append, ih, fixed, List.length_cons, Nat.succ_mul, Nat.add_comm]

theorem binarySlice_around (before piece after : List UInt8) :
    binarySlice (before ++ piece ++ after) before.length piece.length = .ok (piece, after) := by
  rw [binarySlice, if_pos (by simp only [List.length_append]; omega), Int.toNat_natCast,
    List.append_assoc, List.drop_left, List.take_left, ← List.append_assoc, ← List.length_append, List.drop_left]

theorem binarySlice_first (piece after : List UInt8) :
    binarySlice (piece ++ after) 0 piece.length = .ok (piece, after) := binarySlice_around [] piece after

/-- Entries of one width are found by their index. -/
theorem binarySlice_fixed {width : Nat} (fixed : ∀ entry, (write entry).length = width) {entries : List Entry}
    {i : Nat} {entry : Entry} (here : entries[i]? = some entry) :
    ∃ after, binarySlice (entries.flatMap write) (i * width : Nat) width = .ok (write entry, after) := by
  have among : i < entries.length := (List.getElem?_eq_some_iff.mp here).choose
  have slice := binarySlice_around ((entries.take i).flatMap write) (write entry)
    ((entries.drop (i + 1)).flatMap write)
  rw [← flatMap_around here, fixed, flatMap_fixed_length fixed, List.length_take, Nat.min_eq_left (Nat.le_of_lt among)]
    at slice
  exact ⟨_, slice⟩

end Layout

section Archive
variable {Sample : Type} (arith : Arithmetic Sample)

@[simp] theorem compressFrames_length (frames : List (List Sample)) (offset : Nat) :
    (compressFrames arith frames offset).length = frames.length := by
  induction frames generalizing offset with
  | nil => rfl
  | cons pcm rest ih => rw [compressFrames, List.length_cons, ih, List.length_cons]

theorem compressFrames_entries (frames : List (List Sample)) (offset : Nat) :
    (compressFrames arith frames offset).flatMap (fun entry => entry.1) = frames.flatMap (frameEntry arith) := by
  induction frames generalizing offset with
  | nil => rfl
  | cons pcm rest ih => rw [compressFrames, List.flatMap_cons, ih, List.flatMap_cons]

/-- A frame stands behind the entries of the frames before it. -/
theorem compressFrames_at (frames : List (List Sample)) (offset : Nat) {i : Nat} {pcm : List Sample}
    (here : frames[i]? = some pcm) :
    (compressFrames arith frames offset)[i]? =
      some (frameEntry arith pcm, offset + ((frames.take i).flatMap (frameEntry arith)).length) := by
  induction frames generalizing offset i with
  | nil => cases here
  | cons first rest ih =>
    cases i with
    | zero =>
      cases here
      rfl
    | succ i =>
      rw [compressFrames, List.getElem?_cons_succ, ih _ here, List.take_succ_cons, List.flatMap_cons,
        List.length_append, Nat.add_assoc]

theorem deltaBin_length (pcm : List Sample) : (deltaBin arith pcm).length = pcm.length * 2 := by
  rw [deltaBin, flatMap_fixed_length (fun delta => by rw [signed16, bigEndian_length]), deltaEncode_length,
    List.length_map]

/-- The samples of a frame from differences of sixteen bits. -/
def decoded (pcm : List Sample) : List Int :=
  deltaDecode ((deltaEncode (pcm.map arith.quantise)).map fun delta => delta.bmod 65536)

/-- The block of a frame is decompressed if and only if the frame has at most eight samples. -/
theorem decompressAt_entry (before after : List UInt8) (pcm : List Sample)
    (fits : (lz4Compress (deltaBin arith pcm)).length < 256 ^ 4) :
    decompressAt arith (before ++ frameEntry arith pcm ++ after) before.length =
      if pcm.length ≤ 8 then .ok ((decoded arith pcm).map arith.restore) else .error .decompressFailed := by
  have four : (littleEndian 4 (lz4Compress (deltaBin arith pcm)).length).length = 4 := littleEndian_length _ _
  have entry := binarySlice_around before (littleEndian 4 (lz4Compress (deltaBin arith pcm)).length)
    (lz4Compress (deltaBin arith pcm) ++ after)
  rw [four] at entry
  have frame : before ++ frameEntry arith pcm ++ after =
      before ++ littleEndian 4 (lz4Compress (deltaBin arith pcm)).length ++
        (lz4Compress (deltaBin arith pcm) ++ after) := by
    simp only [frameEntry, List.append_assoc]
  rw [frame, decompressAt, entry]
  dsimp only [bind, Except.bind]
  rw [ofLittleEndian_of_lt fits, binarySlice_first]
  dsimp only [decompressLz4]
  by_cases short : pcm.length ≤ 8
  · have few : (deltaBin arith pcm).length ≤ 16 := by
      rw [deltaBin_length]
      omega
    rw [decompress_short few, if_pos short]
    dsimp only
    rw [deltaBin, deltasOf_flatMap]
    rfl
  · have many : 16 < (deltaBin arith pcm).length := by
      rw [deltaBin_length]
      omega
    rw [decompress_long many, if_neg short]

def offsetTable (frames : List (List Sample)) : List UInt8 :=
  (compressFrames arith frames 0).flatMap fun entry => littleEndian 4 (entry.2 + archiveHeaderSize frames.length)

theorem offsetTable_length (frames : List (List Sample)) : (offsetTable arith frames).length = frames.length * 4 := by
  rw [offsetTable, flatMap_fixed_length fun _ => littleEndian_length 4 _, compressFrames_length]

theorem offsetTable_at (frames : List (List Sample)) {i : Nat} {pcm : List Sample} (here : frames[i]? = some pcm) :
    ∃ after, binarySlice (offsetTable arith frames) (i * 4 : Nat) 4 =
      .ok (littleEndian 4
        (((frames.take i).flatMap (frameEntry arith)).length + archiveHeaderSize frames.length), after) := by
  have entry := compressFrames_at arith frames 0 here
  rw [Nat.zero_add] at entry
  exact binarySlice_fixed (fun _ => littleEndian_length 4 _) entry

theorem archive_parts (frames : List (List Sample)) (sampleRate channels : Nat) :
    (compressAudioArchive arith frames sampleRate channels).take 5 = archiveMagic ++ [archiveVersion] ∧
      ((compressAudioArchive arith frames sampleRate channels).drop 10).take 4 = littleEndian 4 frames.length ∧
      (compressAudioArchive arith frames sampleRate channels).drop 14 =
        offsetTable arith frames ++ frames.flatMap (frameEntry arith) := by
  refine ⟨rfl, rfl, ?_⟩
  rw [← compressFrames_entries arith frames 0]
  rfl

theorem archive_length (frames : List (List Sample)) (sampleRate channels : Nat) :
    (compressAudioArchive arith frames sampleRate channels).length =
      archiveHeaderSize frames.length + (frames.flatMap (frameEntry arith)).length := by
  obtain ⟨_, _, body⟩ := archive_parts arith frames sampleRate channels
  have whole := congrArg List.length (List.take_append_drop 14 (compressAudioArchive arith frames sampleRate channels))
  rw [body, List.length_append, List.length_append, offsetTable_length] at whole
  rw [← whole, archiveHeaderSize, ← Nat.add_assoc]
  rfl

/-- Beyond the frames there is none. -/
theorem decompress_beyond (frames : List (List Sample)) (sampleRate channels i : Nat)
    (fits : frames.length < 256 ^ 4) (beyond : frames.length ≤ i) :
    decompressAudioFrame arith (compressAudioArchive arith frames sampleRate channels) i = .error .invalidIndex := by
  obtain ⟨_, count, _⟩ := archive_parts arith frames sampleRate channels
  rw [decompressAudioFrame, count, ofLittleEndian_of_lt fits]
  exact if_neg fun inside => by omega

/-- A frame of an archive that is below the limit is read from its own entry. -/
theorem decompress_entry (frames : List (List Sample)) (sampleRate channels : Nat) {i : Nat} {pcm : List Sample}
    (fits : (compressAudioArchive arith frames sampleRate channels).length < 2 ^ 32) (here : frames[i]? = some pcm) :
    decompressAudioFrame arith (compressAudioArchive arith frames sampleRate channels) i =
      if pcm.length ≤ 8 then .ok ((decoded arith pcm).map arith.restore) else .error .decompressFailed := by
  have among : i < frames.length := (List.getElem?_eq_some_iff.mp here).choose
  have around : frames.flatMap (frameEntry arith) = _ := flatMap_around here
  have size := archive_length arith frames sampleRate channels
  have data := congrArg List.length around
  rw [List.length_append, List.length_append] at data
  have entry : (frameEntry arith pcm).length = 4 + (lz4Compress (deltaBin arith pcm)).length := by
    rw [frameEntry, List.length_append, littleEndian_length]
  have header : archiveHeaderSize frames.length = 14 + frames.length * 4 := rfl
  obtain ⟨magic, count, body⟩ := archive_parts arith frames sampleRate channels
  have counted : ofLittleEndian (littleEndian 4 frames.length) = frames.length := ofLittleEndian_of_lt (by omega)
  have table : binarySlice (offsetTable arith frames ++ frames.flatMap (frameEntry arith)) 0 (frames.length * 4) =
      .ok (offsetTable arith frames, frames.flatMap (frameEntry arith)) := by
    rw [← offsetTable_length arith frames]
    exact binarySlice_first _ _
  obtain ⟨after, offset⟩ := offsetTable_at arith frames here
  rw [decompressAudioFrame, count, counted, body, if_pos ⟨by omega, magic, among⟩]
  dsimp only [bind, Except.bind]
  rw [table]
  dsimp only
  rw [offset]
  dsimp only
  have relative : (ofLittleEndian (littleEndian 4 (((frames.take i).flatMap (frameEntry arith)).length +
      archiveHeaderSize frames.length)) - (4 + 1 + 4 + 1 + 4 + frames.length * 4 : Nat) : Int) =
      ((frames.take i).flatMap (frameEntry arith)).length := by
    rw [ofLittleEndian_of_lt (by omega)]
    omega
  rw [relative, around]
  exact decompressAt_entry arith _ _ pcm (by omega)

theorem restore_map (lawful : arith.Lawful) {values others : List Int} (small : ∀ value ∈ values, value.natAbs < 2 ^ 31)
    (small' : ∀ other ∈ others, other.natAbs < 2 ^ 31)
    (same : values.map arith.restore = others.map arith.restore) : values = others := by
  induction values generalizing others with
  | nil => exact (List.map_eq_nil_iff.mp same.symm).symm
  | cons value rest ih =>
    cases others with
    | nil => cases same
    | cons other rest' =>
      rw [List.map_cons, List.map_cons, List.cons_eq_cons] at same
      rw [List.forall_mem_cons] at small small'
      rw [lawful.exact value other small.1 small'.1 same.1, ih small.2 small'.2 same.2]

/-- Samples come back if and only if the steps between the quantised ones fit into sixteen bits. -/
theorem decoded_iff (lawful : arith.Lawful) {pcm : List Sample} (short : pcm.length ≤ 8) :
    (decoded arith pcm).map arith.restore = pcm.map (fun sample => arith.restore (arith.quantise sample)) ↔
      (pcm.map arith.quantise).IsChain Near := by
  have quantised : ∀ value ∈ pcm.map arith.quantise, -32767 ≤ value ∧ value ≤ 32767 := by
    intro value member
    obtain ⟨sample, _, rfl⟩ := List.mem_map.mp member
    exact lawful.bounded sample
  have near : ∀ value ∈ decoded arith pcm, value.natAbs < 2 ^ 31 := by
    intro value member
    have bound := deltaDecode_bounds _ (fun delta among => by
      obtain ⟨wide, _, rfl⟩ := List.mem_map.mp among
      exact bmod_bounds wide) value member
    rw [List.length_map, deltaEncode_length, List.length_map] at bound
    omega
  have restored : pcm.map (fun sample => arith.restore (arith.quantise sample)) =
      (pcm.map arith.quantise).map arith.restore := by
    rw [List.map_map]
    rfl
  rw [← deltaDecode_iff (pcm.map arith.quantise) fun value member => by have := quantised value member; omega,
    restored, ← decoded]
  constructor
  · exact restore_map arith lawful near fun value member => by
      have := quantised value member
      omega
  · intro same
    rw [same]

/-- A frame of an archive comes back as it was quantised if and only if it has at most eight samples and steps
that fit into sixteen bits, and there are no others. -/
theorem archive_frames_iff (lawful : arith.Lawful) (frames : List (List Sample)) (sampleRate channels : Nat)
    (fits : (compressAudioArchive arith frames sampleRate channels).length < 2 ^ 32) :
    (∀ i pcm, frames[i]? = some pcm →
      (decompressAudioFrame arith (compressAudioArchive arith frames sampleRate channels) i =
          .ok (pcm.map fun sample => arith.restore (arith.quantise sample)) ↔
        pcm.length ≤ 8 ∧ (pcm.map arith.quantise).IsChain Near)) ∧
      ∀ i, frames.length ≤ i →
        decompressAudioFrame arith (compressAudioArchive arith frames sampleRate channels) i = .error .invalidIndex := by
  constructor
  · intro i pcm here
    rw [decompress_entry arith frames sampleRate channels fits here]
    by_cases short : pcm.length ≤ 8
    · rw [if_pos short, ← decoded_iff arith lawful short, and_iff_right short]
      exact ⟨Except.ok.inj, fun same => by rw [same]⟩
    · rw [if_neg short]
      exact ⟨fun same => (by cases same), fun bound => absurd bound.1 short⟩
  · intro i beyond
    have size := archive_length arith frames sampleRate channels
    rw [archiveHeaderSize] at size
    exact decompress_beyond arith frames sampleRate channels i (by omega) beyond

end Archive

/-- Rationals for the floats. -/
def rationals : Arithmetic Rat where
  minusOne := -1
  one := 1
  fullScale := 32767
  max left right := if left < right then right else left
  min left right := if right < left then right else left
  mul left right := left * right
  trunc sample := if 0 ≤ sample then sample.floor else sample.ceil
  divide value scale := value / scale

theorem rationals_lawful : rationals.Lawful where
  bounded sample := by
    have clamped : -32767 ≤ rationals.mul (rationals.max rationals.minusOne (rationals.min rationals.one sample))
        rationals.fullScale ∧
        rationals.mul (rationals.max rationals.minusOne (rationals.min rationals.one sample))
          rationals.fullScale ≤ 32767 := by
      simp only [rationals]
      constructor <;> split_ifs <;> linarith
    rw [Arithmetic.quantise]
    generalize rationals.mul _ _ = scaled at clamped
    simp only [rationals]
    split_ifs
    · exact ⟨Rat.le_floor_iff.mpr (by exact_mod_cast clamped.1), by exact_mod_cast (Rat.floor_le scaled).trans clamped.2⟩
    · exact ⟨by exact_mod_cast clamped.1.trans Rat.le_ceil, Rat.ceil_le_iff.mpr (by exact_mod_cast clamped.2)⟩
  exact value other _ _ same := by
    have scaled : (value : Rat) / 32767 = other / 32767 := same
    have cast : (value : Rat) = other := by linarith
    exact_mod_cast cast

/-- A frame with one step over the whole scale is read wrong, and one of nine zeros not at all. -/
theorem full_step_wrong :
    (compressAudioArchive rationals [[1, -1]] 48000 1).length < 2 ^ 32 ∧
      decompressAudioFrame rationals (compressAudioArchive rationals [[1, -1]] 48000 1) 0 = .ok [1, 32769 / 32767] ∧
      (compressAudioArchive rationals [List.replicate 9 0] 48000 1).length < 2 ^ 32 ∧
      decompressAudioFrame rationals (compressAudioArchive rationals [List.replicate 9 0] 48000 1) 0 =
        .error .decompressFailed := by
  have step : decompressAudioFrame rationals (compressAudioArchive rationals [[1, -1]] 48000 1) 0 = _ :=
    decompress_entry rationals _ _ _ (by decide +kernel) rfl
  have nine : decompressAudioFrame rationals (compressAudioArchive rationals [List.replicate 9 0] 48000 1) 0 = _ :=
    decompress_entry rationals _ _ _ (by decide +kernel) rfl
  rw [step, nine]
  exact ⟨by decide +kernel, by decide +kernel, by decide +kernel, by decide +kernel⟩

/-- A frame with a small step comes back also from behind such a one. -/
theorem half_step_back :
    decompressAudioFrame rationals (compressAudioArchive rationals [[1, -1], [0, 1]] 48000 1) 1 =
        .ok ([0, 1].map fun sample => rationals.restore (rationals.quantise sample)) ∧
      decompressAudioFrame rationals (compressAudioArchive rationals [[1, -1], [0, 1]] 48000 1) 2 =
        .error .invalidIndex := by
  obtain ⟨frame, beyond⟩ := archive_frames_iff rationals rationals_lawful [[1, -1], [0, 1]] 48000 1 (by decide +kernel)
  have near : Near (rationals.quantise 0) (rationals.quantise 1) := ⟨by decide +kernel, by decide +kernel⟩
  have steps : ([0, 1].map rationals.quantise).IsChain Near := List.isChain_cons_cons.mpr ⟨near, by simp⟩
  exact ⟨(frame 1 [0, 1] rfl).mpr ⟨by decide, steps⟩, beyond 2 (by decide)⟩

end Burble.Coprocessor
