import Mathlib.Data.List.Dedup
import Burble.Recent
import Burble.Runs
import Burble.FiniteMap
import Burble.Coprocessor.LosslessFrames

namespace Burble.Media
open Coprocessor (Arithmetic compressAudioArchive decompressAudioFrame)

def maxFramesPerPeer : Nat := 100000

/-- What the header of a container says of the recording, as the JSON object there. -/
structure RecordingMetadata (Time : Type) where
  roomId : String
  sampleRate : Nat
  channels : Nat
  startedAt : Time
  totalFrames : Nat

/-- The recorder of a room. Each peer's frames are listed newest first. -/
structure Recorder (Sample Time : Type) where
  roomId : String
  sampleRate : Nat
  channels : Nat
  peerFrames : FiniteMap String (List (List Sample))
  totalFrames : Nat
  totalRawBytes : Nat
  totalCompressedBytes : Nat
  startedAt : Time

structure RecorderStatus where
  roomId : String
  peerCount : Nat
  totalFrames : Nat
  rawBytes : Nat
  sampleRate : Nat
  channels : Nat
  deriving DecidableEq, Repr

namespace Recorder
variable {Sample Time : Type}

def init (roomId : String) (sampleRate channels : Nat) (startedAt : Time) : Recorder Sample Time where
  roomId := roomId
  sampleRate := sampleRate
  channels := channels
  peerFrames := ∅
  totalFrames := 0
  totalRawBytes := 0
  totalCompressedBytes := 0
  startedAt := startedAt

def addFrame (state : Recorder Sample Time) (peerId : String) (pcmSamples : List Sample) : Recorder Sample Time :=
  let rawBytes := pcmSamples.length * 4
  let frames := (state.peerFrames.lookup peerId).getD []
  let frames := if frames.length ≥ maxFramesPerPeer then frames.dropLast else frames
  { state with
    peerFrames := state.peerFrames.insert peerId (pcmSamples :: frames)
    totalFrames := state.totalFrames + 1
    totalRawBytes := state.totalRawBytes + rawBytes }

def status (state : Recorder Sample Time) : RecorderStatus where
  roomId := state.roomId
  peerCount := state.peerFrames.size
  totalFrames := state.totalFrames
  rawBytes := state.totalRawBytes
  sampleRate := state.sampleRate
  channels := state.channels

/-- The archive of each peer, of its frames in the order they were added. -/
def peerArchives (arith : Arithmetic Sample) (state : Recorder Sample Time) : List (String × List UInt8) :=
  state.peerFrames.toList.map fun entry =>
    (entry.1, compressAudioArchive arith entry.2.reverse state.sampleRate state.channels)

def metadata (state : Recorder Sample Time) : RecordingMetadata Time :=
  ⟨state.roomId, state.sampleRate, state.channels, state.startedAt, state.totalFrames⟩

end Recorder

/-- `"BREC"` -/
def containerMagic : List UInt8 := [66, 82, 69, 67]

/-- One peer of a container. The sizes are cut to the widths of their fields. -/
def peerEntry (entry : String × List UInt8) : List UInt8 :=
  [(utf8 entry.1).length.toUInt8] ++ utf8 entry.1 ++ (littleEndian 4 entry.2.length ++ entry.2)

def buildContainer (metadata : List UInt8) (peerArchives : List (String × List UInt8)) : List UInt8 :=
  containerMagic ++ [1] ++ (littleEndian 2 metadata.length ++ (metadata ++
    (littleEndian 2 peerArchives.length ++ peerArchives.flatMap peerEntry)))

/-- `stop_and_finalize`, where metadata is encoded by `Jason`. -/
def Recorder.finalize {Sample Time : Type} (arith : Arithmetic Sample) (encode : RecordingMetadata Time → List UInt8)
    (state : Recorder Sample Time) : List UInt8 :=
  buildContainer (encode state.metadata) (state.peerArchives arith)

/-! The format of a container, read on its own. -/

section Reading

/-- So many bytes, if there are. -/
def takeBytes (count : Nat) (bytes : List UInt8) : Option (List UInt8 × List UInt8) :=
  if count ≤ bytes.length then some (bytes.take count, bytes.drop count) else none

/-- A size of some width, and as many bytes. -/
def takeSized (width : Nat) (bytes : List UInt8) : Option (List UInt8 × List UInt8) := do
  let (size, bytes) ← takeBytes width bytes
  takeBytes (ofLittleEndian size) bytes

def readEntry (bytes : List UInt8) : Option ((String × List UInt8) × List UInt8) := do
  let (peerId, bytes) ← takeSized 1 bytes
  let (archive, bytes) ← takeSized 4 bytes
  return ((← ofUtf8 peerId, archive), bytes)

def readEntries : Nat → List UInt8 → Option (List (String × List UInt8) × List UInt8)
  | 0, bytes => some ([], bytes)
  | count + 1, bytes => do
    let (entry, bytes) ← readEntry bytes
    let (entries, bytes) ← readEntries count bytes
    return (entry :: entries, bytes)

/-- The metadata and the peers' archives of a container, with nothing after them. -/
def readContainer (bytes : List UInt8) : Option (List UInt8 × List (String × List UInt8)) := do
  let (front, bytes) ← takeBytes 5 bytes
  if front = containerMagic ++ [1] then
    let (metadata, bytes) ← takeSized 2 bytes
    let (count, bytes) ← takeBytes 2 bytes
    let (entries, rest) ← readEntries (ofLittleEndian count) bytes
    if rest = [] then some (metadata, entries) else none
  else none

theorem takeBytes_append (first rest : List UInt8) : takeBytes first.length (first ++ rest) = some (first, rest) := by
  rw [takeBytes, if_pos (by rw [List.length_append]; omega), List.take_left, List.drop_left]

theorem takeSized_append {width : Nat} {sized : List UInt8} (fits : sized.length < 256 ^ width) (rest : List UInt8) :
    takeSized width (littleEndian width sized.length ++ (sized ++ rest)) = some (sized, rest) := by
  have size := takeBytes_append (littleEndian width sized.length) (sized ++ rest)
  rw [littleEndian_length] at size
  rw [takeSized, size]
  simp only [Option.bind_eq_bind, Option.bind_some]
  rw [ofLittleEndian_of_lt fits, takeBytes_append]

/-- An entry whose sizes fit. -/
def EntryFits (entry : String × List UInt8) : Prop := (utf8 entry.1).length < 256 ∧ entry.2.length < 2 ^ 32

theorem readEntry_append {entry : String × List UInt8} (fits : EntryFits entry) (rest : List UInt8) :
    readEntry (peerEntry entry ++ rest) = some (entry, rest) := by
  have written : peerEntry entry ++ rest = littleEndian 1 (utf8 entry.1).length ++ (utf8 entry.1 ++
      (littleEndian 4 entry.2.length ++ (entry.2 ++ rest))) := by
    simp only [peerEntry, littleEndian, List.append_assoc]
  rw [written, readEntry, takeSized_append (by simpa using fits.1)]
  simp only [Option.bind_eq_bind, Option.bind_some]
  rw [takeSized_append (show entry.2.length < 256 ^ 4 from fits.2)]
  simp only [Option.bind_some, ofUtf8_utf8]
  rfl

theorem readEntries_append {entries : List (String × List UInt8)} (fit : ∀ entry ∈ entries, EntryFits entry)
    (rest : List UInt8) : readEntries entries.length (entries.flatMap peerEntry ++ rest) = some (entries, rest) := by
  induction entries with
  | nil => rfl
  | cons entry entries ih =>
    obtain ⟨first, others⟩ := List.forall_mem_cons.mp fit
    rw [List.length_cons, readEntries, List.flatMap_cons, List.append_assoc, readEntry_append first]
    simp only [Option.bind_eq_bind, Option.bind_some]
    rw [ih others]
    rfl

/-- A container whose sizes fit is read as what it was built from. -/
theorem readContainer_buildContainer {metadata : List UInt8} {peerArchives : List (String × List UInt8)}
    (short : metadata.length < 2 ^ 16) (few : peerArchives.length < 2 ^ 16)
    (fit : ∀ entry ∈ peerArchives, EntryFits entry) :
    readContainer (buildContainer metadata peerArchives) = some (metadata, peerArchives) := by
  have front := takeBytes_append (containerMagic ++ [1]) (littleEndian 2 metadata.length ++ (metadata ++
    (littleEndian 2 peerArchives.length ++ peerArchives.flatMap peerEntry)))
  have count := takeBytes_append (littleEndian 2 peerArchives.length) (peerArchives.flatMap peerEntry)
  have entries := readEntries_append fit []
  have five : (containerMagic ++ [(1 : UInt8)]).length = 5 := rfl
  rw [five] at front
  rw [littleEndian_length] at count
  rw [List.append_nil] at entries
  rw [readContainer, buildContainer, front]
  simp only [Option.bind_eq_bind, Option.bind_some, if_true]
  rw [takeSized_append (show metadata.length < 256 ^ 2 from short)]
  simp only [Option.bind_some]
  rw [count]
  simp only [Option.bind_some]
  rw [ofLittleEndian_of_lt (show peerArchives.length < 256 ^ 2 from few), entries]
  simp only [Option.bind_some, if_true]

end Reading

/-! What a recording keeps of the frames that were added. -/

section Recording
variable {Sample Time : Type}

/-- The frames of a peer among all that were added, in their order. -/
def framesOf (peerId : String) (added : List (String × List Sample)) : List (List Sample) :=
  (added.filter fun frame => frame.1 = peerId).map Prod.snd

theorem framesOf_snoc (peerId : String) (added : List (String × List Sample)) (frame : String × List Sample) :
    framesOf peerId (added ++ [frame]) =
      if frame.1 = peerId then framesOf peerId added ++ [frame.2] else framesOf peerId added := by
  rw [framesOf, List.filter_append, List.map_append, ← framesOf]
  split
  next same => rw [List.filter_singleton, decide_eq_true same]; rfl
  next other => rw [List.filter_singleton, decide_eq_false other]; exact List.append_nil _

theorem framesOf_eq_nil {peerId : String} {added : List (String × List Sample)} :
    framesOf peerId added = [] ↔ peerId ∉ added.map Prod.fst := by
  simp only [framesOf, List.map_eq_nil_iff, List.filter_eq_nil_iff, decide_eq_true_eq, List.mem_map, not_exists, not_and]

/-- The recorder after these casts. -/
def recorded (start : Recorder Sample Time) (added : List (String × List Sample)) : Recorder Sample Time :=
  added.foldl (fun state frame => state.addFrame frame.1 frame.2) start

/-- Of each peer that has added frames the newest ones are kept, newest first. -/
structure Keeps (added : List (String × List Sample)) (start state : Recorder Sample Time) : Prop where
  roomId : state.roomId = start.roomId
  sampleRate : state.sampleRate = start.sampleRate
  channels : state.channels = start.channels
  startedAt : state.startedAt = start.startedAt
  total : state.totalFrames = start.totalFrames + added.length
  raw : state.totalRawBytes = start.totalRawBytes + (added.map fun frame => frame.2.length * 4).sum
  frames : ∀ peerId, state.peerFrames.lookup peerId =
    if framesOf peerId added = [] then none else some (recent maxFramesPerPeer (framesOf peerId added)).reverse

theorem Keeps.addFrame {added : List (String × List Sample)} {start state : Recorder Sample Time}
    (keeps : Keeps added start state) (frame : String × List Sample) :
    Keeps (added ++ [frame]) start (state.addFrame frame.1 frame.2) where
  roomId := keeps.roomId
  sampleRate := keeps.sampleRate
  channels := keeps.channels
  startedAt := keeps.startedAt
  total := by
    rw [List.length_append, List.length_singleton, ← Nat.add_assoc, ← keeps.total]
    rfl
  raw := by
    rw [List.map_append, List.sum_append, List.map_singleton, List.sum_singleton, ← Nat.add_assoc, ← keeps.raw]
    rfl
  frames peerId := by
    have before := keeps.frames frame.1
    have kept : (state.peerFrames.lookup frame.1).getD [] =
        (recent maxFramesPerPeer (framesOf frame.1 added)).reverse := by
      rw [before]
      split
      next none => rw [none, recent_nil, Option.getD_none, List.reverse_nil]
      next => rw [Option.getD_some]
    rw [framesOf_snoc]
    simp only [Recorder.addFrame, FiniteMap.lookup_insert_if, kept]
    by_cases same : frame.1 = peerId
    · subst same
      rw [if_pos rfl, if_pos rfl, if_neg (List.append_ne_nil_of_right_ne_nil _ (List.cons_ne_nil _ _)),
        reverse_recent_snoc (by decide), List.length_reverse]
    · rw [if_neg fun back => same back.symm, if_neg same]
      exact keeps.frames peerId

theorem recorded_keeps (roomId : String) (sampleRate channels : Nat) (startedAt : Time)
    (added : List (String × List Sample)) :
    Keeps added (.init roomId sampleRate channels startedAt)
      (recorded (.init roomId sampleRate channels startedAt) added) := by
  induction added using List.reverseRecOn with
  | nil =>
    refine ⟨rfl, rfl, rfl, rfl, rfl, rfl, fun peerId => ?_⟩
    have none : framesOf peerId ([] : List (String × List Sample)) = [] := framesOf_eq_nil.mpr List.not_mem_nil
    rw [if_pos none]
    exact AList.lookup_empty peerId
  | append_singleton added frame ih =>
    rw [recorded, List.foldl_append]
    exact ih.addFrame frame

/-- The archives are those of the peers that have added frames, one each. -/
theorem mem_peerArchives {arith : Arithmetic Sample} {added : List (String × List Sample)}
    {start state : Recorder Sample Time} (keeps : Keeps added start state) {peerId : String} {archive : List UInt8} :
    (peerId, archive) ∈ state.peerArchives arith ↔ peerId ∈ added.map Prod.fst ∧
      archive = compressAudioArchive arith (recent maxFramesPerPeer (framesOf peerId added)) start.sampleRate
        start.channels := by
  have stored := keeps.frames peerId
  rw [Recorder.peerArchives, keeps.sampleRate, keeps.channels]
  constructor
  · intro listed
    obtain ⟨⟨_, frames⟩, member, same⟩ := List.mem_map.mp listed
    obtain ⟨rfl, rfl⟩ := Prod.mk.inj same
    rw [FiniteMap.mem_toList.mp member] at stored
    split at stored
    · cases stored
    next some =>
      rw [Option.some.inj stored, List.reverse_reverse]
      exact ⟨not_not.mp fun absent => some (framesOf_eq_nil.mpr absent), rfl⟩
  · rintro ⟨present, rfl⟩
    rw [if_neg fun none => framesOf_eq_nil.mp none present] at stored
    exact List.mem_map.mpr ⟨(peerId, _), FiniteMap.mem_toList.mpr stored, by rw [List.reverse_reverse]⟩

theorem peerArchives_keys (arith : Arithmetic Sample) (state : Recorder Sample Time) :
    (state.peerArchives arith).map Prod.fst = state.peerFrames.toList.map Prod.fst := by
  rw [Recorder.peerArchives, List.map_map]
  rfl

theorem peerFrames_count {added : List (String × List Sample)} {start state : Recorder Sample Time}
    (keeps : Keeps added start state) : state.peerFrames.toList.length = (added.map Prod.fst).dedup.length := by
  rw [← List.length_map (f := Prod.fst)]
  refine ((List.perm_ext_iff_of_nodup (FiniteMap.distinct_keys _) (List.nodup_dedup _)).mpr fun peerId => ?_).length_eq
  rw [List.mem_dedup, List.mem_map, ← not_iff_not, ← framesOf_eq_nil]
  have stored := keeps.frames peerId
  constructor
  · intro absent
    by_contra some
    rw [if_neg some] at stored
    exact absent ⟨(peerId, _), FiniteMap.mem_toList.mpr stored, rfl⟩
  · rintro none ⟨⟨_, frames⟩, member, rfl⟩
    rw [if_pos none, FiniteMap.mem_toList.mp member] at stored
    cases stored

/-- The status counts every frame that was added, those that have been dropped too. -/
theorem status_recorded (roomId : String) (sampleRate channels : Nat) (startedAt : Time)
    (added : List (String × List Sample)) :
    (recorded (.init roomId sampleRate channels startedAt) added).status =
      ⟨roomId, (added.map Prod.fst).dedup.length, added.length, (added.map fun frame => frame.2.length * 4).sum,
        sampleRate, channels⟩ := by
  have keeps := recorded_keeps roomId sampleRate channels startedAt added
  have peers := peerFrames_count keeps
  rw [← List.length_map (f := Prod.fst), FiniteMap.keys_toList, ← FiniteMap.size] at peers
  rw [Recorder.status, keeps.roomId, keeps.total, keeps.raw, keeps.sampleRate, keeps.channels, peers]
  simp only [Recorder.init, Nat.zero_add]

end Recording

end Burble.Media
