import Burble.FiniteMap
import Burble.Fallible
import Burble.Separated
import Mathlib.Data.List.Forall2

namespace Burble.Llm

abbrev Binary := List UInt8

/-- What a map has its values under: atoms, which handlers match on, and binaries. -/
inductive Key
  | atom (name : Binary)
  | binary (text : Binary)
  deriving DecidableEq

/-- The atom `type`. -/
def typeName : Binary := [0x74, 0x79, 0x70, 0x65]

/-- A map that is sent: its type, and the values of its other atoms. -/
structure Frame where
  type : Binary
  fields : FiniteMap Binary Binary
  untyped : typeName ∉ fields

def Frame.get (frame : Frame) : Key → Option Binary
  | .atom name => if name = typeName then some frame.type else frame.fields.lookup name
  | .binary _ => none

inductive ReadError
  | emptyFrame
  | parseError
  deriving DecidableEq

def newline : UInt8 := 0x0A
def colon : UInt8 := 0x3A

/-- `LLM`, and the end of a line. -/
def frameHeader : Binary := [0x4C, 0x4C, 0x4D, 0x0D, 0x0A]

def frameFooter : Binary := [0x0D, 0x0A, 0x0D, 0x0A]

/-- The bytes of each character of Unicode white space. -/
def whiteSpace : List Binary :=
  [[0x09], [0x0A], [0x0B], [0x0C], [0x0D], [0x20], [0xC2, 0x85], [0xC2, 0xA0], [0xE1, 0x9A, 0x80],
    [0xE2, 0x80, 0x80], [0xE2, 0x80, 0x81], [0xE2, 0x80, 0x82], [0xE2, 0x80, 0x83], [0xE2, 0x80, 0x84],
    [0xE2, 0x80, 0x85], [0xE2, 0x80, 0x86], [0xE2, 0x80, 0x87], [0xE2, 0x80, 0x88], [0xE2, 0x80, 0x89],
    [0xE2, 0x80, 0x8A], [0xE2, 0x80, 0xA8], [0xE2, 0x80, 0xA9], [0xE2, 0x80, 0xAF], [0xE2, 0x81, 0x9F],
    [0xE3, 0x80, 0x80]]

/-- A binary without the parts of a list at its start, which are at most as many as there is fuel. -/
def dropParts (parts : List Binary) : Nat → Binary → Binary
  | 0, text => text
  | fuel + 1, text =>
    match parts.find? fun part => part.isPrefixOf text with
    | some part => dropParts parts fuel (text.drop part.length)
    | none => text

def trimLeading (text : Binary) : Binary := dropParts whiteSpace text.length text

def trimTrailing (text : Binary) : Binary := (dropParts (whiteSpace.map List.reverse) text.length text.reverse).reverse

def trim (text : Binary) : Binary := trimTrailing (trimLeading text)

/-- `String.split` in two parts, where there are two. -/
def splitTwo (sep : UInt8) (text : Binary) : Option (Binary × Binary) :=
  if sep ∈ text then some (text.takeWhile (· ≠ sep), (text.dropWhile (· ≠ sep)).drop 1) else none

def parseHeader (headers : FiniteMap Key Binary) (line : Binary) : FiniteMap Key Binary :=
  match splitTwo colon line with
  | some (key, value) => headers.insert (.binary (trim key)) (trim value)
  | none => headers

section Reading
variable (upcase : Binary → Binary)

def parseFrame (fullData : Binary) : Except ReadError (FiniteMap Key Binary) :=
  match trim fullData with
  | [] => .error .emptyFrame
  | data =>
    match splitTwo newline data with
    | none => .error .parseError
    | some (_, rest) =>
      match rest.splitOn newline with
      | [] => .error .parseError
      | type :: lines => .ok ((lines.foldl parseHeader ∅).insert (.atom typeName) (upcase type))

/-- What is read where a receive returns some data. -/
def readFrame (data : Binary) : Except ReadError (FiniteMap Key Binary) := parseFrame upcase (frameHeader ++ data ++ frameFooter)

end Reading

def headerLine (field : Binary × Binary) : Binary := field.1 ++ [colon, 0x20] ++ field.2

def buildFrame (frame : Frame) : Binary :=
  frameHeader ++ frame.type ++ [newline] ++ [newline].intercalate (frame.fields.toList.map headerLine) ++ frameFooter

/-- What is written for frames, one after the other. -/
def stream (frames : List Frame) : Binary := frames.flatMap buildFrame

def received (frame : Frame) : Except ReadError (FiniteMap Key Binary) → Prop
  | .ok got => ∀ key, got.lookup key = frame.get key
  | .error _ => False

/-- The reads of what is received in some pieces are the frames, in order. -/
def RoundTrips (upcase : Binary → Binary) (frames : List Frame) (pieces : List Binary) : Prop :=
  List.Forall₂ received frames (pieces.map (readFrame upcase))

section Trimming

theorem dropParts_stops {parts : List Binary} {stop : UInt8} (free : ∀ part ∈ parts, stop ∉ part) (fuel : Nat)
    (front rest : Binary) : ∃ left, left <:+ front ∧ dropParts parts fuel (front ++ stop :: rest) = left ++ stop :: rest := by
  induction fuel generalizing front with
  | zero => exact ⟨front, List.suffix_refl _, rfl⟩
  | succ fuel ih =>
    rw [dropParts]
    split
    next part found =>
      have begins : part.isPrefixOf (front ++ stop :: rest) = true := by
        simpa using List.find?_some found
      have before := prefix_of_stop (free part (List.mem_of_find?_eq_some found)) (List.isPrefixOf_iff_prefix.mp begins)
      obtain ⟨left, inside, dropped⟩ := ih (front.drop part.length)
      refine ⟨left, inside.trans (List.drop_suffix _ _), ?_⟩
      rw [List.drop_append_of_le_length before.length_le, dropped]
    next => exact ⟨front, List.suffix_refl _, rfl⟩

theorem letter_free {letter : UInt8} (capital : letter = 0x4C ∨ letter = 0x4D) :
    (∀ part ∈ whiteSpace, letter ∉ part) ∧ ∀ part ∈ whiteSpace.map List.reverse, letter ∉ part := by
  rcases capital with rfl | rfl <;> decide

/-- A text from the letter L to the letter M is not trimmed. -/
theorem trim_stops (front rest : Binary) : ∃ left, left <+: rest ∧
    trim (0x4C :: front ++ 0x4D :: rest) = 0x4C :: front ++ 0x4D :: left := by
  obtain ⟨none, before, leading⟩ := dropParts_stops (letter_free (.inl rfl)).1 (0x4C :: front ++ 0x4D :: rest).length []
    (front ++ 0x4D :: rest)
  cases List.suffix_nil.mp before
  have kept : trimLeading (0x4C :: front ++ 0x4D :: rest) = 0x4C :: front ++ 0x4D :: rest := leading
  obtain ⟨left, inside, trailing⟩ := dropParts_stops (letter_free (.inr rfl)).2 (0x4C :: front ++ 0x4D :: rest).length
    rest.reverse (0x4C :: front).reverse
  have begins := List.reverse_prefix.mpr inside
  rw [List.reverse_reverse] at begins
  refine ⟨left.reverse, begins, ?_⟩
  have reversed : (0x4C :: front ++ 0x4D :: rest).reverse = rest.reverse ++ 0x4D :: (0x4C :: front).reverse := by simp
  rw [trim, kept, trimTrailing, reversed, trailing]
  simp

end Trimming

section Frames
variable {upcase : Binary → Binary}

theorem parseFrame_lines {fullData rest line : Binary} {lines : List Binary} (trimmed : trim fullData = frameHeader ++ rest)
    (split : rest.splitOn newline = line :: lines) :
    parseFrame upcase fullData = .ok ((lines.foldl parseHeader ∅).insert (.atom typeName) (upcase line)) := by
  have two : splitTwo newline (0x4C :: ([0x4C, 0x4D, 0x0D, 0x0A] ++ rest)) = some ([0x4C, 0x4C, 0x4D, 0x0D], rest) :=
    if_pos (List.mem_append_left rest (by decide : newline ∈ frameHeader))
  have shape : trim fullData = 0x4C :: ([0x4C, 0x4D, 0x0D, 0x0A] ++ rest) := trimmed
  rw [parseFrame, shape]
  simp only [two, split]

/-- Headers that are read are binaries. -/
theorem foldl_parseHeader_atom (lines : List Binary) (headers : FiniteMap Key Binary) (name : Binary) :
    (lines.foldl parseHeader headers).lookup (.atom name) = headers.lookup (.atom name) := by
  induction lines generalizing headers with
  | nil => rfl
  | cons line rest ih =>
    rw [List.foldl_cons, ih, parseHeader]
    split
    · exact AList.lookup_insert_ne (by simp)
    · rfl

/-- The word of the header, as the end of a line leaves it. -/
def headerWord : Binary := [0x4C, 0x4C, 0x4D, 0x0D]

/-- Letters that are written large, and controls. -/
theorem large_of_all {word : Binary} (all : word.all (· < 0x61) = true) : ∀ byte ∈ word, byte < 0x61 :=
  fun byte member => of_decide_eq_true (List.all_eq_true.mp all byte member)

/-- The word of a header that is read is followed by that of the header that is written. -/
theorem readFrame_line (data : Binary) : ∃ (line : Binary) (lines : List Binary), (line = headerWord ∨ line = headerWord.dropLast) ∧
    readFrame upcase (frameHeader ++ data) =
      .ok ((lines.foldl parseHeader ∅).insert (.atom typeName) (upcase line)) := by
  obtain ⟨left, inside, trimmed⟩ := trim_stops [0x4C, 0x4D, 0x0D, 0x0A, 0x4C, 0x4C] (0x0D :: 0x0A :: (data ++ frameFooter))
  have splits : ∃ line lines, (line = headerWord ∨ line = headerWord.dropLast) ∧
      ([0x4C, 0x4C] ++ 0x4D :: left).splitOn newline = line :: lines := by
    rcases List.prefix_cons_iff.mp inside with rfl | ⟨left, rfl, further⟩
    · exact ⟨headerWord.dropLast, [], .inr rfl, List.splitOn_eq_singleton (by decide)⟩
    · rcases List.prefix_cons_iff.mp further with rfl | ⟨left, rfl, -⟩
      · exact ⟨headerWord, [], .inl rfl, List.splitOn_eq_singleton (by decide)⟩
      · have free : newline ∉ headerWord := by decide
        exact ⟨headerWord, left.splitOn newline, .inl rfl, List.splitOn_append_cons_self_of_not_mem free left⟩
  obtain ⟨line, lines, word, split⟩ := splits
  exact ⟨line, lines, word, parseFrame_lines trimmed split⟩

theorem readFrame_word (data : Binary) : ∃ lines : List Binary, readFrame upcase (frameHeader ++ (headerWord.dropLast ++ data)) =
    .ok ((lines.foldl parseHeader ∅).insert (.atom typeName) (upcase headerWord)) := by
  obtain ⟨left, -, trimmed⟩ := trim_stops [0x4C, 0x4D, 0x0D, 0x0A, 0x4C, 0x4C, 0x4D, 0x0D, 0x0A, 0x4C, 0x4C]
    (data ++ frameFooter)
  have free : newline ∉ headerWord := by decide
  have split := List.splitOn_append_cons_self_of_not_mem free ([0x4C, 0x4C] ++ 0x4D :: left)
  have kept : trim (frameHeader ++ (frameHeader ++ (headerWord.dropLast ++ data)) ++ frameFooter) =
      frameHeader ++ (headerWord ++ newline :: ([0x4C, 0x4C] ++ 0x4D :: left)) := by
    rw [List.append_assoc frameHeader, List.append_assoc frameHeader, List.append_assoc headerWord.dropLast]
    exact trimmed
  exact ⟨_, parseFrame_lines kept split⟩

/-- A frame that is received by itself is read back where it says what the header does and nothing else. -/
theorem received_readFrame_iff (keeps : ∀ text : Binary, (∀ byte ∈ text, byte < 0x61) → upcase text = text) (frame : Frame) :
    received frame (readFrame upcase (buildFrame frame)) ↔ frame.type = headerWord ∧ frame.fields = ∅ := by
  have kept : upcase headerWord = headerWord := keeps _ (large_of_all (by decide))
  obtain ⟨after, shape⟩ : ∃ after, buildFrame frame = frameHeader ++ (frame.type ++ after) :=
    ⟨_, by simp only [buildFrame, List.append_assoc]; rfl⟩
  constructor
  · intro same
    -- What is read is typed by a word that begins as the header does, so the frame is, and then the whole word is read.
    have begins : ∃ more, frame.type = headerWord.dropLast ++ more := by
      obtain ⟨line, lines, word, read⟩ := @readFrame_line upcase (frame.type ++ after)
      rw [shape, read] at same
      have type := same (.atom typeName)
      rw [AList.lookup_insert, Frame.get, if_pos rfl] at type
      rcases word with rfl | rfl
      · exact ⟨[0x0D], (Option.some.inj type).symm.trans kept⟩
      · exact ⟨[], (Option.some.inj type).symm.trans (keeps _ (large_of_all (by decide)))⟩
    obtain ⟨more, begins⟩ := begins
    obtain ⟨lines, read⟩ := @readFrame_word upcase (more ++ after)
    rw [shape, begins, List.append_assoc, read] at same
    refine ⟨?_, FiniteMap.size_eq_zero.mp ?_⟩
    · have type := same (.atom typeName)
      rw [AList.lookup_insert, Frame.get, if_pos rfl, kept] at type
      exact (Option.some.inj type).symm
    · refine (@FiniteMap.size_congr _ _ _ frame.fields ∅ fun name => iff_of_true ?_ rfl).trans FiniteMap.size_empty
      by_cases own : name = typeName
      · exact own ▸ AList.lookup_eq_none.mpr frame.untyped
      · have field := same (.atom name)
        rw [AList.lookup_insert_ne (by simpa using own), foldl_parseHeader_atom, Frame.get, if_neg own] at field
        exact field.symm
  · obtain ⟨type, fields, untyped⟩ := frame
    rintro ⟨rfl, rfl⟩
    have trimmed : trim (frameHeader ++ buildFrame ⟨headerWord, ∅, untyped⟩ ++ frameFooter) =
        frameHeader ++ (headerWord ++ newline :: headerWord.dropLast) := by
      change trim (frameHeader ++ (frameHeader ++ headerWord ++ [newline] ++ [] ++ frameFooter) ++ frameFooter) = _
      decide +kernel
    have lines : (headerWord ++ newline :: headerWord.dropLast).splitOn newline = [headerWord, headerWord.dropLast] := by
      decide
    rw [readFrame, parseFrame_lines trimmed lines, kept]
    intro key
    cases key with
    | atom name =>
      by_cases own : name = typeName
      · rw [own, AList.lookup_insert, Frame.get, if_pos rfl]
      · rw [AList.lookup_insert_ne (by simpa using own), foldl_parseHeader_atom, Frame.get, if_neg own]
        rfl
    | binary text =>
      rw [AList.lookup_insert_ne (by simp)]
      rfl

theorem stream_length (frames : List Frame) : 5 * frames.length ≤ (stream frames).length := by
  induction frames with
  | nil => exact Nat.zero_le _
  | cons frame rest ih =>
    have header : frameHeader.length = 5 := rfl
    rw [stream, List.flatMap_cons, List.length_append, List.length_cons, buildFrame, List.append_assoc, List.append_assoc,
      List.append_assoc, List.length_append, header]
    rw [stream] at ih
    omega

/-- Frames are read back from every splitting of their stream where there are none of them. One that is received by itself
    is read back where it says what the header does and nothing else. -/
theorem roundTrips_iff (keeps : ∀ text : Binary, (∀ byte ∈ text, byte < 0x61) → upcase text = text) (frames : List Frame) :
    ((∀ pieces : List Binary, (∀ piece ∈ pieces, piece ≠ []) → pieces.flatten = stream frames →
        RoundTrips upcase frames pieces) ↔ frames = []) ∧
      (RoundTrips upcase frames (frames.map buildFrame) ↔ ∀ frame ∈ frames, frame.type = headerWord ∧ frame.fields = ∅) := by
  constructor
  · constructor
    · intro all
      -- Each byte by itself makes more reads than there are frames.
      have bytewise := all ((stream frames).map fun byte => [byte]) (by simp) (by simp [← List.flatMap_def])
      have count := bytewise.length_eq
      have long := stream_length frames
      rw [List.length_map, List.length_map] at count
      exact List.eq_nil_of_length_eq_zero (by omega)
    · rintro rfl pieces filled flat
      have none : pieces = [] := by
        refine List.eq_nil_iff_forall_not_mem.mpr fun piece mem => filled piece mem ?_
        exact List.flatten_eq_nil_iff.mp flat piece mem
      rw [none]
      exact .nil
  · rw [RoundTrips, List.map_map, List.forall₂_map_right_iff, List.forall₂_same]
    exact forall₂_congr fun frame _ => received_readFrame_iff keeps frame

end Frames

/-- What ASCII has small letters for is in capitals. -/
def asciiUpcase (text : Binary) : Binary := text.map fun byte => if 0x61 ≤ byte ∧ byte ≤ 0x7A then byte - 0x20 else byte

theorem asciiUpcase_keeps (text : Binary) (capitals : ∀ byte ∈ text, byte < 0x61) : asciiUpcase text = text := by
  have same : asciiUpcase text = text.map id :=
    List.map_congr_left fun byte mem => if_neg fun small => absurd small.1 (UInt8.not_le.mpr (capitals byte mem))
  rw [same, List.map_id]

def tokenName : Binary := [0x74, 0x6F, 0x6B, 0x65, 0x6E]

/-- `AUTH`, with a token of one letter. -/
def authFrame : Frame where
  type := [0x41, 0x55, 0x54, 0x48]
  fields := (∅ : FiniteMap Binary Binary).insert tokenName [0x74]
  untyped := by decide

theorem authFrame_not_read : ¬ RoundTrips asciiUpcase [authFrame] [buildFrame authFrame] := by
  intro reads
  have frame := (roundTrips_iff asciiUpcase_keeps [authFrame]).2.mp reads authFrame (List.mem_singleton_self _)
  exact absurd frame.1 (by decide)

/-- It is read with the header's word for its type, and with its token under a binary. -/
theorem authFrame_read :
    ((readFrame asciiUpcase (buildFrame authFrame)).toOption.bind fun got => got.lookup (.atom typeName)) = some headerWord ∧
    ((readFrame asciiUpcase (buildFrame authFrame)).toOption.bind fun got => got.lookup (.atom tokenName)) = none ∧
    ((readFrame asciiUpcase (buildFrame authFrame)).toOption.bind fun got => got.lookup (.binary tokenName)) = some [0x74] ∧
    ¬ List.Forall₂ received [authFrame] [readFrame asciiUpcase (buildFrame authFrame)] := by
  have typed : ((readFrame asciiUpcase (buildFrame authFrame)).toOption.bind fun got => got.lookup (.atom typeName)) =
      some headerWord := by decide +kernel
  refine ⟨typed, by decide +kernel, by decide +kernel, fun reads => ?_⟩
  cases reads with
  | cons first _ =>
    cases read : readFrame asciiUpcase (buildFrame authFrame) with
    | error reason =>
      rw [read] at first
      exact first
    | ok got =>
      rw [read] at first typed
      have type := (first (.atom typeName)).symm.trans typed
      exact absurd type (by decide)

end Burble.Llm
