import Burble.Separated
import Burble.Media.Engine
import Burble.LineRewriting
import Mathlib.Data.List.Infix

namespace Burble.Media

inductive CandidateType
  | relay
  | srflx
  | prflx
  | host
  | unknown
  deriving DecidableEq

inductive CandidateVerdict
  | accept
  | reject
  deriving DecidableEq

abbrev Chars := List Char

def contains (text part : Chars) : Bool := decide (part <:+: text)

section RawAddresses

def isHexOrColon (c : Char) : Bool :=
  c.isDigit || ('a' ≤ c && c ≤ 'f') || ('A' ≤ c && c ≤ 'F') || c = ':'

/-- What follows one to three digits and a dot. -/
def afterOctet (text : Chars) : Option Chars :=
  let digits := text.takeWhile Char.isDigit
  match text.dropWhile Char.isDigit with
  | '.' :: rest => if 1 ≤ digits.length ∧ digits.length ≤ 3 then some rest else none
  | _ => none

/-- Four numbers with dots between, of which the last digit of the first is at the start. -/
def isIpv4At (text : Chars) : Bool :=
  match text with
  | first :: '.' :: rest => first.isDigit && ((afterOctet rest).bind afterOctet).any fun last => last.head?.any Char.isDigit
  | _ => false

def containsRawIp (candidate : Chars) : Bool :=
  (candidate.tails.any isIpv4At ||
      candidate.tails.any fun text => 7 ≤ text.length && (text.take 7).all isHexOrColon) &&
    !contains candidate ".local".toList

end RawAddresses

def parseCandidateType (candidate : Chars) : CandidateType :=
  if contains candidate "typ relay".toList then .relay
  else if contains candidate "typ srflx".toList then .srflx
  else if contains candidate "typ prflx".toList then .prflx
  else if contains candidate "typ host".toList then .host
  else .unknown

def filterCandidate (candidate : Chars) (mode : PrivacyMode) : CandidateVerdict :=
  match mode, parseCandidateType candidate with
  | .standard, .host => if containsRawIp candidate then .reject else .accept
  | .standard, _ => .accept
  | _, .relay => .accept
  | _, _ => .reject

/-! A candidate is words: its foundation, component, transport, priority, address and port, `typ` and its type, and then its
extensions. -/

structure Candidate where
  foundation : Chars
  component : Chars
  transport : Chars
  priority : Chars
  address : Chars
  port : Chars
  type : Chars
  extensions : List Chars

def isNumber (word : Chars) : Bool := word ≠ [] && word.all Char.isDigit

def Candidate.parse (candidate : Chars) : Option Candidate :=
  match candidate.splitOn ' ' with
  | foundation :: component :: transport :: priority :: address :: port :: typ :: type :: extensions =>
    if foundation ≠ [] ∧ isNumber component ∧ transport ≠ [] ∧ isNumber priority ∧ address ≠ [] ∧ isNumber port ∧
        typ = "typ".toList ∧ type ≠ [] then
      some ⟨foundation, component, transport, priority, address, port, type, extensions⟩
    else none
  | _ => none

/-- The value of the `typ` attribute. -/
def typeOf (candidate : Chars) : Option Chars := (Candidate.parse candidate).map Candidate.type

/-- Some word that ends in `typ` is followed by one that begins with `relay`. -/
def SaysRelay (words : List Chars) : Prop :=
  ∃ front word next back, words = front ++ word :: next :: back ∧ "typ".toList <:+ word ∧ "relay".toList <+: next

theorem contains_relay_iff (candidate : Chars) : contains candidate "typ relay".toList = true ↔
    SaysRelay (candidate.splitOn ' ') := by
  have parts : "typ relay".toList = "typ".toList ++ ' ' :: "relay".toList := by decide
  rw [contains, decide_eq_true_iff, parts]
  exact infix_iff_words (by decide) (by decide)

/-- A candidate passes a mode that keeps relays only where its text says so. -/
theorem filterCandidate_iff {mode : PrivacyMode} (relayOnly : mode ≠ .standard) (candidate : Chars) :
    filterCandidate candidate mode = .accept ↔ SaysRelay (candidate.splitOn ' ') := by
  rw [← contains_relay_iff]
  have typed : parseCandidateType candidate = .relay ↔ contains candidate "typ relay".toList = true := by
    unfold parseCandidateType
    split
    next said => exact iff_of_true rfl said
    next said =>
      refine iff_of_false ?_ said
      repeat' split
      all_goals exact fun same => by cases same
  rw [← typed]
  unfold filterCandidate
  generalize parseCandidateType candidate = type
  cases mode with
  | standard => exact absurd rfl relayOnly
  | turnOnly | e2ee | maximum => cases type <;> simp

theorem saysRelay_of_typeOf {candidate : Chars} (relay : typeOf candidate = some "relay".toList) :
    SaysRelay (candidate.splitOn ' ') := by
  obtain ⟨parsed, found, type⟩ := Option.map_eq_some_iff.mp relay
  unfold Candidate.parse at found
  split at found
  next foundation component transport priority address port typ type' extensions words =>
    split at found
    next valid =>
      cases found
      refine ⟨[foundation, component, transport, priority, address, port], typ, type', extensions, words, ?_, ?_⟩
      · exact ⟨[], valid.2.2.2.2.2.2.1.symm⟩
      · exact ⟨[], (List.append_nil _).trans type.symm⟩
    next => cases found
  next => cases found

/-- In the modes that keep relays only, the filter passes what its type says to where the type is relay, or where no word
    that ends in `typ` is followed by one that begins with `relay`. -/
theorem filterCandidate_typeOf_iff {mode : PrivacyMode} (relayOnly : mode ≠ .standard) (candidate : Chars) :
    (filterCandidate candidate mode = .accept ↔ typeOf candidate = some "relay".toList) ↔
      (typeOf candidate = some "relay".toList ∨ ¬ SaysRelay (candidate.splitOn ' ')) := by
  rw [filterCandidate_iff relayOnly]
  constructor
  · intro same
    by_cases said : SaysRelay (candidate.splitOn ' ')
    · exact .inl (same.mp said)
    · exact .inr said
  · rintro (relay | silent)
    · exact iff_of_true (saysRelay_of_typeOf relay) relay
    · exact iff_of_false silent fun relay => silent (saysRelay_of_typeOf relay)

/-- A host candidate whose extensions say relay. -/
def hostCandidate : Chars := "candidate:0 1 UDP 2122252543 192.168.1.100 54400 typ host styp relay".toList

theorem hostCandidate_filter : (filterCandidate hostCandidate .turnOnly = .accept ↔
    typeOf hostCandidate = some "relay".toList) ↔
      (typeOf hostCandidate = some "relay".toList ∨ ¬ SaysRelay (hostCandidate.splitOn ' ')) :=
  filterCandidate_typeOf_iff (by decide) hostCandidate

theorem hostCandidate_passes : typeOf hostCandidate = some "host".toList ∧
    filterCandidate hostCandidate .turnOnly = .accept := by
  decide +kernel

end Burble.Media

namespace Burble.Media

/-! The sanitiser of an SDP text, which replaces keys wherever they are, and the lines that it is meant for. -/

/-- All matches of a key, the rest of its line and the end of that. -/
def replaceLine (key replacement : Chars) (sdp : Chars) : Chars := replaceToEnd '\n' key replacement false sdp

def sessionKey : Chars := ['s', '=']
def originKey : Chars := ['o', '=']
def bandwidthKey : Chars := ['b', '=']
def toolKey : Chars := ['a', '=', 't', 'o', 'o', 'l', ':']

def sessionLine : Chars := "s=burble\r".toList
def originLine : Chars := "o=- 0 0 IN IP4 0.0.0.0\r".toList

def stripSessionIdentifiers (sdp : Chars) : Chars :=
  replaceLine originKey (originLine ++ ['\n']) (replaceLine sessionKey (sessionLine ++ ['\n']) sdp)

def normaliseCodecs (sdp : Chars) : Chars := sdp

def stripBandwidthEstimates (sdp : Chars) (mode : PrivacyMode) : Chars :=
  if mode = .maximum then replaceLine bandwidthKey [] sdp else sdp

def stripToolField (sdp : Chars) : Chars := replaceLine toolKey [] sdp

def sanitiseSdp (sdp : Chars) (mode : PrivacyMode) : Chars :=
  stripToolField (stripBandwidthEstimates (normaliseCodecs (stripSessionIdentifiers sdp)) mode)

/-! What is meant: a line is told by how it begins. -/

inductive LineKind
  | session
  | origin
  | bandwidth
  | tool
  | other
  deriving DecidableEq

def kindOf (line : Chars) : LineKind :=
  if sessionKey.isPrefixOf line then .session
  else if originKey.isPrefixOf line then .origin
  else if bandwidthKey.isPrefixOf line then .bandwidth
  else if toolKey.isPrefixOf line then .tool
  else .other

/-- What becomes of a line: nothing where it is removed. Bandwidth lines are removed in the maximum mode, and tool lines there
    or, where so meant, in every mode. -/
def targeted (toolsEverywhere : Bool) (mode : PrivacyMode) (line : Chars) : Option Chars :=
  match kindOf line with
  | .session => some sessionLine
  | .origin => some originLine
  | .bandwidth => if mode = .maximum then none else some line
  | .tool => if mode = .maximum ∨ toolsEverywhere then none else some line
  | .other => some line

/-- The text with its lines that are targeted changed, and no other. -/
def intended (toolsEverywhere : Bool) (mode : PrivacyMode) (sdp : Chars) : Chars :=
  terminated '\n' ((linesOf '\n' sdp).filterMap (targeted toolsEverywhere mode)) (tailOf '\n' sdp)

/-- A line with its session and origin texts replaced. -/
def renamed (line : Chars) : Chars := rewriteLine originKey originLine (rewriteLine sessionKey sessionLine line)

/-- A key is not in a line, or the line ends from there on as it is to end. -/
def EndsAs (key ending line : Chars) : Prop := ∀ front, before key line = some front → line = front ++ ending

/-- A line that no replacement changes. -/
structure Unmatched (mode : PrivacyMode) (line : Chars) : Prop where
  session : EndsAs sessionKey sessionLine line
  origin : EndsAs originKey originLine line
  bandwidth : mode = .maximum → before bandwidthKey line = none
  tool : before toolKey line = none

/-- The next line that is no bandwidth line is a tool line. -/
def ToolNext (rest : List Chars) : Prop :=
  ∃ bandwidths line more, rest = bandwidths ++ line :: more ∧ (∀ bandwidth ∈ bandwidths, kindOf bandwidth = .bandwidth) ∧
    kindOf line = .tool

/-- A line that is kept is a session or an origin line, or no replacement changes it; a tool line that is removed and that the
    bandwidth key cuts is followed by another. -/
def LineSound (toolsEverywhere : Bool) (mode : PrivacyMode) (line : Chars) (rest : List Chars) : Prop :=
  match targeted toolsEverywhere mode line with
  | some _ => kindOf line = .session ∨ kindOf line = .origin ∨ Unmatched mode line
  | none => kindOf line = .tool → mode = .maximum → before bandwidthKey (renamed line) ≠ none → ToolNext rest

def LinesSound (toolsEverywhere : Bool) (mode : PrivacyMode) : List Chars → Prop
  | [] => True
  | line :: rest => LineSound toolsEverywhere mode line rest ∧ LinesSound toolsEverywhere mode rest

section Lines
variable {mode : PrivacyMode} {toolsEverywhere : Bool} {line : Chars} {lines : List Chars} {tail : Chars}

/-- What the bandwidth replacement leaves of a line that it cuts. -/
def bandwidthCut (mode : PrivacyMode) (line : Chars) : Option Chars :=
  if mode = .maximum then before bandwidthKey line else none

theorem before_free {key front : Chars} (found : before key line = some front) (free : '\n' ∉ line) : '\n' ∉ front := by
  obtain ⟨rest, rfl⟩ := before_split found
  exact fun mem => free (List.mem_append_left _ mem)

theorem rewriteLine_free {key ending : Chars} (free : '\n' ∉ line) (freeEnding : '\n' ∉ ending) :
    '\n' ∉ rewriteLine key ending line := by
  rw [rewriteLine]
  split
  next front found => exact fun mem => (List.mem_append.mp mem).elim (before_free found free) freeEnding
  next => exact free

theorem renamed_free (free : '\n' ∉ line) : '\n' ∉ renamed line :=
  rewriteLine_free (rewriteLine_free free (by decide)) (by decide)

/-- The text after the bandwidth replacement. -/
def afterBandwidth (mode : PrivacyMode) (carry : Chars) (lines : List Chars) : List Chars × Chars :=
  cutLines (bandwidthCut mode) carry (lines.map renamed)

/-- And after the tool replacement, with what is left behind the lines of each. -/
def afterTools (mode : PrivacyMode) (left carry : Chars) (lines : List Chars) : List Chars × Chars :=
  cutLines (before toolKey) left (afterBandwidth mode carry lines).1

theorem bandwidthCut_free (line kept : Chars) (cut : bandwidthCut mode line = some kept) (free : '\n' ∉ line) : '\n' ∉ kept := by
  unfold bandwidthCut at cut
  split at cut
  · exact before_free cut free
  · cases cut

theorem map_renamed_free (free : ∀ line ∈ lines, '\n' ∉ line) : ∀ line ∈ lines.map renamed, '\n' ∉ line := by
  intro line mem
  obtain ⟨line, listed, rfl⟩ := List.mem_map.mp mem
  exact renamed_free (free line listed)

theorem afterBandwidth_free (mode : PrivacyMode) (free : ∀ line ∈ lines, '\n' ∉ line) :
    (∀ line ∈ (afterBandwidth mode [] lines).1, '\n' ∉ line) ∧ '\n' ∉ (afterBandwidth mode [] lines).2 :=
  cutLines_free bandwidthCut_free List.not_mem_nil (map_renamed_free free)

theorem afterTools_free (mode : PrivacyMode) (free : ∀ line ∈ lines, '\n' ∉ line) :
    (∀ line ∈ (afterTools mode [] [] lines).1, '\n' ∉ line) ∧ '\n' ∉ (afterTools mode [] [] lines).2 :=
  cutLines_free (fun _ _ => before_free) List.not_mem_nil (afterBandwidth_free mode free).1

theorem stripSessionIdentifiers_lines (free : ∀ line ∈ lines, '\n' ∉ line) (freeTail : '\n' ∉ tail) :
    stripSessionIdentifiers (terminated '\n' lines tail) = terminated '\n' (lines.map renamed) tail := by
  have sessions : ∀ line ∈ lines.map (rewriteLine sessionKey sessionLine), '\n' ∉ line := by
    intro line mem
    obtain ⟨line, listed, rfl⟩ := List.mem_map.mp mem
    exact rewriteLine_free (free line listed) (by decide)
  rw [stripSessionIdentifiers, replaceLine, replaceLine, replaceToEnd_rewrite (by decide) (by decide) _ free freeTail,
    replaceToEnd_rewrite (by decide) (by decide) _ sessions freeTail, List.map_map]
  rfl

theorem stripBandwidthEstimates_lines (mode : PrivacyMode) (free : ∀ line ∈ lines, '\n' ∉ line) (freeTail : '\n' ∉ tail) :
    stripBandwidthEstimates (terminated '\n' (lines.map renamed) tail) mode =
      terminated '\n' (afterBandwidth mode [] lines).1 ((afterBandwidth mode [] lines).2 ++ tail) := by
  rw [stripBandwidthEstimates, afterBandwidth]
  split
  next maximum =>
    have cut : bandwidthCut mode = before bandwidthKey := funext fun _ => if_pos maximum
    rw [cut]
    exact replaceToEnd_cut (by decide) (by decide) (map_renamed_free free) freeTail []
  next other =>
    have cut : bandwidthCut mode = fun _ => none := funext fun _ => if_neg other
    rw [cut]
    cases lines with
    | nil => rfl
    | cons line rest => rw [List.map_cons, cutLines_none]; rfl

/-- The sanitiser, line by line. -/
theorem sanitiseSdp_lines (mode : PrivacyMode) (free : ∀ line ∈ lines, '\n' ∉ line) (freeTail : '\n' ∉ tail) :
    sanitiseSdp (terminated '\n' lines tail) mode = terminated '\n' (afterTools mode [] [] lines).1
      ((afterTools mode [] [] lines).2 ++ ((afterBandwidth mode [] lines).2 ++ tail)) := by
  obtain ⟨freeLines, freeLeft⟩ := afterBandwidth_free mode free
  have freeEnd : '\n' ∉ (afterBandwidth mode [] lines).2 ++ tail := fun mem => (List.mem_append.mp mem).elim freeLeft freeTail
  rw [sanitiseSdp, stripSessionIdentifiers_lines free freeTail, normaliseCodecs, stripBandwidthEstimates_lines mode free freeTail]
  exact replaceToEnd_cut (by decide) (by decide) freeLines freeEnd []

end Lines

end Burble.Media
