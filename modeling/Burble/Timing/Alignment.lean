import Burble.FiniteMap
import Burble.Runs
import Burble.Timing.SteadyClock

namespace Burble.Timing

abbrev Node := String

/-- A report of a node: its wall time, the local time of the caller at the same moment, and the local time at which the
    report is handled. -/
structure Report where
  node : Node
  wallNs : Int
  localNs : Int
  nowMs : Int
  deriving DecidableEq, Repr

structure NodeEntry where
  offsetNs : Int
  driftPpm : Rat
  lastSeen : Int

structure Alignment where
  nodes : FiniteMap Node NodeEntry
  prevObs : FiniteMap Node (Int × Int)
  localNode : Node
  windowMs : Int

inductive AlignmentError
  | unknownNode
  deriving DecidableEq, Repr

namespace Alignment

def init (localNode : Node) (windowMs : Int) : Alignment := ⟨∅, ∅, localNode, windowMs⟩

variable (state : Alignment)

def isLive (nowMs : Int) (entry : NodeEntry) : Bool := decide (nowMs - state.windowMs ≤ entry.lastSeen)

def staleKeys (nowMs : Int) : List Node :=
  (state.nodes.toList.filter fun entry => ! state.isLive nowMs entry.2).map Prod.fst

/-- Nodes are evicted where a report is handled, and nowhere else. -/
def evictStale (nowMs : Int) : Alignment :=
  { state with
    nodes := state.nodes.filterValues (state.isLive nowMs)
    prevObs := (state.staleKeys nowMs).foldl (fun observed node => AList.erase node observed) state.prevObs }

/-- The drift between two observations of an offset. -/
def driftBetween (previous : Int × Int) (offsetNs nowNs : Int) : Rat :=
  let deltaOffset := offsetNs - previous.1
  let deltaTime := nowNs - previous.2
  if 0 < deltaTime then ClockCorrelator.roundPlaces (deltaOffset / deltaTime * 1000000) else 0

def reportNodeSync (report : Report) : Alignment :=
  let state := state.evictStale report.nowMs
  let offsetNs := report.wallNs - report.localNs
  let driftPpm :=
    match state.prevObs.lookup report.node with
    | none => 0
    | some previous => driftBetween previous offsetNs report.localNs
  { state with
    nodes := state.nodes.insert report.node ⟨offsetNs, driftPpm, report.nowMs⟩
    prevObs := state.prevObs.insert report.node (offsetNs, report.localNs) }

def playoutOffsetNs (queriedNode : Node) : Except AlignmentError Int :=
  if queriedNode = state.localNode then .ok 0
  else
    match state.nodes.lookup queriedNode with
    | none => .error .unknownNode
    | some entry => .ok entry.offsetNs

def nodeDriftPpm (queriedNode : Node) : Except AlignmentError Rat :=
  if queriedNode = state.localNode then .ok 0
  else
    match state.nodes.lookup queriedNode with
    | none => .error .unknownNode
    | some entry => .ok entry.driftPpm

/-- The state after reports, in the order they are handled. -/
def aligned (localNode : Node) (windowMs : Int) (history : List Report) : Alignment :=
  history.foldl reportNodeSync (init localNode windowMs)

end Alignment

namespace Report

def offsetNs (report : Report) : Int := report.wallNs - report.localNs

/-- What a report leaves of another that is kept: it comes from another node, and not too late. -/
def Ends (windowMs : Int) (kept report : Report) : Prop :=
  report.node = kept.node ∨ windowMs < report.nowMs - kept.nowMs

/-- The report that stands for a node: its last, and no report came too late after it. -/
def Stands (windowMs : Int) (node : Node) (history : List Report) (report : Report) : Prop :=
  report.node = node ∧ Since (· = report) (Ends windowMs report) history

end Report

namespace Alignment
open Report (Stands Ends)
variable {state : Alignment} {node : Node} {nowMs : Int}

theorem lookup_drop (keys : List Node) (observed : FiniteMap Node (Int × Int)) :
    (keys.foldl (fun observed node => AList.erase node observed) observed).lookup node =
      if node ∈ keys then none else observed.lookup node := by
  induction keys generalizing observed with
  | nil => rfl
  | cons key keys ih =>
    rw [List.foldl_cons, ih, FiniteMap.lookup_erase_if]
    by_cases among : node ∈ keys
    · simp [among]
    · by_cases same : node = key <;> simp [among, same]

theorem mem_staleKeys : node ∈ state.staleKeys nowMs ↔
    ∃ entry, state.nodes.lookup node = some entry ∧ state.isLive nowMs entry = false := by
  simp only [staleKeys, List.mem_map, List.mem_filter, Bool.not_eq_true', Prod.exists, exists_and_right, exists_eq_right,
    FiniteMap.mem_toList]

theorem evictStale_nodes (state : Alignment) (nowMs : Int) (node : Node) :
    (state.evictStale nowMs).nodes.lookup node = (state.nodes.lookup node).filter (state.isLive nowMs) :=
  FiniteMap.lookup_filterValues ..

/-- An entry is left where it is live, with what was observed of its node, and nothing is left of a node that has no entry. -/
theorem evictStale_prevObs {entry : NodeEntry} (found : state.nodes.lookup node = some entry) :
    (state.evictStale nowMs).prevObs.lookup node =
      if state.isLive nowMs entry then state.prevObs.lookup node else none := by
  have stale : node ∈ state.staleKeys nowMs ↔ state.isLive nowMs entry = false := by
    rw [mem_staleKeys, found]
    simp
  rw [evictStale, lookup_drop]
  cases live : state.isLive nowMs entry with
  | true => rw [if_neg (by rw [stale, live]; exact Bool.noConfusion), if_pos rfl]
  | false => rw [if_pos (stale.mpr live), if_neg Bool.false_ne_true]

theorem evictStale_absent (none : state.nodes.lookup node = none) :
    (state.evictStale nowMs).prevObs.lookup node = state.prevObs.lookup node := by
  have kept : node ∉ state.staleKeys nowMs := by
    rw [mem_staleKeys, none]
    simp
  rw [evictStale, lookup_drop, if_neg kept]

theorem isLive_iff {entry : NodeEntry} : state.isLive nowMs entry = true ↔ nowMs - entry.lastSeen ≤ state.windowMs := by
  rw [isLive, decide_eq_true_eq]
  omega

end Alignment

namespace Report
variable {windowMs : Int} {node : Node} {history : List Report} {report next : Report}

theorem stands_now (windowMs : Int) (past : List Report) (report : Report) :
    Stands windowMs report.node (past ++ [report]) report := ⟨rfl, Since.now past rfl⟩

/-- Another report stands after one more if it stood before and is not ended. -/
theorem stands_snoc_iff (other : next.node ≠ node) : Stands windowMs node (history ++ [next]) report ↔
    Stands windowMs node history report ∧ next.nowMs - report.nowMs ≤ windowMs := by
  rw [Stands, Stands, Since.snoc_iff, and_assoc]
  refine and_congr_right fun own => ?_
  have different : next ≠ report := fun same => other (same ▸ own)
  have quiet : ¬ Ends windowMs report next ↔ next.nowMs - report.nowMs ≤ windowMs := by
    rw [Ends, not_or, own, not_lt]
    exact and_iff_right other
  rw [quiet]
  exact or_iff_right different

theorem Stands.mem (stands : Stands windowMs node history report) : report ∈ history := by
  obtain ⟨_, past, _, later, rfl, rfl, _⟩ := stands
  exact List.mem_append_right _ List.mem_cons_self

/-- At most one report stands for a node. -/
theorem Stands.unique {another : Report} (one : Stands windowMs node history report)
    (two : Stands windowMs node history another) : report = another := by
  induction history using List.reverseRecOn generalizing report another with
  | nil =>
    obtain ⟨_, past, first, later, empty, _⟩ := one
    exact absurd empty.symm (by simp)
  | append_singleton past last ih =>
    by_cases own : last.node = node
    · have atLast {kept : Report} (stands : Stands windowMs node (past ++ [last]) kept) : last = kept :=
        (Since.snoc_cases stands.2).elim id fun since => absurd (.inl (own.trans stands.1.symm)) since.2
      exact (atLast one).symm.trans (atLast two)
    · exact ih ((stands_snoc_iff own).mp one).1 ((stands_snoc_iff own).mp two).1

end Report

namespace Alignment
open Report (Stands Ends)
variable {state : Alignment} {node localNode : Node} {nowMs windowMs : Int} {history : List Report} {report : Report}

/-- What is known of nodes after reports. -/
structure Traces (windowMs : Int) (history : List Report) (state : Alignment) : Prop where
  window : state.windowMs = windowMs
  known {node : Node} {entry : NodeEntry} : state.nodes.lookup node = some entry → ∃ report,
    Stands windowMs node history report ∧ entry.offsetNs = report.offsetNs ∧ entry.lastSeen = report.nowMs ∧
      state.prevObs.lookup node = some (report.offsetNs, report.localNs)
  gone {node : Node} : state.nodes.lookup node = none →
    state.prevObs.lookup node = none ∧ ∀ report, ¬ Stands windowMs node history report

/-- What is left of a node at the time of a next report. -/
theorem Traces.evicted (traces : Traces windowMs history state) (nowMs : Int) (node : Node) :
    (∃ report entry, Stands windowMs node history report ∧ nowMs - report.nowMs ≤ windowMs ∧
      entry.offsetNs = report.offsetNs ∧ entry.lastSeen = report.nowMs ∧
      (state.evictStale nowMs).nodes.lookup node = some entry ∧
      (state.evictStale nowMs).prevObs.lookup node = some (report.offsetNs, report.localNs)) ∨
    ((∀ report, Stands windowMs node history report → windowMs < nowMs - report.nowMs) ∧
      (state.evictStale nowMs).nodes.lookup node = none ∧ (state.evictStale nowMs).prevObs.lookup node = none) := by
  cases found : state.nodes.lookup node with
  | none =>
    obtain ⟨unobserved, absent⟩ := traces.gone found
    refine .inr ⟨fun report stands => absurd stands (absent report), ?_, (evictStale_absent found).trans unobserved⟩
    rw [evictStale_nodes, found]
    rfl
  | some entry =>
    obtain ⟨report, stands, offset, seen, observed⟩ := traces.known found
    have live : state.isLive nowMs entry = true ↔ nowMs - report.nowMs ≤ windowMs := by
      rw [isLive_iff, seen, traces.window]
    by_cases late : windowMs < nowMs - report.nowMs
    · have stale : state.isLive nowMs entry = false := Bool.eq_false_iff.mpr fun alive => not_lt.mpr (live.mp alive) late
      refine .inr ⟨fun other standing => standing.unique stands ▸ late, ?_, ?_⟩
      · rw [evictStale_nodes, found, Option.filter_some_neg stale]
      · rw [evictStale_prevObs found, stale, if_neg Bool.false_ne_true]
    · have alive := live.mpr (not_lt.mp late)
      refine .inl ⟨report, entry, stands, not_lt.mp late, offset, seen, ?_, ?_⟩
      · rw [evictStale_nodes, found, Option.filter_some_pos alive]
      · rw [evictStale_prevObs found, alive, if_pos rfl, observed]

theorem Traces.reported (traces : Traces windowMs history state) (next : Report) :
    Traces windowMs (history ++ [next]) (state.reportNodeSync next) where
  window := traces.window
  known {node entry} found := by
    simp only [reportNodeSync, FiniteMap.lookup_insert_if] at found ⊢
    by_cases own : node = next.node
    · subst own
      rw [if_pos rfl] at found ⊢
      cases found
      exact ⟨next, Report.stands_now windowMs history next, rfl, rfl, rfl⟩
    · rw [if_neg own] at found ⊢
      rcases traces.evicted next.nowMs node with
        ⟨report, kept, stands, inTime, offset, seen, there, observed⟩ | ⟨_, absent, _⟩
      · cases there.symm.trans found
        exact ⟨report, (Report.stands_snoc_iff (Ne.symm own)).mpr ⟨stands, inTime⟩, offset, seen, observed⟩
      · cases absent.symm.trans found
  gone {node} none := by
    simp only [reportNodeSync, FiniteMap.lookup_insert_if] at none ⊢
    by_cases own : node = next.node
    · rw [if_pos own] at none
      cases none
    · rw [if_neg own] at none ⊢
      rcases traces.evicted next.nowMs node with ⟨_, _, _, _, _, _, there, _⟩ | ⟨late, _, unobserved⟩
      · cases there.symm.trans none
      · refine ⟨unobserved, fun report stands => ?_⟩
        obtain ⟨before, inTime⟩ := (Report.stands_snoc_iff (Ne.symm own)).mp stands
        exact absurd (late report before) (not_lt.mpr inTime)

theorem aligned_snoc (localNode : Node) (windowMs : Int) (history : List Report) (report : Report) :
    aligned localNode windowMs (history ++ [report]) = (aligned localNode windowMs history).reportNodeSync report := by
  rw [aligned, List.foldl_append]
  rfl

theorem aligned_traces (localNode : Node) (windowMs : Int) (history : List Report) :
    Traces windowMs history (aligned localNode windowMs history) := by
  induction history using List.reverseRecOn with
  | nil =>
    refine ⟨rfl, fun found => (by cases found), fun _ => ⟨rfl, fun report stands => ?_⟩⟩
    obtain ⟨_, past, first, later, empty, _⟩ := stands
    exact absurd empty.symm (by simp)
  | append_singleton past last ih =>
    rw [aligned_snoc]
    exact ih.reported last

theorem aligned_localNode (localNode : Node) (windowMs : Int) (history : List Report) :
    (aligned localNode windowMs history).localNode = localNode := by
  induction history using List.reverseRecOn with
  | nil => rfl
  | append_singleton past last ih =>
    rw [aligned_snoc]
    exact ih

/-- The offset of a node is that of its last report, as long as no report of any node came too late after this one. -/
theorem playout_offset_iff (remote : node ≠ localNode) {offsetNs : Int} :
    (aligned localNode windowMs history).playoutOffsetNs node = .ok offsetNs ↔
      ∃ report, Stands windowMs node history report ∧ offsetNs = report.wallNs - report.localNs := by
  have traces := aligned_traces localNode windowMs history
  rw [playoutOffsetNs, aligned_localNode, if_neg remote]
  cases found : (aligned localNode windowMs history).nodes.lookup node with
  | none =>
    refine ⟨fun answer => (by cases answer), ?_⟩
    rintro ⟨report, stands, _⟩
    exact absurd stands ((traces.gone found).2 report)
  | some entry =>
    obtain ⟨report, stands, offset, _, _⟩ := traces.known found
    constructor
    · intro answer
      cases answer
      exact ⟨report, stands, offset⟩
    · rintro ⟨other, standing, rfl⟩
      cases standing.unique stands
      exact congrArg Except.ok offset

theorem peer_offset : (aligned "here" 30000 [⟨"peer", 1005, 1000, 0⟩]).playoutOffsetNs "peer" = .ok 5 :=
  (playout_offset_iff (by decide)).mpr ⟨⟨"peer", 1005, 1000, 0⟩, Report.stands_now 30000 [] _, rfl⟩

theorem Traces.stays {next : Report} (traces : Traces windowMs history state) (stands : Stands windowMs node history report)
    (quiet : ¬ Ends windowMs report next) : (state.reportNodeSync next).nodes.lookup node = state.nodes.lookup node := by
  obtain ⟨other, inTime⟩ := not_or.mp quiet
  rw [stands.1] at other
  cases found : state.nodes.lookup node with
  | none => exact absurd stands ((traces.gone found).2 report)
  | some entry =>
    obtain ⟨own, standing, _, seen, _⟩ := traces.known found
    cases standing.unique stands
    have alive : (state.isLive next.nowMs) entry = true := by
      rw [isLive_iff, seen, traces.window]
      exact not_lt.mp inTime
    simp only [reportNodeSync]
    rw [FiniteMap.lookup_insert_if, if_neg (Ne.symm other), evictStale_nodes, found, Option.filter_some_pos alive]

theorem aligned_stays {later : List Report} (stands : Stands windowMs node history report)
    (quiet : ∀ next ∈ later, ¬ Ends windowMs report next) :
    (aligned localNode windowMs (history ++ later)).nodes.lookup node =
      (aligned localNode windowMs history).nodes.lookup node := by
  induction later using List.reverseRecOn with
  | nil => rw [List.append_nil]
  | append_singleton past last ih =>
    have before : ∀ next ∈ past, ¬ Ends windowMs report next := fun next member =>
      quiet next (List.mem_append_left _ member)
    have standing : Stands windowMs node (history ++ past) report := by
      obtain ⟨own, front, first, back, rfl, same, calm⟩ := stands
      refine ⟨own, front, first, back ++ past, by simp, same, fun other member => ?_⟩
      exact (List.mem_append.mp member).elim (calm other) (before other)
    rw [← List.append_assoc, aligned_snoc, (aligned_traces ..).stays standing (quiet last (by simp)), ih before]

/-- The drift of a node is taken between its last report and the one that stood when this came, where that was in time. -/
theorem drift_reported (history : List Report) (remote : report.node ≠ localNode) {later : List Report}
    (quiet : ∀ next ∈ later, ¬ Ends windowMs report next) :
    ∃ drift, (aligned localNode windowMs (history ++ report :: later)).nodeDriftPpm report.node = .ok drift ∧
      ((∃ previous, Stands windowMs report.node history previous ∧ report.nowMs - previous.nowMs ≤ windowMs ∧
          drift = driftBetween (previous.offsetNs, previous.localNs) report.offsetNs report.localNs) ∨
        ((∀ previous, Stands windowMs report.node history previous → windowMs < report.nowMs - previous.nowMs) ∧
          drift = 0)) := by
  have answer {entry : NodeEntry}
      (found : (aligned localNode windowMs (history ++ [report])).nodes.lookup report.node = some entry) :
      (aligned localNode windowMs (history ++ report :: later)).nodeDriftPpm report.node = .ok entry.driftPpm := by
    rw [nodeDriftPpm, aligned_localNode, if_neg remote, List.append_cons,
      aligned_stays (Report.stands_now windowMs history report) quiet, found]
  rw [aligned_snoc] at answer
  simp only [reportNodeSync, FiniteMap.lookup_insert_if, if_pos] at answer
  refine ⟨_, answer rfl, ?_⟩
  rcases (aligned_traces localNode windowMs history).evicted report.nowMs report.node with
    ⟨previous, _, stands, inTime, _, _, _, observed⟩ | ⟨late, _, unobserved⟩
  · rw [observed]
    exact .inl ⟨previous, stands, inTime, rfl⟩
  · rw [unobserved]
    exact .inr ⟨late, rfl⟩

/-- Two readings of a clock that drifts steadily show its drift. -/
theorem driftBetween_steady {first second : Report} {start ppm : Rat} (rises : first.localNs < second.localNs)
    (one : (first.wallNs : Rat) = start + first.localNs * (1 + ppm / 1000000))
    (two : (second.wallNs : Rat) = start + second.localNs * (1 + ppm / 1000000)) :
    driftBetween (first.offsetNs, first.localNs) second.offsetNs second.localNs = ClockCorrelator.roundPlaces ppm := by
  have elapsed : ((second.localNs - first.localNs : Int) : Rat) ≠ 0 := Int.cast_ne_zero.mpr (by omega)
  have gained : ((second.offsetNs - first.offsetNs : Int) : Rat) =
      (second.localNs - first.localNs : Int) * (ppm / 1000000) := by
    simp only [Report.offsetNs]
    push_cast
    rw [one, two]
    ring
  simp only [driftBetween]
  rw [if_pos (by omega), gained, mul_div_cancel_left₀ _ elapsed, div_mul_cancel₀ _ (by norm_num)]

end Alignment
end Burble.Timing
