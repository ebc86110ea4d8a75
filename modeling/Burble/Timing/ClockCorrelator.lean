import Mathlib.Algebra.Order.Round
import Mathlib.Data.Rat.Floor
import Mathlib.Data.List.Chain
import Mathlib.Tactic.FieldSimp
import Mathlib.Tactic.Linarith

namespace Burble.Timing

def rtpWraparound : Int := 4294967296

/-- The raw value of the first sync point and the last unwrapped one: both are there from the first point on. -/
structure Anchor where
  firstRtpRaw : Int
  lastUnwrapped : Int
  deriving DecidableEq

/-- A correlator, with the newest sync point first. -/
structure ClockCorrelator where
  clockRate : Rat
  syncPoints : List (Int × Int)
  maxPoints : Nat
  anchor : Option Anchor
  deriving DecidableEq

def init (clockRate : Rat) : ClockCorrelator where
  clockRate := clockRate
  syncPoints := []
  maxPoints := 64
  anchor := none

/-- `round/1`: to the nearest integer, and away from zero between two of them. -/
def roundAway (value : Rat) : Int := if 0 ≤ value then ⌊value + 1 / 2⌋ else ⌈value - 1 / 2⌉

section Unwrapping

/-- A difference of values below the wraparound, as one of at most half of it. -/
def wrapDiff (rawDiff : Int) : Int :=
  if rawDiff < -(rtpWraparound / 2) then rawDiff + rtpWraparound
  else if rawDiff > rtpWraparound / 2 then rawDiff - rtpWraparound
  else rawDiff

def unwrapRtp (rtpTs : Int) (state : ClockCorrelator) : Int × ClockCorrelator :=
  match state.anchor with
  | none => (rtpTs, { state with anchor := some ⟨rtpTs, rtpTs⟩ })
  | some anchor =>
    let unwrapped := anchor.lastUnwrapped + wrapDiff (rtpTs - anchor.lastUnwrapped % rtpWraparound)
    (unwrapped, { state with anchor := some { anchor with lastUnwrapped := unwrapped } })

/-- The whole wraps that the wall clock says have been skipped. -/
def wholeWraps (clockRate : Rat) (unwrapped prevUnwrapped wallNs prevWall : Int) : Int :=
  let expectedTicks : Rat := (wallNs - prevWall : Int) * clockRate / 1000000000
  let actualTicks : Int := unwrapped - prevUnwrapped
  roundAway ((expectedTicks - actualTicks) / rtpWraparound)

def correctWraps (unwrapped wallNs : Int) (state : ClockCorrelator) : Int × ClockCorrelator :=
  match state.syncPoints with
  | (prevUnwrapped, prevWall) :: _ =>
    if wallNs > prevWall then
      let corrected := unwrapped + wholeWraps state.clockRate unwrapped prevUnwrapped wallNs prevWall * rtpWraparound
      (corrected, { state with anchor := state.anchor.map fun anchor => { anchor with lastUnwrapped := corrected } })
    else (unwrapped, state)
  | [] => (unwrapped, state)

def recordSyncPoint (state : ClockCorrelator) (rtpTs wallNs : Int) : ClockCorrelator :=
  let (unwrapped, newState) := unwrapRtp rtpTs state
  let (corrected, newState) := correctWraps unwrapped wallNs newState
  { newState with syncPoints := ((corrected, wallNs) :: newState.syncPoints).take newState.maxPoints }

end Unwrapping

end Burble.Timing

namespace Burble.Timing

section Rounding

/-- What is less than half away from an integer is rounded to it. -/
theorem roundAway_eq {value : Rat} {nearest : Int} (close : |value - nearest| < 1 / 2) : roundAway value = nearest := by
  obtain ⟨above, below⟩ := abs_lt.mp close
  rw [roundAway]
  split
  · rw [Int.floor_eq_iff]
    constructor <;> linarith
  · rw [Int.ceil_eq_iff]
    constructor <;> linarith

end Rounding

section Wraps

/-- The difference of two raw values is that of their ticks, up to whole wraps. -/
theorem wrapDiff_ticks (ticks last : Int) : ∃ wraps,
    wrapDiff (ticks % rtpWraparound - last % rtpWraparound) = ticks - last - wraps * rtpWraparound := by
  have split := Int.emod_add_mul_ediv ticks rtpWraparound
  have split' := Int.emod_add_mul_ediv last rtpWraparound
  rw [wrapDiff]
  split_ifs
  · exact ⟨ticks / rtpWraparound - last / rtpWraparound - 1, by linarith⟩
  · exact ⟨ticks / rtpWraparound - last / rtpWraparound + 1, by linarith⟩
  · exact ⟨ticks / rtpWraparound - last / rtpWraparound, by linarith⟩

theorem wrapDiff_near {ticks last : Int} (near : |ticks - last| < rtpWraparound / 2) :
    wrapDiff (ticks % rtpWraparound - last % rtpWraparound) = ticks - last := by
  rw [abs_lt] at near
  simp only [wrapDiff, rtpWraparound] at near ⊢
  omega

end Wraps

/-- The ticks of a sync point after one of the first point, where the raw value of that one was. -/
def unwrappedTicks (first : Int) (point : Int × Int) : Int := point.1 - first + first % rtpWraparound

/-- A sync point after another one: where the wall clock has gone on, it tells the ticks between them to within half a
wrap, and elsewhere there is less than half a wrap between them. -/
def Follows (clockRate : Rat) (last point : Int × Int) : Prop :=
  (point.2 > last.2 ∧ |((point.2 - last.2 : Int) : Rat) * clockRate / 1000000000 - (point.1 - last.1 : Int)| < 2147483648) ∨
  (point.2 ≤ last.2 ∧ |point.1 - last.1| < rtpWraparound / 2)

/-- Ticks and wall times are recorded one after another, of the ticks the raw value. -/
def recordAll (state : ClockCorrelator) (points : List (Int × Int)) : ClockCorrelator :=
  points.foldl (fun state point => recordSyncPoint state (point.1 % rtpWraparound) point.2) state

/-- A correlator that has unwrapped the points it was given, the newest of them first. -/
structure Exact (clockRate : Rat) (first : Int) (last : Int × Int) (before : List (Int × Int)) (state : ClockCorrelator) :
    Prop where
  rate : state.clockRate = clockRate
  window : state.maxPoints = 64
  anchor : state.anchor = some ⟨first % rtpWraparound, unwrappedTicks first last⟩
  points : state.syncPoints = ((last :: before).map fun point => (unwrappedTicks first point, point.2)).take 64

section Steps
variable {clockRate : Rat} {first : Int} {last point : Int × Int} {before : List (Int × Int)} {state : ClockCorrelator}

theorem exact_first (clockRate : Rat) (point : Int × Int) :
    Exact clockRate point.1 point [] (recordSyncPoint (init clockRate) (point.1 % rtpWraparound) point.2) where
  rate := rfl
  window := rfl
  anchor := by
    rw [unwrappedTicks, Int.sub_self, Int.zero_add]
    rfl
  points := by
    rw [List.map_cons, unwrappedTicks, Int.sub_self, Int.zero_add]
    rfl

theorem unwrapped_emod (first : Int) (point : Int × Int) :
    unwrappedTicks first point % rtpWraparound = point.1 % rtpWraparound := by
  rw [unwrappedTicks, Int.add_emod_emod, Int.sub_add_cancel]

/-- The wall clock finds the wraps that the raw values do not show. -/
theorem wholeWraps_eq {wraps diff : Int} (unwrapped : Int) (same : diff = point.1 - last.1 - wraps * rtpWraparound)
    (told : |((point.2 - last.2 : Int) : Rat) * clockRate / 1000000000 - (point.1 - last.1 : Int)| < 2147483648) :
    wholeWraps clockRate (unwrapped + diff) unwrapped point.2 last.2 = wraps := by
  rw [wholeWraps]
  refine roundAway_eq ?_
  have apart : (((point.2 - last.2 : Int) : Rat) * clockRate / 1000000000 - (unwrapped + diff - unwrapped : Int)) /
      rtpWraparound - wraps = (((point.2 - last.2 : Int) : Rat) * clockRate / 1000000000 - (point.1 - last.1 : Int)) / rtpWraparound := by
    rw [same, rtpWraparound]
    push_cast
    ring
  rw [apart, abs_div, div_lt_iff₀ (by rw [rtpWraparound]; norm_num)]
  refine told.trans_eq ?_
  rw [rtpWraparound]
  norm_num

/-- Each sync point is unwrapped to its own ticks, whichever side of half a wrap it is on. -/
theorem Exact.step (exact : Exact clockRate first last before state) (follows : Follows clockRate last point) :
    Exact clockRate first point (last :: before) (recordSyncPoint state (point.1 % rtpWraparound) point.2) := by
  obtain ⟨rate, window, anchor, points⟩ := exact
  obtain ⟨wraps, diff⟩ := wrapDiff_ticks point.1 last.1
  have head : state.syncPoints = (unwrappedTicks first last, last.2) ::
      (before.map fun point => (unwrappedTicks first point, point.2)).take 63 := by
    rw [points, List.map_cons, List.take_succ_cons]
  let unwrapped := unwrappedTicks first last + wrapDiff (point.1 % rtpWraparound - last.1 % rtpWraparound)
  let anchored : ClockCorrelator := { state with anchor := some ⟨first % rtpWraparound, unwrapped⟩ }
  have raw : unwrapRtp (point.1 % rtpWraparound) state = (unwrapped, anchored) := by
    simp only [unwrapRtp, anchor, unwrapped_emod]
    rfl
  -- where the wall clock has gone on it corrects the wraps, and elsewhere there is none to correct
  have corrected : correctWraps unwrapped point.2 anchored = (unwrappedTicks first point,
      { state with anchor := some ⟨first % rtpWraparound, unwrappedTicks first point⟩ }) := by
    rcases follows with ⟨later, told⟩ | ⟨earlier, near⟩
    · have exact : unwrapped + wholeWraps state.clockRate unwrapped (unwrappedTicks first last) point.2 last.2 *
          rtpWraparound = unwrappedTicks first point := by
        rw [rate, wholeWraps_eq (unwrappedTicks first last) diff told]
        simp only [unwrapped, diff, unwrappedTicks]
        ring
      simp only [correctWraps, anchored, head, if_pos later, exact, Option.map_some]
    · have exact : unwrapped = unwrappedTicks first point := by
        simp only [unwrapped, wrapDiff_near near, unwrappedTicks]
        ring
      simp only [correctWraps, anchored, head, if_neg (not_lt.mpr earlier), exact]
  refine ⟨?_, ?_, ?_, ?_⟩
  all_goals simp only [recordSyncPoint, raw, corrected]
  · exact rate
  · exact window
  · rw [window, points, List.map_cons (l := last :: before), List.take_succ_cons, List.take_succ_cons, List.take_take]
    rfl

end Steps

theorem Exact.recordAll {clockRate : Rat} {first : Int} {last : Int × Int} {before points : List (Int × Int)}
    {state : ClockCorrelator} (exact : Exact clockRate first last before state)
    (chain : (last :: points).IsChain (Follows clockRate)) :
    (Timing.recordAll state points).syncPoints =
      ((points.reverse ++ last :: before).map fun point => (unwrappedTicks first point, point.2)).take 64 := by
  induction points generalizing last before state with
  | nil => exact exact.points
  | cons point rest ih =>
    obtain ⟨follows, later⟩ := List.isChain_cons_cons.mp chain
    have whole := ih (exact.step follows) later
    rwa [List.reverse_cons, List.append_assoc]

/-- The unwrapped tick of every sync point in the window is the one that the counter had. -/
theorem unwrapping_exact (clockRate : Rat) (first : Int × Int) (points : List (Int × Int))
    (chain : (first :: points).IsChain (Follows clockRate)) :
    (recordAll (init clockRate) (first :: points)).syncPoints =
      (((first :: points).map fun point => (unwrappedTicks first.1 point, point.2)).reverse).take 64 := by
  have recorded := (exact_first clockRate first).recordAll chain
  rw [recordAll, List.foldl_cons, ← List.map_reverse, List.reverse_cons]
  exact recorded

/-- Three wraps in 268435.456 s at 48 kHz, and then a point that is late. -/
theorem unwrapping_exact_wraps :
    (recordAll (init 48000) [(4294967290, 0), (17179869178, 268435456000000), (17179869100, 268435456000000)]).syncPoints =
      [(17179869100, 268435456000000), (17179869178, 268435456000000), (4294967290, 0)] := by
  have told : Follows 48000 (4294967290, 0) (17179869178, 268435456000000) := .inl ⟨by decide, by norm_num⟩
  have late : Follows 48000 (17179869178, 268435456000000) (17179869100, 268435456000000) := .inr ⟨le_rfl, by decide⟩
  have exact := unwrapping_exact 48000 (4294967290, 0) [(17179869178, 268435456000000), (17179869100, 268435456000000)]
    (.cons_cons told (.cons_cons late (.singleton _)))
  exact exact.trans (by decide)

end Burble.Timing
