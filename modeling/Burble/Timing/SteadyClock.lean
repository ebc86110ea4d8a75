import Burble.Regression
import Burble.Timing.ClockCorrelator

namespace Burble.Timing

/-- The sums over sync points, of ticks and wall times. -/
def regressionSums (points : List (Int × Int)) : Int × Int × Int × Int :=
  points.foldl (fun (sx, sy, sxx, sxy) (x, y) => (sx + x, sy + y, sxx + x * x, sxy + x * y)) (0, 0, 0, 0)

/-- `wall_ns = intercept + slope * unwrapped_rtp`, or nothing with fewer than two points. -/
def linearRegression (points : List (Int × Int)) : Option (Line Rat) :=
  match points with
  | [] => none
  | [_] => none
  | points =>
    let n := points.length
    let (sumX, sumY, sumXX, sumXY) := regressionSums points
    let denom := n * sumXX - sumX * sumX
    if denom = 0 then some ⟨0, sumY / n⟩
    else
      let slope : Rat := (n * sumXY - sumX * sumY : Int) / denom
      some ⟨slope, (sumY - slope * sumX) / n⟩

inductive ClockError
  | noSyncPoints
  | insufficientData
  deriving DecidableEq, Repr

namespace ClockCorrelator

def idealNsPerTick (state : ClockCorrelator) : Rat := 1000000000 / state.clockRate

/-- The wall time of a tick, by the clock rate from the newest point where there is no other. -/
def applyRegressionRtpToWall (unwrapped : Int) (anchor : Int × Int) (state : ClockCorrelator) : Int :=
  match linearRegression state.syncPoints with
  | some line => roundAway (line.intercept + line.slope * unwrapped)
  | none => roundAway (anchor.2 + (unwrapped - anchor.1 : Int) * state.idealNsPerTick)

def fromAnchor (wallNs : Int) (anchor : Int × Int) (state : ClockCorrelator) : Int :=
  (anchor.1 + roundAway ((wallNs - anchor.2 : Int) / state.idealNsPerTick)) % rtpWraparound

def applyRegressionWallToRtp (wallNs : Int) (anchor : Int × Int) (state : ClockCorrelator) : Int :=
  match linearRegression state.syncPoints with
  | some line =>
    if line.slope ≠ 0 then roundAway ((wallNs - line.intercept) / line.slope) % rtpWraparound
    else state.fromAnchor wallNs anchor
  | none => state.fromAnchor wallNs anchor

def rtpToWall (state : ClockCorrelator) (rtpTs : Int) : Except ClockError Int :=
  match state.syncPoints with
  | [] => .error .noSyncPoints
  | anchor :: _ => .ok (state.applyRegressionRtpToWall (unwrapRtp rtpTs state).1 anchor)

def wallToRtp (state : ClockCorrelator) (wallNs : Int) : Except ClockError Int :=
  match state.syncPoints with
  | [] => .error .noSyncPoints
  | anchor :: _ => .ok (state.applyRegressionWallToRtp wallNs anchor)

/-- `Float.round` to three places. -/
def roundPlaces (value : Rat) : Rat := roundAway (value * 1000) / 1000

def driftPpm (state : ClockCorrelator) : Except ClockError Rat :=
  match linearRegression state.syncPoints with
  | some line => .ok (roundPlaces ((line.slope - state.idealNsPerTick) / state.idealNsPerTick * 1000000))
  | none => .error .insufficientData

end ClockCorrelator

section Sums

/-- A sync point as a point of the plane. -/
def planar (point : Int × Int) : Rat × Rat := (point.1, point.2)

theorem regressionSums_foldl (points : List (Int × Int)) (sx sy sxx sxy : Int) :
    let sums := points.foldl (fun (sx, sy, sxx, sxy) (x, y) => (sx + x, sy + y, sxx + x * x, sxy + x * y)) (sx, sy, sxx, sxy)
    let exact := moments (points.map planar)
    ((sums.1 : Rat) = sx + exact.x ∧ (sums.2.1 : Rat) = sy + exact.y) ∧
      (sums.2.2.1 : Rat) = sxx + exact.xx ∧ (sums.2.2.2 : Rat) = sxy + exact.xy := by
  induction points generalizing sx sy sxx sxy with
  | nil => simp [moments]
  | cons point points ih =>
    obtain ⟨⟨x, y⟩, xx, xy⟩ := ih (sx + point.1) (sy + point.2) (sxx + point.1 * point.1) (sxy + point.1 * point.2)
    simp only [List.foldl_cons, x, y, xx, xy]
    simp only [moments, planar, List.map_cons, List.sum_cons, Int.cast_add, Int.cast_mul]
    exact ⟨⟨by ring, by ring⟩, by ring, by ring⟩

theorem regressionSums_eq (points : List (Int × Int)) :
    (((regressionSums points).1 : Rat) = (moments (points.map planar)).x ∧
        ((regressionSums points).2.1 : Rat) = (moments (points.map planar)).y) ∧
      ((regressionSums points).2.2.1 : Rat) = (moments (points.map planar)).xx ∧
      ((regressionSums points).2.2.2 : Rat) = (moments (points.map planar)).xy := by
  have sums := regressionSums_foldl points 0 0 0 0
  simp only [Int.cast_zero, zero_add] at sums
  exact sums

end Sums

theorem linearRegression_of_two {points : List (Int × Int)} (two : 2 ≤ points.length) : linearRegression points =
    if points.length * (regressionSums points).2.2.1 - (regressionSums points).1 * (regressionSums points).1 = 0 then
      some ⟨0, (regressionSums points).2.1 / points.length⟩
    else
      let slope : Rat := (points.length * (regressionSums points).2.2.2 - (regressionSums points).1 * (regressionSums points).2.1 : Int) /
        (points.length * (regressionSums points).2.2.1 - (regressionSums points).1 * (regressionSums points).1 : Int)
      some ⟨slope, ((regressionSums points).2.1 - slope * (regressionSums points).1) / points.length⟩ := by
  obtain _ | ⟨first, _ | ⟨second, rest⟩⟩ := points
  · simp at two
  · simp at two
  · rfl

theorem two_of_linearRegression {points : List (Int × Int)} {line : Line Rat}
    (fitted : linearRegression points = some line) : 2 ≤ points.length := by
  obtain _ | ⟨first, _ | ⟨second, rest⟩⟩ := points
  · cases fitted
  · cases fitted
  · simp

theorem linearRegression_some {points : List (Int × Int)} (two : 2 ≤ points.length) :
    ∃ line, linearRegression points = some line := by
  rw [linearRegression_of_two two]
  split
  · exact ⟨_, rfl⟩
  · exact ⟨_, rfl⟩

theorem spread_planar (points : List (Int × Int)) : spread (points.map planar) =
    (points.length * (regressionSums points).2.2.1 - (regressionSums points).1 * (regressionSums points).1 : Int) := by
  obtain ⟨⟨x, _⟩, xx, _⟩ := regressionSums_eq points
  rw [spread, ← x, ← xx, List.length_map]
  push_cast
  rfl

/-- The line meets the normal equations, also where all points are at one tick. -/
theorem linearRegression_fits {points : List (Int × Int)} {line : Line Rat} (fitted : linearRegression points = some line) :
    line.Fits (points.map planar) := by
  have two := two_of_linearRegression fitted
  have some : ((points.map planar).length : Rat) ≠ 0 := by
    rw [List.length_map]
    exact Nat.cast_ne_zero.mpr (by omega)
  obtain ⟨⟨x, y⟩, xx, xy⟩ := regressionSums_eq points
  have sums := spread_planar points
  rw [linearRegression_of_two two] at fitted
  split at fitted
  next flat =>
    rw [flat, Int.cast_zero] at sums
    cases fitted
    have mean := fits_mean (fun point member => places_eq_of_spread some sums member) some
    rwa [List.length_map, ← y] at mean
  next apart =>
    have fits := fits_of_spread some (by rw [sums]; exact_mod_cast apart) rfl
    cases fitted
    rw [List.length_map, sums, ← x, ← y, ← xy] at fits
    convert fits using 3 <;> push_cast <;> rfl

/-- Rounding moves a value by half at most. -/
theorem roundAway_near (value : Rat) : |(roundAway value : Rat) - value| ≤ 1 / 2 := by
  rw [roundAway, abs_le]
  split
  · have below := Int.floor_le (value + 1 / 2)
    have above := Int.lt_floor_add_one (value + 1 / 2)
    constructor <;> linarith
  · have below := Int.ceil_lt_add_one (value - 1 / 2)
    have above := Int.le_ceil (value - 1 / 2)
    constructor <;> linarith

section Recording
variable {clockRate : Rat} {first : Int} {last : Int × Int} {before points : List (Int × Int)} {state : ClockCorrelator}

theorem two_of_ne {Item : Type} {items : List Item} {one two : Item} (oneMem : one ∈ items) (twoMem : two ∈ items)
    (different : one ≠ two) : 2 ≤ items.length := by
  obtain _ | ⟨item, _ | ⟨other, rest⟩⟩ := items
  · cases oneMem
  · exact absurd ((List.mem_singleton.mp oneMem).trans (List.mem_singleton.mp twoMem).symm) different
  · simp

/-- The window and the anchor after any number of sync points. -/
theorem Exact.run (exact : Exact clockRate first last before state) (chain : (last :: points).IsChain (Follows clockRate)) :
    Exact clockRate first ((last :: points).getLast (List.cons_ne_nil last points))
      ((last :: points).dropLast.reverse ++ before) (Timing.recordAll state points) := by
  induction points generalizing last before state with
  | nil => exact exact
  | cons point rest ih =>
    obtain ⟨follows, later⟩ := List.isChain_cons_cons.mp chain
    have whole := ih (exact.step follows) later
    rwa [List.dropLast_cons_of_ne_nil (List.cons_ne_nil point rest), List.reverse_cons, List.append_assoc,
      List.getLast_cons (List.cons_ne_nil point rest)]

theorem recordAll_exact (first : Int × Int) (chain : (first :: points).IsChain (Follows clockRate)) :
    ∃ before, (first :: points).getLast (List.cons_ne_nil first points) :: before = (first :: points).reverse ∧
      Exact clockRate first.1 ((first :: points).getLast (List.cons_ne_nil first points)) before
        (recordAll (init clockRate) (first :: points)) := by
  refine ⟨(first :: points).dropLast.reverse, ?_, ?_⟩
  · rw [← List.reverse_concat, List.dropLast_append_getLast]
  · have run := (exact_first clockRate first).run chain
    rwa [List.append_nil] at run

end Recording

section Steady
variable {clockRate : Rat} {first : Int} {last one two : Int × Int} {before : List (Int × Int)} {state : ClockCorrelator}
  {clock : Line Rat}

/-- The line of a clock over the unwrapped ticks. -/
def unwrappedLine (first : Int) (clock : Line Rat) : Line Rat :=
  ⟨clock.slope, clock.intercept - clock.slope * (first % rtpWraparound - first : Int)⟩

theorem unwrappedLine_height (first tick wall : Int) (clock : Line Rat) :
    (unwrappedLine first clock).height (unwrappedTicks first (tick, wall) : Rat) = clock.height tick := by
  simp only [Line.height, unwrappedLine, unwrappedTicks]
  push_cast
  ring

/-- The regression finds the line of a steady clock. -/
theorem Exact.regression (exact : Exact clockRate first last before state)
    (steady : ∀ point ∈ last :: before, (point.2 : Rat) = clock.height point.1)
    (oneMem : one ∈ (last :: before).take 64) (twoMem : two ∈ (last :: before).take 64) (different : one.1 ≠ two.1) :
    linearRegression state.syncPoints = some (unwrappedLine first clock) := by
  have window : state.syncPoints = ((last :: before).take 64).map fun point => (unwrappedTicks first point, point.2) := by
    rw [exact.points, List.map_take]
  have member {point : Int × Int} (there : point ∈ (last :: before).take 64) :
      planar (unwrappedTicks first point, point.2) ∈ state.syncPoints.map planar := by
    rw [window]
    exact List.mem_map_of_mem (List.mem_map_of_mem there)
  have apart : (planar (unwrappedTicks first one, one.2)).1 ≠ (planar (unwrappedTicks first two, two.2)).1 := by
    simp only [planar, unwrappedTicks]
    exact_mod_cast fun same => different (by omega)
  have through (point : Rat × Rat) (there : point ∈ state.syncPoints.map planar) :
      (unwrappedLine first clock).off point = 0 := by
    rw [window, List.map_map] at there
    obtain ⟨point, among, rfl⟩ := List.mem_map.mp there
    simp only [Function.comp, planar, Line.off]
    rw [unwrappedLine_height first point.1 point.2 clock, steady point (List.mem_of_mem_take among), sub_self]
  have two : 2 ≤ state.syncPoints.length := by
    rw [← List.length_map (f := planar)]
    exact two_of_ne (member oneMem) (member twoMem) fun same => apart (congrArg Prod.fst same)
  obtain ⟨line, fitted⟩ := linearRegression_some two
  rw [fitted, (linearRegression_fits fitted).unique through (member oneMem) (member twoMem) apart]

theorem roundAway_shifted {value : Rat} {wall : Int} {rate : Rat} (tick : Int) (steep : 1 < |rate|)
    (near : |(wall : Rat) - value| ≤ 1 / 2) : roundAway (((wall : Rat) - value) / rate + tick) = tick := by
  refine roundAway_eq ?_
  rw [add_sub_cancel_right, abs_div, div_lt_iff₀ (by linarith)]
  linarith

end Steady

end Burble.Timing
