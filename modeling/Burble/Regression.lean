import Mathlib.Algebra.BigOperators.Ring.List
import Mathlib.Algebra.Order.BigOperators.Group.List
import Mathlib.Algebra.Order.Field.Basic
import Mathlib.Tactic.FieldSimp
import Mathlib.Tactic.Linarith
import Mathlib.Tactic.LinearCombination
import Mathlib.Tactic.Positivity
import Mathlib.Tactic.Ring

namespace Burble
universe u
variable {F : Type u}

@[ext] structure Line (F : Type u) where
  slope : F
  intercept : F

section Fitting
variable [Field F]

namespace Line

def height (line : Line F) (x : F) : F := line.intercept + line.slope * x

/-- How far a point is above a line. -/
def off (line : Line F) (point : F × F) : F := point.2 - line.height point.1

/-- The sum of the squared distances. -/
def residuals (line : Line F) (points : List (F × F)) : F := (points.map fun point => line.off point ^ 2).sum

/-- The normal equations of a line and points. -/
structure Fits (line : Line F) (points : List (F × F)) : Prop where
  balanced : (points.map line.off).sum = 0
  level : (points.map fun point => point.1 * line.off point).sum = 0

end Line

/-- The sums of the points that a fit is computed from. -/
structure Moments (F : Type u) where
  x : F
  y : F
  xx : F
  xy : F

def moments (points : List (F × F)) : Moments F where
  x := (points.map fun point => point.1).sum
  y := (points.map fun point => point.2).sum
  xx := (points.map fun point => point.1 * point.1).sum
  xy := (points.map fun point => point.1 * point.2).sum

/-- The count times the squared deviations of the places, in one pass. -/
def spread (points : List (F × F)) : F := points.length * (moments points).xx - (moments points).x * (moments points).x

variable {line other : Line F} {points : List (F × F)}

theorem sum_off (line : Line F) (points : List (F × F)) : (points.map line.off).sum =
    (moments points).y - points.length * line.intercept - line.slope * (moments points).x := by
  induction points with
  | nil => simp [moments]
  | cons point points ih =>
    rw [List.map_cons, List.sum_cons, ih]
    simp only [moments, Line.off, Line.height, List.map_cons, List.sum_cons, List.length_cons, Nat.cast_succ]
    ring

theorem sum_mul_off (line : Line F) (points : List (F × F)) : (points.map fun point => point.1 * line.off point).sum =
    (moments points).xy - line.intercept * (moments points).x - line.slope * (moments points).xx := by
  induction points with
  | nil => simp [moments]
  | cons point points ih =>
    rw [List.map_cons, List.sum_cons, ih]
    simp only [moments, Line.off, Line.height, List.map_cons, List.sum_cons]
    ring

/-- The solution of the normal equations. -/
theorem fits_of_spread (some : (points.length : F) ≠ 0) (apart : spread points ≠ 0) {slope : F}
    (slopes : slope = (points.length * (moments points).xy - (moments points).x * (moments points).y) / spread points) :
    Line.Fits ⟨slope, ((moments points).y - slope * (moments points).x) / points.length⟩ points := by
  have scaled : slope * spread points =
      points.length * (moments points).xy - (moments points).x * (moments points).y := by
    rw [slopes, div_mul_cancel₀ _ apart]
  rw [spread] at scaled
  constructor
  · rw [sum_off, mul_div_cancel₀ _ some]
    ring
  · rw [sum_mul_off]
    field_simp
    linear_combination -scaled

/-- The cross terms of another line's distances cancel. -/
theorem Line.Fits.residuals_eq (fits : line.Fits points) (other : Line F) : other.residuals points =
    line.residuals points + (points.map fun point => (line.height point.1 - other.height point.1) ^ 2).sum := by
  have cross : (points.map fun point => (line.height point.1 - other.height point.1) * line.off point).sum = 0 := by
    have split (point : F × F) : (line.height point.1 - other.height point.1) * line.off point =
        (line.intercept - other.intercept) * line.off point + (line.slope - other.slope) * (point.1 * line.off point) := by
      simp only [Line.height]
      ring
    have level := fits.level
    have balanced := fits.balanced
    simp only [split, List.sum_map_add, List.sum_map_mul_left, level]
    rw [show (points.map fun point => line.off point).sum = 0 from balanced]
    ring
  have square (point : F × F) : other.off point ^ 2 = line.off point ^ 2 +
      ((line.height point.1 - other.height point.1) ^ 2 +
        2 * ((line.height point.1 - other.height point.1) * line.off point)) := by
    simp only [Line.off]
    ring
  simp only [Line.residuals, square, List.sum_map_add, List.sum_map_mul_left, cross]
  ring

/-- Points at one place are fitted by their mean. -/
theorem fits_mean {place : F} (same : ∀ point ∈ points, point.1 = place) (some : (points.length : F) ≠ 0) :
    Line.Fits ⟨0, (moments points).y / points.length⟩ points := by
  have balanced : (points.map (Line.off ⟨0, (moments points).y / points.length⟩)).sum = 0 := by
    rw [sum_off, mul_div_cancel₀ _ some]
    ring
  refine ⟨balanced, ?_⟩
  rw [List.map_congr_left fun point member => by rw [same point member], List.sum_map_mul_left]
  exact mul_eq_zero_of_right place balanced

end Fitting

section Least
variable [Field F] [LinearOrder F] [IsStrictOrderedRing F] {line other : Line F} {points : List (F × F)}

theorem sum_squares_nonneg (value : F × F → F) (points : List (F × F)) :
    0 ≤ (points.map fun point => value point ^ 2).sum := by
  refine List.sum_nonneg fun square member => ?_
  obtain ⟨point, _, rfl⟩ := List.mem_map.mp member
  positivity

theorem of_sum_squares {value : F × F → F} (zero : (points.map fun point => value point ^ 2).sum = 0) {point : F × F}
    (member : point ∈ points) : value point = 0 := by
  induction points with
  | nil => cases member
  | cons first points ih =>
    rw [List.map_cons, List.sum_cons] at zero
    have square := sq_nonneg (value first)
    have rest := sum_squares_nonneg value points
    rcases List.mem_cons.mp member with rfl | later
    · exact pow_eq_zero_iff (two_ne_zero) |>.mp (by linarith)
    · exact ih (by linarith) later

/-- No line is closer to the points. -/
theorem Line.Fits.least (fits : line.Fits points) (other : Line F) :
    line.residuals points ≤ other.residuals points := by
  rw [fits.residuals_eq other]
  exact le_add_of_nonneg_right (sum_squares_nonneg (fun point => line.height point.1 - other.height point.1) points)

/-- Lines that meet at two places are one. -/
theorem Line.eq_of_heights {x y : F} (different : x ≠ y) (first : line.height x = other.height x)
    (second : line.height y = other.height y) : line = other := by
  simp only [Line.height] at first second
  have slopes : (line.slope - other.slope) * (x - y) = 0 := by linear_combination first - second
  have slope := sub_eq_zero.mp ((mul_eq_zero.mp slopes).resolve_right (sub_ne_zero.mpr different))
  rw [slope] at first
  exact Line.ext slope (add_right_cancel first)

/-- Points on a line are fitted by no other one. -/
theorem Line.Fits.unique (fits : other.Fits points) (through : ∀ point ∈ points, line.off point = 0) {first second : F × F}
    (firstMem : first ∈ points) (secondMem : second ∈ points) (different : first.1 ≠ second.1) : other = line := by
  have nothing : line.residuals points = 0 := by
    rw [Line.residuals, List.map_congr_left fun point member => by rw [through point member]]
    simp
  have squares := fits.residuals_eq line
  have left := sum_squares_nonneg other.off points
  have right := sum_squares_nonneg (fun point => other.height point.1 - line.height point.1) points
  rw [nothing, Line.residuals] at squares
  have zero : (points.map fun point => (other.height point.1 - line.height point.1) ^ 2).sum = 0 := by linarith
  exact Line.eq_of_heights different (sub_eq_zero.mp (of_sum_squares zero firstMem))
    (sub_eq_zero.mp (of_sum_squares zero secondMem))

theorem spread_eq_deviations (some : (points.length : F) ≠ 0) : spread points = points.length *
    (points.map fun point => (point.1 - (moments points).x / points.length) ^ 2).sum := by
  have expand (point : F × F) : (point.1 - (moments points).x / points.length) ^ 2 = point.1 * point.1 +
      (-(2 * ((moments points).x / points.length)) * point.1 + ((moments points).x / points.length) ^ 2) := by ring
  simp only [expand, List.sum_map_add, List.sum_map_mul_left, List.map_const', List.sum_replicate, nsmul_eq_mul]
  rw [spread]
  change _ = (points.length : F) * ((moments points).xx + (-(2 * ((moments points).x / points.length)) *
    (moments points).x + points.length * ((moments points).x / points.length) ^ 2))
  field_simp
  ring

/-- Without spread the points are at one place. -/
theorem places_eq_of_spread (some : (points.length : F) ≠ 0) (none : spread points = 0) {point : F × F}
    (member : point ∈ points) : point.1 = (moments points).x / points.length := by
  rw [spread_eq_deviations some] at none
  exact sub_eq_zero.mp (of_sum_squares ((mul_eq_zero.mp none).resolve_left some) member)

end Least

end Burble
