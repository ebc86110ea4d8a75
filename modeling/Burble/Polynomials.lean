import Mathlib.Algebra.BigOperators.Intervals
import Mathlib.Algebra.Polynomial.Coeff
import Mathlib.Data.List.GetD

namespace Burble
universe u
open Polynomial
variable {R : Type u} [Semiring R]

/-- The polynomial with these coefficients, the constant one first. -/
noncomputable def polynomialOf (coefficients : List R) : R[X] :=
  ∑ k ∈ Finset.range coefficients.length, monomial k (coefficients.getD k 0)

theorem coeff_polynomialOf (coefficients : List R) (n : ℕ) : (polynomialOf coefficients).coeff n = coefficients.getD n 0 := by
  rw [polynomialOf, finsetSum_coeff]
  simp only [coeff_monomial, Finset.sum_ite_eq', Finset.mem_range]
  split
  next => rfl
  next outside => exact (List.getD_eq_default _ _ (Nat.not_lt.mp outside)).symm

/-- A coefficient of a product is a sum over the places where both factors have one. -/
theorem coeff_product (a b : List R) (n : ℕ) : (polynomialOf a * polynomialOf b).coeff n =
    ∑ k ∈ Finset.Ico (n + 1 - b.length) (min (n + 1) a.length), a.getD k 0 * b.getD (n - k) 0 := by
  rw [coeff_mul, Finset.Nat.sum_antidiagonal_eq_sum_range_succ_mk]
  simp only [coeff_polynomialOf, Finset.range_eq_Ico]
  refine (Finset.sum_subset (fun k inside => ?_) fun k below outside => ?_).symm
  · simp only [Finset.mem_Ico, lt_min_iff] at inside ⊢
    omega
  · simp only [Finset.mem_Ico, lt_min_iff, not_and, not_lt] at below outside
    by_cases short : k < n + 1 - b.length
    · rw [List.getD_eq_default b _ (by omega), mul_zero]
    · rw [List.getD_eq_default a _ (by omega), zero_mul]

/-- The first coefficients of the product of two polynomials. -/
noncomputable def productCoefficients (count : ℕ) (a b : List R) : List R :=
  (List.range count).map (polynomialOf a * polynomialOf b).coeff

@[simp] theorem productCoefficients_length (count : ℕ) (a b : List R) : (productCoefficients count a b).length = count := by
  rw [productCoefficients, List.length_map, List.length_range]

theorem productCoefficients_succ (count : ℕ) (a b : List R) :
    productCoefficients (count + 1) a b = productCoefficients count a b ++ [(polynomialOf a * polynomialOf b).coeff count] := by
  rw [productCoefficients, List.range_succ, List.map_append]
  rfl

end Burble
