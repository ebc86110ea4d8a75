import Mathlib

namespace Burble
open Complex Finset

/-- The powers of the root of unity of a discrete Fourier transform. -/
noncomputable def unityRoot (size k : ℕ) : ℂ := exp (-(2 * Real.pi * k / size : ℝ) * I)

/-- The discrete Fourier transform of the first `size` samples. -/
noncomputable def dft (size : ℕ) (x : ℕ → ℂ) (k : ℕ) : ℂ := ∑ j ∈ range size, x j * unityRoot size (j * k)

theorem unityRoot_zero (size : ℕ) : unityRoot size 0 = 1 := by simp [unityRoot]

theorem unityRoot_add (size j k : ℕ) : unityRoot size (j + k) = unityRoot size j * unityRoot size k := by
  rw [unityRoot, unityRoot, unityRoot, ← exp_add]
  push_cast
  ring_nf

theorem unityRoot_ne_zero (size k : ℕ) : unityRoot size k ≠ 0 := exp_ne_zero _

theorem unityRoot_double (half k : ℕ) : unityRoot (2 * half) (2 * k) = unityRoot half k := by
  have same : 2 * Real.pi * ((2 * k : ℕ) : ℝ) / ((2 * half : ℕ) : ℝ) = 2 * Real.pi * k / half := by
    push_cast
    rw [mul_left_comm, mul_div_mul_left _ _ two_ne_zero]
  rw [unityRoot, unityRoot, same]

theorem unityRoot_half {half : ℕ} (positive : 0 < half) : unityRoot (2 * half) half = -1 := by
  have turn : 2 * Real.pi * (half : ℝ) / ((2 * half : ℕ) : ℝ) = Real.pi := by
    have nonzero : (half : ℝ) ≠ 0 := Nat.cast_ne_zero.mpr positive.ne'
    push_cast
    field_simp
  rw [unityRoot, turn, neg_mul, exp_neg, exp_pi_mul_I]
  norm_num

theorem unityRoot_size {size : ℕ} (positive : 0 < size) (m : ℕ) : unityRoot size (m * size) = 1 := by
  induction m with
  | zero => rw [Nat.zero_mul, unityRoot_zero]
  | succ m ih =>
    have whole : unityRoot size size = 1 := by
      rw [← unityRoot_double, Nat.two_mul size, unityRoot_add, ← Nat.two_mul, unityRoot_half positive]
      norm_num
    rw [Nat.succ_mul, unityRoot_add, ih, whole, one_mul]

theorem dft_zero {size : ℕ} {x : ℕ → ℂ} (silent : ∀ j < size, x j = 0) (k : ℕ) : dft size x k = 0 :=
  sum_eq_zero fun j member => by rw [silent j (mem_range.mp member), zero_mul]

theorem dft_periodic {size : ℕ} (positive : 0 < size) (x : ℕ → ℂ) (k : ℕ) : dft size x (k + size) = dft size x k := by
  refine sum_congr rfl fun j _ => ?_
  rw [Nat.mul_add, unityRoot_add, unityRoot_size positive, mul_one]

theorem dft_mod {size : ℕ} (positive : 0 < size) (x : ℕ → ℂ) (k : ℕ) : dft size x (k % size) = dft size x k := by
  have turns : ∀ m, dft size x (k % size + size * m) = dft size x (k % size) := by
    intro m
    induction m with
    | zero => rfl
    | succ m ih => rw [Nat.mul_succ, ← Nat.add_assoc, dft_periodic positive, ih]
  rw [← turns (k / size), Nat.mod_add_div]

theorem sum_range_double (half : ℕ) (f : ℕ → ℂ) :
    ∑ j ∈ range (2 * half), f j = ∑ j ∈ range half, f (2 * j) + ∑ j ∈ range half, f (2 * j + 1) := by
  induction half with
  | zero => simp
  | succ half ih =>
    rw [Nat.mul_succ, sum_range_succ, sum_range_succ, ih, sum_range_succ, sum_range_succ]
    ring

/-- The transform of twice as many samples from those of the even and the odd ones. -/
theorem dft_double (half : ℕ) (x : ℕ → ℂ) (k : ℕ) :
    dft (2 * half) x k = dft half (fun j => x (2 * j)) k + unityRoot (2 * half) k * dft half (fun j => x (2 * j + 1)) k := by
  rw [dft, sum_range_double, dft, dft, mul_sum]
  congr 1
  · refine sum_congr rfl fun j _ => ?_
    rw [Nat.mul_assoc, unityRoot_double]
  · refine sum_congr rfl fun j _ => ?_
    have split : (2 * j + 1) * k = k + 2 * (j * k) := by ring
    rw [split, unityRoot_add, unityRoot_double]
    ring

theorem dft_upper {half : ℕ} (positive : 0 < half) (x : ℕ → ℂ) (k : ℕ) : dft (2 * half) x (k + half) =
    dft half (fun j => x (2 * j)) k - unityRoot (2 * half) k * dft half (fun j => x (2 * j + 1)) k := by
  rw [dft_double, dft_periodic positive, dft_periodic positive, unityRoot_add, unityRoot_half positive]
  ring

/-- A signal whose transform vanishes is silent. -/
theorem dft_injective (n : ℕ) (x : ℕ → ℂ) (vanishes : ∀ k < 2 ^ n, dft (2 ^ n) x k = 0) : ∀ j < 2 ^ n, x j = 0 := by
  induction n generalizing x with
  | zero =>
    intro j below
    have only : j = 0 := by omega
    have sum := vanishes 0 (by norm_num)
    simpa [dft, unityRoot_zero, only] using sum
  | succ n ih =>
    have double : 2 ^ (n + 1) = 2 * 2 ^ n := Nat.pow_succ'
    have positive : 0 < 2 ^ n := Nat.two_pow_pos n
    rw [double] at vanishes ⊢
    have lower (k : ℕ) (below : k < 2 ^ n) := dft_double (2 ^ n) x k ▸ vanishes k (by omega)
    have upper (k : ℕ) (below : k < 2 ^ n) := dft_upper positive x k ▸ vanishes (k + 2 ^ n) (by omega)
    have evens := ih (fun j => x (2 * j)) fun k below => by
      linear_combination (lower k below + upper k below) / 2
    have odds := ih (fun j => x (2 * j + 1)) fun k below => by
      have scaled : unityRoot (2 * 2 ^ n) k * dft (2 ^ n) (fun j => x (2 * j + 1)) k = 0 := by
        linear_combination (lower k below - upper k below) / 2
      exact (mul_eq_zero.mp scaled).resolve_left (unityRoot_ne_zero _ _)
    intro j below
    rcases Nat.even_or_odd' j with ⟨i, rfl | rfl⟩
    · exact evens i (by omega)
    · exact odds i (by omega)

theorem unityRoot_pow (size j k : ℕ) : unityRoot size (j * k) = unityRoot size j ^ k := by
  induction k with
  | zero => rw [Nat.mul_zero, unityRoot_zero, pow_zero]
  | succ k ih => rw [Nat.mul_succ, unityRoot_add, ih, pow_succ]

theorem unityRoot_mul_conj (size i j : ℕ) : unityRoot size i * starRingEnd ℂ (unityRoot size j) =
    exp ((((j : ℝ) - i) / size : ℝ) * (2 * Real.pi * I)) := by
  rw [unityRoot, unityRoot, ← exp_conj, ← exp_add, map_mul, map_neg, conj_ofReal, conj_I]
  congr 1
  push_cast
  ring

/-- Two different roots of unity stay apart. -/
theorem unityRoot_mul_conj_ne_one {size i j : ℕ} (below : i < size) (below' : j < size) (apart : i ≠ j) :
    unityRoot size i * starRingEnd ℂ (unityRoot size j) ≠ 1 := by
  rw [unityRoot_mul_conj]
  intro one
  obtain ⟨turns, angle⟩ := exp_eq_one_iff.mp one
  have quotient := ofReal_injective ((mul_right_cancel₀ two_pi_I_ne_zero angle).trans (ofReal_intCast turns).symm)
  have nonzero : (size : ℝ) ≠ 0 := Nat.cast_ne_zero.mpr (by omega)
  rw [div_eq_iff nonzero] at quotient
  have whole : (j : ℤ) - i = turns * size := by exact_mod_cast quotient
  have none : turns = 0 := by
    by_contra some
    rcases lt_or_gt_of_ne some with negative | positive
    · nlinarith
    · nlinarith
  rw [none] at whole
  omega

/-- Different frequencies are orthogonal. -/
theorem sum_unityRoot {size i j : ℕ} (below : i < size) (below' : j < size) :
    ∑ k ∈ range size, unityRoot size (i * k) * starRingEnd ℂ (unityRoot size (j * k)) = if i = j then (size : ℂ) else 0 := by
  have positive : 0 < size := by omega
  have powers (k : ℕ) : unityRoot size (i * k) * starRingEnd ℂ (unityRoot size (j * k)) =
      (unityRoot size i * starRingEnd ℂ (unityRoot size j)) ^ k := by
    rw [unityRoot_pow, unityRoot_pow, map_pow, mul_pow]
  rw [sum_congr rfl fun k _ => powers k]
  by_cases same : i = j
  · subst same
    have one : unityRoot size i * starRingEnd ℂ (unityRoot size i) = 1 := by
      rw [unityRoot_mul_conj, sub_self, zero_div, ofReal_zero, zero_mul, exp_zero]
    rw [if_pos rfl, one]
    simp
  · have last : (unityRoot size i * starRingEnd ℂ (unityRoot size j)) ^ size = 1 := by
      rw [← powers, unityRoot_size positive, unityRoot_size positive, map_one, mul_one]
    rw [if_neg same, geom_sum_eq (unityRoot_mul_conj_ne_one below below' same), last, sub_self, zero_div]

/-- The transform of a conjugated transform is the conjugated signal, once for each sample. -/
theorem dft_inverse {size : ℕ} (x : ℕ → ℂ) {j : ℕ} (below : j < size) :
    starRingEnd ℂ (dft size (fun k => starRingEnd ℂ (dft size x k)) j) = size * x j := by
  have each (k : ℕ) : starRingEnd ℂ (starRingEnd ℂ (dft size x k) * unityRoot size (k * j)) =
      ∑ i ∈ range size, x i * (unityRoot size (i * k) * starRingEnd ℂ (unityRoot size (j * k))) := by
    rw [map_mul, starRingEnd_self_apply, dft, sum_mul, Nat.mul_comm k j]
    exact sum_congr rfl fun i _ => mul_assoc _ _ _
  rw [dft, map_sum, sum_congr rfl fun k _ => each k, sum_comm]
  have terms (i : ℕ) (member : i ∈ range size) :
      ∑ k ∈ range size, x i * (unityRoot size (i * k) * starRingEnd ℂ (unityRoot size (j * k))) =
        if i = j then size * x i else 0 := by
    rw [← mul_sum, sum_unityRoot (mem_range.mp member) below]
    split
    · exact mul_comm _ _
    · exact mul_zero _
  rw [sum_congr rfl terms, sum_ite_eq' , if_pos (mem_range.mpr below)]

end Burble
