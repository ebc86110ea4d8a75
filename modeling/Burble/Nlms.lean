import Mathlib

namespace Burble.Nlms
open Finset

/-! Normalised least mean squares: a filter predicts each sample from a window of inputs,
and is corrected by the error times that window. -/

section Filter
variable {R : Type} [Field R] (mu epsilon : R) (taps : ℕ) (x : ℕ → ℕ → R) (c : ℕ → R)

/-- The product of the windows at two times. -/
def product (m n : ℕ) : R := ∑ k ∈ range taps, x m k * x n k

/-- The weights before each sample. -/
def weights : ℕ → ℕ → R
  | 0, _ => 0
  | n + 1, k => weights n k +
    mu / (product taps x n n + epsilon) * (c n - ∑ i ∈ range taps, weights n i * x n i) * x n k

/-- Each sample less what the weights predict of it. -/
def error (n : ℕ) : R := c n - ∑ k ∈ range taps, weights mu epsilon taps x c n k * x n k

/-- What an error at one time adds to the prediction at another, for a step of one. -/
def gain (m n : ℕ) : R := product taps x m n / (product taps x m m + epsilon)

theorem weights_succ (n k : ℕ) : weights mu epsilon taps x c (n + 1) k = weights mu epsilon taps x c n k +
    mu / (product taps x n n + epsilon) * error mu epsilon taps x c n * x n k := rfl

theorem weights_eq_sum (n k : ℕ) : weights mu epsilon taps x c n k =
    ∑ m ∈ range n, mu / (product taps x m m + epsilon) * error mu epsilon taps x c m * x m k := by
  induction n with
  | zero => rfl
  | succ n ih => rw [weights_succ, ih, sum_range_succ]

/-- An error is the sample less the gains of all errors before it. -/
theorem error_eq (n : ℕ) : error mu epsilon taps x c n =
    c n - mu * ∑ m ∈ range n, error mu epsilon taps x c m * gain epsilon taps x m n := by
  rw [error, mul_sum]
  simp only [weights_eq_sum, sum_mul]
  rw [sum_comm]
  congr 1
  refine sum_congr rfl fun m _ => ?_
  rw [gain, show product taps x m n = ∑ k ∈ range taps, x m k * x n k from rfl, sum_div, mul_sum, mul_sum]
  refine sum_congr rfl fun k _ => ?_
  ring

/-- Errors that satisfy the recursion are those of the filter. -/
theorem error_unique {e : ℕ → R} {limit : ℕ}
    (each : ∀ n < limit, e n = c n - mu * ∑ m ∈ range n, e m * gain epsilon taps x m n) :
    ∀ n < limit, e n = error mu epsilon taps x c n := by
  intro n
  induction n using Nat.strong_induction_on with
  | h n ih =>
    intro below
    rw [each n below, error_eq]
    congr 2
    refine sum_congr rfl fun m member => ?_
    have before := mem_range.mp member
    rw [ih m before (by omega)]

/-- The errors depend on the samples so far. -/
theorem error_congr {c' : ℕ → R} {limit : ℕ} (same : ∀ n < limit, c n = c' n) :
    ∀ n < limit, error mu epsilon taps x c n = error mu epsilon taps x c' n :=
  error_unique mu epsilon taps x c' fun n below => by rw [error_eq, same n below]

end Filter

section Agreement
variable {R : Type} [Field R] {mu : R} (epsilon : R) (taps : ℕ) (x y : ℕ → ℕ → R) (c : ℕ → R)

/-- Two filters have the same errors where the difference of their gains vanishes on these. -/
theorem errors_agree_iff (moves : mu ≠ 0) (limit : ℕ) :
    (∀ n < limit, error mu epsilon taps x c n = error mu epsilon taps y c n) ↔ ∀ n < limit,
      ∑ m ∈ range n, error mu epsilon taps x c m * (gain epsilon taps x m n - gain epsilon taps y m n) = 0 := by
  have split (n : ℕ) : ∑ m ∈ range n, error mu epsilon taps x c m * (gain epsilon taps x m n - gain epsilon taps y m n) =
      ∑ m ∈ range n, error mu epsilon taps x c m * gain epsilon taps x m n -
        ∑ m ∈ range n, error mu epsilon taps x c m * gain epsilon taps y m n := by
    rw [← sum_sub_distrib]
    exact sum_congr rfl fun m _ => mul_sub _ _ _
  simp only [split, sub_eq_zero]
  constructor
  · intro same n below
    have here := same n below
    rw [error_eq, error_eq, sub_right_inj] at here
    rw [mul_left_cancel₀ moves here]
    refine sum_congr rfl fun m member => ?_
    have before := mem_range.mp member
    rw [same m (by omega)]
  · intro balanced
    refine error_unique mu epsilon taps y c fun n below => ?_
    rw [error_eq, balanced n below]

/-- Some samples give any errors at all. -/
theorem exists_error_eq (mu : R) (e : ℕ → R) : ∃ c, error mu epsilon taps x c = e := by
  refine ⟨fun n => e n + mu * ∑ m ∈ range n, e m * gain epsilon taps x m n, ?_⟩
  funext n
  refine (error_unique mu epsilon taps x _ (fun k _ => ?_) n (Nat.lt_succ_self n)).symm
  rw [add_sub_cancel_right]

/-- Two filters have the same errors for all samples where they have the same gains. -/
theorem errors_agree_for_all_iff (moves : mu ≠ 0) (limit : ℕ) :
    (∀ c : ℕ → R, ∀ n < limit, error mu epsilon taps x c n = error mu epsilon taps y c n) ↔
      ∀ m n, m < n → n < limit → gain epsilon taps x m n = gain epsilon taps y m n := by
  constructor
  · intro same m n before below
    obtain ⟨c, impulse⟩ := exists_error_eq epsilon taps x mu fun k => if k = m then 1 else 0
    have balanced := (errors_agree_iff epsilon taps x y c moves limit).mp (same c) n below
    simp only [impulse, ite_mul, one_mul, zero_mul] at balanced
    rw [sum_ite_eq' , if_pos (mem_range.mpr before), sub_eq_zero] at balanced
    exact balanced
  · intro same c
    refine (errors_agree_iff epsilon taps x y c moves limit).mpr fun n below => ?_
    refine sum_eq_zero fun m member => ?_
    rw [same m n (mem_range.mp member) below, sub_self, mul_zero]

end Agreement

section Steady
variable {R : Type} [Field R] (mu epsilon : R) (taps : ℕ) {x : ℕ → ℕ → R} (c : ℕ → R)

/-- Where every gain is the same, the errors of a filter in closed form. -/
theorem error_steady {g : R} (steady : ∀ m n, gain epsilon taps x m n = g) (n : ℕ) : error mu epsilon taps x c n =
    c n - mu * g * ∑ m ∈ range n, (1 - mu * g) ^ (n - 1 - m) * c m := by
  have total (n : ℕ) : ∑ m ∈ range n, error mu epsilon taps x c m = ∑ m ∈ range n, (1 - mu * g) ^ (n - 1 - m) * c m := by
    induction n with
    | zero => rfl
    | succ n ih =>
      have here : error mu epsilon taps x c n = c n - mu * g * ∑ m ∈ range n, error mu epsilon taps x c m := by
        rw [error_eq]
        simp only [steady, ← sum_mul]
        ring
      have older : ∑ m ∈ range n, (1 - mu * g) ^ (n - m) * c m = (1 - mu * g) * ∑ m ∈ range n, (1 - mu * g) ^ (n - 1 - m) * c m := by
        rw [mul_sum]
        refine sum_congr rfl fun m member => ?_
        have before := mem_range.mp member
        rw [show n - m = n - 1 - m + 1 by omega, pow_succ]
        ring
      rw [sum_range_succ, sum_range_succ, here, Nat.add_sub_cancel, older, ih, Nat.sub_self, pow_zero]
      ring
  rw [error_eq, ← total]
  simp only [steady, ← sum_mul]
  ring

end Steady

end Burble.Nlms
