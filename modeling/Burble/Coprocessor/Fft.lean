import Burble.Fourier

namespace Burble.Coprocessor
universe u

/-- The numbers that the kernel calculates with, and their trigonometry. -/
structure Trigonometry (R : Type u) where
  pi : R
  cos : R → R
  sin : R → R

section Kernel
variable {R : Type u} [Field R] (trig : Trigonometry R)

/-- The transform of a signal of some size, or nothing where `Enum.at` finds no element. -/
def dspFft (signal : List R) (size : Nat) : Option (List (R × R)) :=
  if size ≤ 1 then some (signal.map fun s => (s, 0))
  else
    let half := size / 2
    let (evens, odds) := signal.zipIdx.partition fun entry => entry.2 % 2 = 0
    let evenVals := evens.map Prod.fst
    let oddVals := odds.map Prod.fst
    match dspFft evenVals half, dspFft oddVals half with
    | some fftEven, some fftOdd =>
      (List.range size).mapM fun k =>
        let kMod := k % half
        let angle := -2 * trig.pi * k / size
        let wr := trig.cos angle
        let wi := trig.sin angle
        match fftOdd[kMod]?, fftEven[kMod]? with
        | some (orVal, oiVal), some (er, ei) =>
          let tr := wr * orVal - wi * oiVal
          let ti := wr * oiVal + wi * orVal
          some (if k < half then (er + tr, ei + ti) else (er - tr, ei - ti))
        | _, _ => none
    | _, _ => none
termination_by size

def dspIfft (spectrum : List (R × R)) (size : Nat) : Option (List R) :=
  let conjugated := spectrum.map fun (r, i) => (r, -i)
  let signalVals := conjugated.map Prod.fst
  (dspFft trig signalVals size).map fun fftResult => fftResult.map fun (r, _) => r / size

end Kernel
end Burble.Coprocessor

namespace Burble.Coprocessor
open Complex

/-- Exact real numbers in place of floats. -/
noncomputable def exact : Trigonometry ℝ := ⟨Real.pi, Real.cos, Real.sin⟩

section Halves
variable {R : Type}

/-- The elements at the even places. -/
def everyOther : List R → List R
  | [] => []
  | [only] => [only]
  | first :: _ :: rest => first :: everyOther rest

theorem everyOther_cons (first : R) (rest : List R) : everyOther (first :: rest) = first :: everyOther rest.tail := by
  cases rest <;> rfl

theorem everyOther_length (signal : List R) : (everyOther signal).length = (signal.length + 1) / 2 := by
  induction signal using everyOther.induct with
  | case1 => simp [everyOther]
  | case2 => simp [everyOther]
  | case3 first second rest ih =>
    simp only [everyOther, List.length_cons, ih]
    omega

theorem everyOther_getD (signal : List R) (j : Nat) (silence : R) :
    (everyOther signal).getD j silence = signal.getD (2 * j) silence := by
  induction signal using everyOther.induct generalizing j with
  | case1 => simp [everyOther]
  | case2 only => cases j <;> simp [everyOther]
  | case3 first second rest ih =>
    cases j with
    | zero => rfl
    | succ j =>
      have double : 2 * (j + 1) = 2 * j + 1 + 1 := by omega
      rw [everyOther, List.getD_cons_succ, ih, double, List.getD_cons_succ, List.getD_cons_succ]

theorem everyOther_tail_getD (signal : List R) (j : Nat) (silence : R) :
    (everyOther signal.tail).getD j silence = signal.getD (2 * j + 1) silence := by
  rw [everyOther_getD]
  cases signal with
  | nil => rfl
  | cons first rest => rw [List.tail_cons, List.getD_cons_succ]

/-- The parts that the kernel splits a signal into. -/
theorem split_zipIdx (signal : List R) (start : Nat) :
    (((signal.zipIdx start).filter fun entry => entry.2 % 2 = 0).map Prod.fst =
        if start % 2 = 0 then everyOther signal else everyOther signal.tail) ∧
      ((signal.zipIdx start).filter fun entry => ¬ entry.2 % 2 = 0).map Prod.fst =
        if start % 2 = 0 then everyOther signal.tail else everyOther signal := by
  induction signal generalizing start with
  | nil => simp [everyOther]
  | cons first rest ih =>
    obtain ⟨evens, odds⟩ := ih (start + 1)
    rw [List.zipIdx_cons]
    by_cases even : start % 2 = 0
    · have next : ¬ (start + 1) % 2 = 0 := by omega
      rw [if_neg next] at evens odds
      rw [if_pos even, if_pos even, List.filter_cons_of_pos (by simpa using even),
        List.filter_cons_of_neg (by simpa using even), List.map_cons, evens, odds, everyOther_cons]
      exact ⟨rfl, rfl⟩
    · have next : (start + 1) % 2 = 0 := by omega
      rw [if_pos next] at evens odds
      rw [if_neg even, if_neg even, List.filter_cons_of_neg (by simpa using even),
        List.filter_cons_of_pos (by simpa using even), List.map_cons, evens, odds, everyOther_cons]
      exact ⟨rfl, rfl⟩

theorem mapM_some {α β : Type} {f : α → Option β} {g : α → β} {items : List α} (each : ∀ item ∈ items, f item = some (g item)) :
    items.mapM f = some (items.map g) := by
  induction items with
  | nil => rfl
  | cons item rest ih =>
    rw [List.mapM_cons, each item List.mem_cons_self, ih fun other member => each other (List.mem_cons_of_mem _ member)]
    rfl

end Halves

/-- The samples of a signal, and silence after it. -/
noncomputable def sample (signal : List ℝ) (j : ℕ) : ℂ := (signal.getD j 0 : ℝ)

theorem sample_evens (signal : List ℝ) : sample (everyOther signal) = fun j => sample signal (2 * j) :=
  funext fun j => by rw [sample, sample, everyOther_getD]

theorem sample_odds (signal : List ℝ) : sample (everyOther signal.tail) = fun j => sample signal (2 * j + 1) :=
  funext fun j => by rw [sample, sample, everyOther_tail_getD]

/-- What the kernel calculates: the upper half of a spectrum repeats the lower half. -/
noncomputable def kernelValue : ℕ → List ℝ → ℕ → ℂ
  | 0, signal, _ => sample signal 0
  | n + 1, signal, k => kernelValue n (everyOther signal) (k % 2 ^ n) +
    unityRoot (2 * 2 ^ n) (k % 2 ^ n) * kernelValue n (everyOther signal.tail) (k % 2 ^ n)

def pair (z : ℂ) : ℝ × ℝ := (z.re, z.im)

theorem twiddle (size k : ℕ) : unityRoot size k =
    ⟨exact.cos (-2 * exact.pi * k / size), exact.sin (-2 * exact.pi * k / size)⟩ := by
  have angle : -(2 * Real.pi * k / size) = -2 * Real.pi * k / size := by ring
  rw [unityRoot, ← ofReal_neg, angle]
  exact Complex.ext (exp_ofReal_mul_I_re _) (exp_ofReal_mul_I_im _)

theorem pair_add_mul (e w o : ℂ) : pair (e + w * o) = (e.re + (w.re * o.re - w.im * o.im), e.im + (w.re * o.im + w.im * o.re)) := rfl

/-- The kernel has a twiddle factor of its own for the upper half, and subtracts it there. -/
theorem dspFft_eq (n : ℕ) (signal : List ℝ) (length : signal.length = 2 ^ n) :
    dspFft exact signal (2 ^ n) = some ((List.range (2 ^ n)).map fun k => pair (kernelValue n signal k)) := by
  induction n generalizing signal with
  | zero =>
    obtain ⟨only, rfl⟩ := List.length_eq_one_iff.mp length
    rw [dspFft, if_pos (by norm_num)]
    simp [kernelValue, sample, pair]
  | succ n ih =>
    have double : 2 ^ (n + 1) = 2 * 2 ^ n := Nat.pow_succ'
    have positive : 0 < 2 ^ n := Nat.two_pow_pos n
    have half : 2 * 2 ^ n / 2 = 2 ^ n := by omega
    obtain ⟨evens, odds⟩ := split_zipIdx signal 0
    simp only [Nat.zero_mod, if_true] at evens odds
    have evenLength : (everyOther signal).length = 2 ^ n := by rw [everyOther_length]; omega
    have oddLength : (everyOther signal.tail).length = 2 ^ n := by rw [everyOther_length, List.length_tail]; omega
    rw [double, dspFft, if_neg (by omega)]
    simp only [List.partition_eq_filter_filter, half]
    have negated : ((fun x => !x) ∘ fun entry : ℝ × ℕ => decide (entry.2 % 2 = 0)) =
        fun entry : ℝ × ℕ => decide (¬ entry.2 % 2 = 0) := funext fun entry => (decide_not ..).symm
    rw [negated, evens, odds, ih _ evenLength, ih _ oddLength]
    refine mapM_some fun k member => ?_
    have below : k % 2 ^ n < 2 ^ n := Nat.mod_lt k positive
    simp only [List.getElem?_map, List.getElem?_range below, Option.map_some, Option.some.injEq]
    have factor := twiddle (2 * 2 ^ n) k
    by_cases lower : k < 2 ^ n
    · have same : k % 2 ^ n = k := Nat.mod_eq_of_lt lower
      rw [if_pos lower, kernelValue, same, pair_add_mul, factor]
      rfl
    · have upper : k % 2 ^ n + 2 ^ n = k := by
        have bound := List.mem_range.mp member
        rw [Nat.mod_eq_sub_mod (not_lt.mp lower), Nat.mod_eq_of_lt (by omega)]
        omega
      have opposite : unityRoot (2 * 2 ^ n) (k % 2 ^ n) = -unityRoot (2 * 2 ^ n) k := by
        rw [← upper, unityRoot_add, unityRoot_half positive, upper]
        ring
      rw [if_neg lower, kernelValue, opposite, pair_add_mul, factor]
      simp only [pair, neg_re, neg_im, Prod.mk.injEq]
      constructor <;> ring

end Burble.Coprocessor
