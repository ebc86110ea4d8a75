import Mathlib.Data.List.GetD
import Burble.Coprocessor.Fft

namespace Burble.Coprocessor
open Complex

/-- The discrete Fourier transform of a signal, as a list of real and imaginary parts. -/
noncomputable def fourier (signal : List ℝ) : List (ℝ × ℝ) :=
  (List.range signal.length).map fun k => pair (dft signal.length (sample signal) k)

variable {n : ℕ} {signal : List ℝ}

theorem pair_injective : Function.Injective pair := fun _ _ same =>
  Complex.ext (congrArg Prod.fst same) (congrArg Prod.snd same)

theorem sample_beyond {j : ℕ} (beyond : signal.length ≤ j) : sample signal j = 0 := by
  rw [sample, List.getD_eq_default signal 0 beyond, ofReal_zero]

theorem sample_eq_zero {j : ℕ} : sample signal j = 0 ↔ signal.getD j 0 = 0 := ofReal_eq_zero

theorem kernelValue_zero (n : ℕ) {signal : List ℝ} (silent : ∀ j, sample signal j = 0) (k : ℕ) : kernelValue n signal k = 0 := by
  induction n generalizing signal k with
  | zero => exact silent 0
  | succ n ih =>
    rw [kernelValue, ih (fun j => by rw [sample_evens]; exact silent _), ih fun j => by rw [sample_odds]; exact silent _]
    ring

/-- The upper half of a calculated spectrum is the lower half again. -/
theorem kernelValue_upper (n : ℕ) (signal : List ℝ) (k : ℕ) :
    kernelValue (n + 1) signal (k + 2 ^ n) = kernelValue (n + 1) signal k := by
  simp only [kernelValue, Nat.add_mod_right]

/-- The kernel calculates the transform of no signal but a single first sample. -/
theorem kernelValue_eq_dft_iff (n : ℕ) (signal : List ℝ) (length : signal.length = 2 ^ n) :
    (∀ k < 2 ^ n, kernelValue n signal k = dft (2 ^ n) (sample signal) k) ↔ ∀ j, 0 < j → sample signal j = 0 := by
  induction n generalizing signal with
  | zero =>
    refine ⟨fun _ j positive => sample_beyond (by omega), fun _ k below => ?_⟩
    simp [kernelValue, dft, unityRoot_zero]
  | succ n ih =>
    have double : 2 ^ (n + 1) = 2 * 2 ^ n := Nat.pow_succ'
    have positive : 0 < 2 ^ n := Nat.two_pow_pos n
    have evenLength : (everyOther signal).length = 2 ^ n := by rw [everyOther_length]; omega
    have oddLength : (everyOther signal.tail).length = 2 ^ n := by rw [everyOther_length, List.length_tail]; omega
    have evens := sample_evens signal
    have odds := sample_odds signal
    rw [double]
    constructor
    · intro transforms
      have lower (k : ℕ) (below : k < 2 ^ n) : kernelValue n (everyOther signal) k +
          unityRoot (2 * 2 ^ n) k * kernelValue n (everyOther signal.tail) k =
          dft (2 ^ n) (sample (everyOther signal)) k + unityRoot (2 * 2 ^ n) k * dft (2 ^ n) (sample (everyOther signal.tail)) k := by
        have same := transforms k (by omega)
        rwa [kernelValue, Nat.mod_eq_of_lt below, dft_double, ← evens, ← odds] at same
      have upper (k : ℕ) (below : k < 2 ^ n) : kernelValue n (everyOther signal) k +
          unityRoot (2 * 2 ^ n) k * kernelValue n (everyOther signal.tail) k =
          dft (2 ^ n) (sample (everyOther signal)) k - unityRoot (2 * 2 ^ n) k * dft (2 ^ n) (sample (everyOther signal.tail)) k := by
        have same := transforms (k + 2 ^ n) (by omega)
        rwa [kernelValue_upper, kernelValue, Nat.mod_eq_of_lt below, dft_upper positive, ← evens, ← odds] at same
      -- the halves agree only where the odd samples are silent
      have oddSilent : ∀ j, sample (everyOther signal.tail) j = 0 := by
        have vanishes : ∀ k < 2 ^ n, dft (2 ^ n) (sample (everyOther signal.tail)) k = 0 := by
          intro k below
          have scaled : unityRoot (2 * 2 ^ n) k * dft (2 ^ n) (sample (everyOther signal.tail)) k = 0 := by
            linear_combination (upper k below - lower k below) / 2
          exact (mul_eq_zero.mp scaled).resolve_left (unityRoot_ne_zero _ _)
        intro j
        by_cases below : j < 2 ^ n
        · exact dft_injective n _ vanishes j below
        · exact sample_beyond (by omega)
      have evenOnly := (ih (everyOther signal) evenLength).mp fun k below => by
        have same := lower k below
        rwa [kernelValue_zero n oddSilent, dft_zero fun j _ => oddSilent j, mul_zero, add_zero, add_zero] at same
      intro j after
      rcases Nat.even_or_odd' j with ⟨i, rfl | rfl⟩
      · have silent := evenOnly i (by omega)
        rwa [evens] at silent
      · have silent := oddSilent i
        rwa [odds] at silent
    · intro single k below
      have oddSilent : ∀ j, sample (everyOther signal.tail) j = 0 := fun j => by
        rw [odds]
        exact single _ (by omega)
      have evenOnly := (ih (everyOther signal) evenLength).mpr fun j after => by
        rw [evens]
        exact single _ (by omega)
      rw [kernelValue, kernelValue_zero n oddSilent, evenOnly _ (Nat.mod_lt k positive), dft_double, ← evens, ← odds,
        dft_zero (fun j _ => oddSilent j), dft_mod positive, mul_zero, mul_zero]

theorem dspFft_eq_fourier_iff (length : signal.length = 2 ^ n) :
    dspFft exact signal (2 ^ n) = some (fourier signal) ↔ ∀ j, 0 < j → sample signal j = 0 := by
  rw [← kernelValue_eq_dft_iff n signal length, dspFft_eq n signal length, fourier, length, Option.some_inj, List.map_inj_left]
  simp only [List.mem_range, pair_injective.eq_iff]

theorem dspIfft_eq {spectrum : List (ℝ × ℝ)} (length : spectrum.length = 2 ^ n) : dspIfft exact spectrum (2 ^ n) =
    some ((List.range (2 ^ n)).map fun k => (kernelValue n (spectrum.map Prod.fst) k).re / ((2 ^ n : ℕ) : ℝ)) := by
  have reals : (spectrum.map fun part : ℝ × ℝ => (part.1, -part.2)).map Prod.fst = spectrum.map Prod.fst := by
    rw [List.map_map]
    rfl
  have shown := dspFft_eq n (spectrum.map Prod.fst) (by rw [List.length_map, length])
  simp only [dspIfft, reals, shown, Option.map_some, List.map_map]
  rfl

/-- What the inverse of the calculated transform gives for each sample. -/
theorem inverse_iff (length : signal.length = 2 ^ n) :
    (dspFft exact signal (2 ^ n)).bind (fun spectrum => dspIfft exact spectrum (2 ^ n)) = some signal ↔
      ∀ k < 2 ^ n, (kernelValue n ((List.range (2 ^ n)).map fun k => (kernelValue n signal k).re) k).re /
        ((2 ^ n : ℕ) : ℝ) = signal.getD k 0 := by
  have reals : ((List.range (2 ^ n)).map fun k => pair (kernelValue n signal k)).map Prod.fst =
      (List.range (2 ^ n)).map fun k => (kernelValue n signal k).re := by
    rw [List.map_map]
    rfl
  have samples : signal = (List.range (2 ^ n)).map fun k => signal.getD k 0 := by
    refine List.ext_getElem (by simp [length]) fun k below _ => ?_
    rw [List.getElem_map, List.getElem_range, List.getD_eq_getElem signal 0 below]
  rw [dspFft_eq n signal length, Option.bind_some, dspIfft_eq (by simp), reals, Option.some_inj]
  conv_lhs => rw [samples]
  rw [List.map_inj_left]
  simp only [List.mem_range, ← samples]

/-- For every real signal of length a power of two: the kernel gives its discrete Fourier transform, and
the inverse of that the signal again, exactly where the signal has one sample or is silent. -/
theorem fft_inverts_iff (n : ℕ) (signal : List ℝ) (length : signal.length = 2 ^ n) :
    (dspFft exact signal (2 ^ n) = some (fourier signal) ∧
      (dspFft exact signal (2 ^ n)).bind (fun spectrum => dspIfft exact spectrum (2 ^ n)) = some signal) ↔
      n = 0 ∨ ∀ s ∈ signal, s = 0 := by
  rw [dspFft_eq_fourier_iff length, inverse_iff length]
  constructor
  · rintro ⟨single, inverts⟩
    cases n with
    | zero => exact .inl rfl
    | succ n =>
      right
      have positive : 0 < 2 ^ n := Nat.two_pow_pos n
      have double : 2 ^ (n + 1) = 2 * 2 ^ n := Nat.pow_succ'
      have middle := inverts (0 + 2 ^ n) (by omega)
      rw [kernelValue_upper, inverts 0 (by omega), Nat.zero_add] at middle
      have first : signal.getD 0 0 = 0 := middle.trans (sample_eq_zero.mp (single (2 ^ n) positive))
      intro s member
      obtain ⟨j, below, rfl⟩ := List.getElem_of_mem member
      rw [← List.getD_eq_getElem signal 0 below]
      rcases Nat.eq_zero_or_pos j with rfl | after
      · exact first
      · exact sample_eq_zero.mp (single j after)
  · rintro (rfl | silent)
    · refine ⟨fun j after => sample_beyond (by omega), fun k below => ?_⟩
      have only : k = 0 := by omega
      simp [kernelValue, sample, only]
    · have zero : ∀ j, sample signal j = 0 := by
        intro j
        by_cases below : j < signal.length
        · rw [sample_eq_zero, List.getD_eq_getElem signal 0 below]
          exact silent _ (List.getElem_mem below)
        · exact sample_beyond (not_lt.mp below)
      refine ⟨fun j _ => zero j, fun k _ => ?_⟩
      have flat : ∀ j, sample ((List.range (2 ^ n)).map fun k => (kernelValue n signal k).re) j = 0 := by
        intro j
        simp only [sample_eq_zero, kernelValue_zero n zero, zero_re, List.map_const']
        rw [List.getD_eq_getElem?_getD]
        exact List.getElem?_getD_replicate_default_eq _ _ j
      rw [kernelValue_zero n flat, zero_re, zero_div, sample_eq_zero.mp (zero k)]

/-- Of two samples, of which the second is not silent, the calculated spectrum is not the transform. -/
theorem fft_two_samples : ¬ ∀ (n : ℕ) (signal : List ℝ), signal.length = 2 ^ n →
    dspFft exact signal (2 ^ n) = some (fourier signal) ∧
      (dspFft exact signal (2 ^ n)).bind (fun spectrum => dspIfft exact spectrum (2 ^ n)) = some signal := by
  intro transforms
  have single := (dspFft_eq_fourier_iff (n := 1) (by rfl)).mp (transforms 1 [0, 1] rfl).1 1 Nat.one_pos
  simp [sample] at single

theorem fft_inverts_silence : dspFft exact [0, 0] (2 ^ 1) = some (fourier [0, 0]) ∧
    (dspFft exact [0, 0] (2 ^ 1)).bind (fun spectrum => dspIfft exact spectrum (2 ^ 1)) = some [0, 0] :=
  (fft_inverts_iff 1 [0, 0] rfl).mpr (.inr (by simp))

end Burble.Coprocessor
