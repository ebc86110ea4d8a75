import Burble.Coprocessor.Fft
import Burble.Loops
import Burble.Polynomials

namespace Burble.Coprocessor

section Kernels
variable {R : Type} [Semiring R]

/-- `first..last`, which counts down to a last number that is the smaller. -/
def elixirRange (first last : Int) : List Int :=
  if first ≤ last then (List.range (last - first + 1).toNat).map fun i : Nat => first + i
  else (List.range (first - last + 1).toNat).map fun i : Nat => first - i

def dspConvolve (a b : List R) : Option (List R) :=
  let lenA : Int := a.length
  let lenB : Int := b.length
  let outLen := lenA + lenB - 1
  let aIndexed := a.zipIdx
  (elixirRange 0 (outLen - 1)).mapM fun n =>
    aIndexed.foldlM (fun acc (aVal, k) =>
      let bIdx := n - k
      if bIdx ≥ 0 ∧ bIdx < lenB then b[bIdx.toNat]?.map fun bVal => acc + aVal * bVal
      else some acc) 0

/-- A difference of two `usize`s. The sums below are of lengths of slices, and fit. -/
def usizeSub (x y : Nat) : Option Nat := if y ≤ x then some (x - y) else none

def convolveStart (lenB n : Nat) : Option Nat :=
  if n ≥ lenB then (usizeSub n lenB).map fun d => d + 1 else some 0

def convolveTerm (a b : List R) (n k : Nat) (sum : R) : Option R := do
  let bIdx ← usizeSub n k
  let aVal ← a[k]?
  let bVal ← b[bIdx]?
  return sum + aVal * bVal

def convolveAt (a b : List R) (n : Nat) (out : List R) : Option (List R) := do
  let kStart ← convolveStart b.length n
  let kEnd := min (n + 1) a.length
  let sum ← upTo Nat.one_pos kEnd (convolveTerm a b n) kStart 0
  write out n sum

/-- What is written into the output buffer, and how many coefficients. -/
def convolve (a b out : List R) : Option (List R × Nat) := do
  let outLen ← usizeSub (a.length + b.length) 1
  let out ← upTo Nat.one_pos outLen (convolveAt a b) 0 out
  return (out, outLen)

end Kernels
end Burble.Coprocessor

namespace Burble.Coprocessor
variable {R : Type} [Semiring R] {a b : List R}

/-- Both convolutions give so many coefficients of the product, the one in Zig wherever the buffer has the room that
it asks for. -/
structure ConvolvesTo (count : Nat) (a b : List R) : Prop where
  elixir : dspConvolve a b = some (productCoefficients count a b)
  zig : ∀ out : List R, a.length + b.length - 1 ≤ out.length →
    convolve a b out = some (productCoefficients count a b ++ out.drop count, count)

/-- There are no coefficients where one of the polynomials has none. -/
def coefficientCount (a b : List R) : Nat := if a = [] ∨ b = [] then 0 else a.length + b.length - 1

section Elixir

/-- What the places of the first factor from some one on give to a coefficient. -/
def partFrom (a b : List R) (n : Int) (start : Nat) : R :=
  ∑ k ∈ Finset.range a.length,
    if n - (start + k : Nat) ≥ 0 ∧ n - (start + k : Nat) < b.length then a.getD k 0 * b.getD (n - (start + k : Nat)).toNat 0 else 0

theorem partFrom_cons (first : R) (rest b : List R) (n : Int) (start : Nat) : partFrom (first :: rest) b n start =
    (if n - start ≥ 0 ∧ n - start < b.length then first * b.getD (n - start).toNat 0 else 0) + partFrom rest b n (start + 1) := by
  rw [partFrom, partFrom, List.length_cons, Finset.sum_range_succ', add_comm]
  refine congrArg₂ (· + ·) rfl (Finset.sum_congr rfl fun k _ => ?_)
  rw [List.getD_cons_succ, show start + (k + 1) = start + 1 + k by omega]

/-- One coefficient, as the elements of the first factor are gone through. -/
theorem foldlM_partFrom (a b : List R) (n : Int) (start : Nat) (acc : R) :
    (a.zipIdx start).foldlM (fun acc (aVal, k) =>
      if n - (k : Nat) ≥ 0 ∧ n - (k : Nat) < b.length then b[(n - (k : Nat)).toNat]?.map fun bVal => acc + aVal * bVal
      else some acc) acc = some (acc + partFrom a b n start) := by
  induction a generalizing start acc with
  | nil => simp [partFrom]
  | cons first rest ih =>
    rw [List.zipIdx_cons, List.foldlM_cons, partFrom_cons]
    dsimp only
    split
    next inside =>
      have here : (n - (start : Int)).toNat < b.length := by omega
      rw [List.getElem?_eq_getElem here, Option.map_some, Option.bind_eq_bind, Option.bind_some, ih,
        List.getD_eq_getElem _ _ here, add_assoc]
    next => rw [Option.bind_eq_bind, Option.bind_some, ih, zero_add]

theorem dspConvolve_some (a b : List R) : dspConvolve a b =
    some ((elixirRange 0 ((a.length : Int) + b.length - 1 - 1)).map fun n => partFrom a b n 0) := by
  refine mapM_some fun n _ => ?_
  have folded := foldlM_partFrom a b n 0 0
  rwa [zero_add] at folded

/-- From the first coefficient on, they are those of the product. -/
theorem partFrom_product (a b : List R) (n : Nat) : partFrom a b n 0 = (polynomialOf a * polynomialOf b).coeff n := by
  rw [coeff_product, partFrom, ← Finset.sum_filter]
  refine Finset.sum_congr (Finset.ext fun k => ?_) fun k inside => ?_
  · simp only [Finset.mem_filter, Finset.mem_range, Finset.mem_Ico, lt_min_iff]
    omega
  · rw [show ((n : Int) - ((0 + k : Nat) : Int)).toNat = n - k by omega]

theorem elixirRange_length (first last : Int) :
    (elixirRange first last).length = if first ≤ last then (last - first + 1).toNat else (first - last + 1).toNat := by
  unfold elixirRange
  split <;> rw [List.length_map, List.length_range]

theorem dspConvolve_product (long : 2 ≤ a.length + b.length) :
    dspConvolve a b = some (productCoefficients (a.length + b.length - 1) a b) := by
  have upward : elixirRange 0 ((a.length : Int) + b.length - 1 - 1) =
      (List.range (a.length + b.length - 1)).map fun n : Nat => (n : Int) := by
    rw [elixirRange, if_pos (by omega), show ((a.length : Int) + b.length - 1 - 1 - 0 + 1).toNat = a.length + b.length - 1 by omega]
    simp only [zero_add]
  rw [dspConvolve_some, upward, List.map_map, productCoefficients]
  exact congrArg some (List.map_congr_left fun n _ => partFrom_product a b n)

/-- A shorter range counts down from the first coefficient, to one of place -1 or -2. -/
theorem dspConvolve_short {out : List R} (short : a.length + b.length < 2) (done : dspConvolve a b = some out) :
    out.length = 3 - (a.length + b.length) := by
  rw [dspConvolve_some, Option.some.injEq] at done
  rw [← done, List.length_map, elixirRange_length, if_neg (by omega)]
  omega

end Elixir

section Zig
variable {out : List R} {n : Nat}

theorem convolveStart_eq (lenB n : Nat) : convolveStart lenB n = some (n + 1 - lenB) := by
  unfold convolveStart usizeSub
  split
  · rw [Option.map_some]
    exact congrArg some (by omega)
  · exact congrArg some (by omega)

/-- The inner loop stays within both factors, and sums up a coefficient of the product. -/
theorem convolveTerm_sum (a b : List R) (n : Nat) :
    upTo Nat.one_pos (min (n + 1) a.length) (convolveTerm a b n) (n + 1 - b.length) 0 =
      some ((polynomialOf a * polynomialOf b).coeff n) := by
  let holds (round : Nat) (sum : R) : Prop :=
    sum = ∑ k ∈ Finset.Ico (n + 1 - b.length) (n + 1 - b.length + round), a.getD k 0 * b.getD (n - k) 0
  let rounds := min (n + 1) a.length - (n + 1 - b.length)
  have inside (round : Nat) (below : round < rounds) : n + 1 - b.length + round * 1 < min (n + 1) a.length := by omega
  have outside : min (n + 1) a.length ≤ n + 1 - b.length + rounds * 1 := by omega
  have each (round : Nat) (below : round < rounds) (sum : R) (now : holds round sum) :
      ∃ next, convolveTerm a b n (n + 1 - b.length + round * 1) sum = some next ∧ holds (round + 1) next := by
    have inA : n + 1 - b.length + round < a.length := by omega
    have inB : n - (n + 1 - b.length + round) < b.length := by omega
    refine ⟨sum + a.getD (n + 1 - b.length + round) 0 * b.getD (n - (n + 1 - b.length + round)) 0, ?_, ?_⟩
    · rw [Nat.mul_one, convolveTerm, usizeSub, if_pos (by omega), List.getElem?_eq_getElem inA, List.getD_eq_getElem _ _ inA,
        List.getD_eq_getElem _ _ inB]
      simp only [Option.bind_eq_bind, Option.bind_some, List.getElem?_eq_getElem inB]
      rfl
    · simp only [holds]
      rw [← Nat.add_assoc, Finset.sum_Ico_succ_top (Nat.le_add_right _ _), ← now]
  have starts : holds 0 0 := by simp [holds]
  obtain ⟨sum, runs, whole⟩ := upTo_runs holds rounds inside outside each starts
  rw [runs, whole, coeff_product]
  refine congrArg some (Finset.sum_congr (Finset.ext fun k => ?_) fun _ _ => rfl)
  simp only [Finset.mem_Ico]
  omega

theorem convolveAt_product (room : n < out.length) :
    convolveAt a b n out = some (out.set n ((polynomialOf a * polynomialOf b).coeff n)) := by
  simp only [convolveAt, convolveStart_eq, convolveTerm_sum, Option.bind_eq_bind, Option.bind_some]
  exact if_pos room

/-- The Zig kernel returns unless both lists are empty, where the length of the result has no `usize`. -/
theorem convolve_product (nonempty : 1 ≤ a.length + b.length) (room : a.length + b.length - 1 ≤ out.length) :
    convolve a b out = some (productCoefficients (a.length + b.length - 1) a b ++ out.drop (a.length + b.length - 1),
      a.length + b.length - 1) := by
  let holds (round : Nat) (data : List R) : Prop :=
    round ≤ a.length + b.length - 1 → data = productCoefficients round a b ++ out.drop round
  have each (n : Nat) (below : n < a.length + b.length - 1) (data : List R) (now : holds n data) :
      ∃ next, convolveAt a b (0 + n * 1) data = some next ∧ holds (n + 1) next := by
    have written := now below.le
    have inside : n < data.length := by
      rw [written, List.length_append, productCoefficients_length, List.length_drop]
      omega
    rw [Nat.zero_add, Nat.mul_one, convolveAt_product inside]
    refine ⟨_, rfl, fun _ => ?_⟩
    rw [written, List.set_append_right _ _ (by rw [productCoefficients_length]), productCoefficients_length, Nat.sub_self,
      List.drop_eq_getElem_cons (by omega : n < out.length), List.set_cons_zero, productCoefficients_succ, List.append_assoc]
    rfl
  have starts : holds 0 out := fun _ => rfl
  have inside (round : Nat) (below : round < a.length + b.length - 1) : 0 + round * 1 < a.length + b.length - 1 := by omega
  obtain ⟨data, runs, whole⟩ := upTo_runs holds (a.length + b.length - 1) inside (by omega) each starts
  rw [convolve, usizeSub, if_pos nonempty, Option.bind_eq_bind, Option.bind_some, runs, whole le_rfl]
  rfl

theorem convolve_empty (none : a.length + b.length = 0) (out : List R) : convolve a b out = Option.none := by
  rw [convolve, usizeSub, if_neg (by omega)]
  rfl

end Zig

theorem convolvesTo_iff {count : Nat} : ConvolvesTo count a b ↔ 2 ≤ a.length + b.length ∧ count = a.length + b.length - 1 := by
  constructor
  · intro both
    have room : a.length + b.length - 1 ≤ (List.replicate (a.length + b.length - 1) (0 : R)).length := by
      rw [List.length_replicate]
    have zig := both.zig _ room
    have nonempty : 1 ≤ a.length + b.length := by
      by_contra none
      rw [convolve_empty (by omega)] at zig
      cases zig
    rw [convolve_product nonempty room] at zig
    have returned : a.length + b.length - 1 = count := congrArg Prod.snd (Option.some.inj zig)
    refine ⟨?_, returned.symm⟩
    by_contra short
    have counted := dspConvolve_short (by omega) both.elixir
    rw [productCoefficients_length] at counted
    omega
  · rintro ⟨long, rfl⟩
    exact ⟨dspConvolve_product long, fun out => convolve_product (by omega)⟩

/-- Both convolutions give the coefficients of the product exactly where both lists have some. Were zeros to stand for the
product with an empty list, they would do so where the two lists have two elements or more. -/
theorem convolutions_multiply_iff (a b : List R) :
    (ConvolvesTo (coefficientCount a b) a b ↔ a ≠ [] ∧ b ≠ []) ∧
      (ConvolvesTo (a.length + b.length - 1) a b ↔ 2 ≤ a.length + b.length) := by
  refine ⟨?_, convolvesTo_iff.trans (and_iff_left rfl)⟩
  rw [convolvesTo_iff, coefficientCount]
  simp only [← List.length_eq_zero_iff, ne_eq]
  split <;> omega

theorem empty_lists_convolved : dspConvolve ([] : List ℚ) [] = some [0, 0, 0] ∧ (∀ out : List ℚ, convolve [] [] out = none) ∧
    ¬ ConvolvesTo (coefficientCount ([] : List ℚ) []) ([] : List ℚ) [] :=
  ⟨rfl, fun _ => rfl, fun both => absurd (both.zig [] (Nat.zero_le _)) nofun⟩

end Burble.Coprocessor
