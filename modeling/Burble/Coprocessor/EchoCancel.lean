import Mathlib
import Burble.Loops
import Burble.Nlms

namespace Burble.Coprocessor

section Constants
variable (R : Type) [Field R]

/-- The step size and the regularisation of both echo cancellers. -/
def mu : R := 1 / (2 : Nat)
def epsilon : R := 1 / 10 ^ 8

end Constants

/-! `ElixirBackend.audio_echo_cancel`. -/

section Elixir
variable {R : Type} [Field R]

def dot (a b : List R) : R := (a.zip b).foldl (fun acc entry => acc + entry.1 * entry.2) 0

def padTo (list : List R) (targetLen : Nat) : List R :=
  if targetLen ≤ list.length then list.take targetLen else list ++ List.replicate (targetLen - list.length) 0

/-- One sample: the errors so far, the latest first, and the weights. -/
def echoStep (reference : List R) (filterLength : Nat) (state : List R × List R) (cap : R) : List R × List R :=
  let (acc, weights) := state
  let refWindow := padTo (reference.take filterLength) filterLength
  let echoEstimate := dot weights refWindow
  let error := cap - echoEstimate
  let power := dot refWindow refWindow + epsilon R
  let step := mu R / power
  let newWeights := (weights.zip refWindow).map fun entry => entry.1 + step * error * entry.2
  (error :: acc, newWeights)

def audioEchoCancel (capture reference : List R) (filterLength : Nat) : List R :=
  let (output, _) := (capture.zip reference).foldl (fun state entry => echoStep reference filterLength state entry.1)
    ([], List.replicate filterLength 0)
  output.reverse

end Elixir

/-! The Zig kernel's `echo_cancel`, with no result where an index is out of bounds. -/

section Zig
variable {R : Type} [Field R]

/-- One tap of the estimate and of the power. -/
def estimateTap (reference weights : List R) (n k : Nat) (sums : R × R) : Option (R × R) :=
  let (echoEstimate, power) := sums
  if k ≤ n then
    let refIdx := n - k
    if refIdx < reference.length then do
      let weight ← weights[k]?
      let sample ← reference[refIdx]?
      some (echoEstimate + weight * sample, power + sample * sample)
    else some sums
  else some sums

def updateTap (reference : List R) (step err : R) (n k : Nat) (weights : List R) : Option (List R) :=
  if k ≤ n then
    let refIdx := n - k
    if refIdx < reference.length then do
      let weight ← weights[k]?
      let sample ← reference[refIdx]?
      write weights k (weight + step * err * sample)
    else some weights
  else some weights

/-- One sample of the capture, and the weights after it. -/
def cancelSample (reference : List R) (mu : R) (filterLen n : Nat) (state : List R × List R) : Option (List R × List R) := do
  let (capture, weights) := state
  let (echoEstimate, power) ← upTo Nat.one_pos filterLen (estimateTap reference weights n) 0 (0, 0)
  let cap ← capture[n]?
  let err := cap - echoEstimate
  let capture ← write capture n err
  let step := mu / (power + epsilon R)
  let weights ← upTo Nat.one_pos filterLen (updateTap reference step err n) 0 weights
  some (capture, weights)

def echoCancel (capture reference weights : List R) (mu : R) : Option (List R × List R) :=
  upTo Nat.one_pos capture.length (cancelSample reference mu weights.length) 0 (capture, weights)

end Zig

/-! Both are filters of the capture, over different windows of the reference. -/

section Windows
variable {R : Type} [Field R]

/-- `reference[n], reference[n-1], ...`, zero outside the signal. -/
def advancing (reference : List R) (n k : Nat) : R := if k ≤ n then reference.getD (n - k) 0 else 0

/-- The first samples of the reference, whatever the time is. -/
def standing (reference : List R) (_ k : Nat) : R := reference.getD k 0

/-- What NLMS leaves of a capture. -/
def cancelled (window : Nat → Nat → R) (taps : Nat) (capture : List R) : Nat → R :=
  Nlms.error (mu R) (epsilon R) taps window fun n => capture.getD n 0

end Windows

end Burble.Coprocessor

namespace Burble.Coprocessor
open Finset

section Kernel
variable {R : Type} [Field R] {reference weightList : List R} {taps n : ℕ} {w : ℕ → R}

/-- The taps that the kernel leaves out are zero in the window. -/
theorem advancing_cases (reference : List R) (n k : ℕ) :
    (k ≤ n ∧ n - k < reference.length ∧ reference[n - k]? = some (advancing reference n k)) ∨
      (¬ (k ≤ n ∧ n - k < reference.length) ∧ advancing reference n k = 0) := by
  by_cases early : k ≤ n
  · rw [advancing, if_pos early]
    by_cases inside : n - k < reference.length
    · exact .inl ⟨early, inside, by rw [List.getElem?_eq_getElem inside, List.getD_eq_getElem _ _ inside]⟩
    · exact .inr ⟨fun both => inside both.2, List.getD_eq_default _ _ (not_lt.mp inside)⟩
  · exact .inr ⟨fun both => early both.1, if_neg early⟩

theorem estimate_eq (slots : Slots weightList taps w) : upTo Nat.one_pos taps (estimateTap reference weightList n) 0 (0, 0) =
    some (∑ k ∈ range taps, w k * advancing reference n k, Nlms.product taps (advancing reference) n n) := by
  let holds (k : ℕ) (sums : R × R) : Prop := sums = (∑ i ∈ range k, w i * advancing reference n i,
    ∑ i ∈ range k, advancing reference n i * advancing reference n i)
  have each (k : ℕ) (below : k < taps) (sums : R × R) (now : holds k sums) :
      ∃ next, estimateTap reference weightList n (0 + k * 1) sums = some next ∧ holds (k + 1) next := by
    refine ⟨_, ?_, rfl⟩
    rw [now, sum_range_succ, sum_range_succ, Nat.zero_add, Nat.mul_one, estimateTap]
    rcases advancing_cases reference n k with ⟨early, inside, sample⟩ | ⟨outside, zero⟩
    · simp only [if_pos early, if_pos inside, slots.read k below, sample, Option.bind_eq_bind, Option.bind_some]
    · rw [zero, mul_zero, mul_zero, add_zero, add_zero]
      by_cases early : k ≤ n
      · have beyond : ¬ n - k < reference.length := fun inside => outside ⟨early, inside⟩
        simp only [if_pos early, if_neg beyond]
      · simp only [if_neg early]
  obtain ⟨sums, runs, last⟩ : ∃ sums, upTo Nat.one_pos taps (estimateTap reference weightList n) 0 (0, 0) = some sums ∧
      holds taps sums := upTo_runs holds taps (by omega) (by omega) each rfl
  rw [runs, last]
  rfl

variable (reference n) in
theorem update_slots (slots : Slots weightList taps w) (step err : R) : ∃ after,
    upTo Nat.one_pos taps (updateTap reference step err n) 0 weightList = some after ∧
      Slots after taps fun k => w k + step * err * advancing reference n k := by
  let holds (k : ℕ) (buffer : List R) : Prop :=
    Slots buffer taps fun i => if i < k then w i + step * err * advancing reference n i else w i
  have each (k : ℕ) (below : k < taps) (buffer : List R) (now : holds k buffer) :
      ∃ next, updateTap reference step err n (0 + k * 1) buffer = some next ∧ holds (k + 1) next := by
    have weight := Slots.read now k below
    rw [if_neg (lt_irrefl k)] at weight
    rw [Nat.zero_add, Nat.mul_one, updateTap]
    rcases advancing_cases reference n k with ⟨early, inside, sample⟩ | ⟨outside, zero⟩
    · obtain ⟨next, wrote, slots'⟩ := Slots.write now below (w k + step * err * advancing reference n k)
      refine ⟨next, ?_, slots'.congr fun i _ => ?_⟩
      · simp only [if_pos early, if_pos inside, weight, sample, Option.bind_eq_bind, Option.bind_some, wrote]
      · rw [Function.update_apply]
        by_cases here : i = k
        · rw [if_pos here, if_pos (by omega), here]
        · rw [if_neg here]
          exact if_congr (by omega) rfl rfl
    · refine ⟨buffer, ?_, Slots.congr now fun i _ => ?_⟩
      · by_cases early : k ≤ n
        · have beyond : ¬ n - k < reference.length := fun inside => outside ⟨early, inside⟩
          simp only [if_pos early, if_neg beyond]
        · simp only [if_neg early]
      · by_cases here : i = k
        · rw [if_neg (by omega), if_pos (by omega), here, zero, mul_zero, add_zero]
        · exact if_congr (by omega) rfl rfl
  obtain ⟨after, runs, last⟩ : ∃ after, upTo Nat.one_pos taps (updateTap reference step err n) 0 weightList = some after ∧
      holds taps after :=
    upTo_runs holds taps (by omega) (by omega) each (slots.congr fun i _ => (if_neg (Nat.not_lt_zero i)).symm)
  exact ⟨after, runs, last.congr fun i below => if_pos below⟩

/-- The kernel leaves what NLMS leaves over the advancing window. -/
theorem echoCancel_eq (capture reference : List R) (taps : ℕ) : ∃ weights,
    echoCancel capture reference (List.replicate taps 0) (mu R) =
      some ((List.range capture.length).map (cancelled (advancing reference) taps capture), weights) := by
  let heard (n : ℕ) : R := capture.getD n 0
  let holds (n : ℕ) (state : List R × List R) : Prop :=
    Slots state.1 capture.length (fun i => if i < n then cancelled (advancing reference) taps capture i else heard i) ∧
      Slots state.2 taps (Nlms.weights (mu R) (epsilon R) taps (advancing reference) heard n)
  have each (n : ℕ) (below : n < capture.length) (state : List R × List R) (now : holds n state) :
      ∃ next, cancelSample reference (mu R) (List.replicate taps (0 : R)).length (0 + n * 1) state = some next ∧ holds (n + 1) next := by
    obtain ⟨samples, weightList⟩ := state
    obtain ⟨slots, weights⟩ := now
    have cap := slots.read n below
    rw [if_neg (lt_irrefl n)] at cap
    have err : heard n - ∑ k ∈ range taps, Nlms.weights (mu R) (epsilon R) taps (advancing reference) heard n k * advancing reference n k =
        cancelled (advancing reference) taps capture n := rfl
    obtain ⟨samples', wrote, slots'⟩ := slots.write below (cancelled (advancing reference) taps capture n)
    obtain ⟨after, updated, weights'⟩ := update_slots reference n weights
      (mu R / (Nlms.product taps (advancing reference) n n + epsilon R)) (cancelled (advancing reference) taps capture n)
    refine ⟨(samples', after), ?_, slots'.congr fun i _ => ?_, weights'⟩
    · rw [List.length_replicate, Nat.zero_add, Nat.mul_one]
      simp only [cancelSample, estimate_eq weights, cap, err, wrote, updated, Option.bind_eq_bind, Option.bind_some]
    · rw [Function.update_apply]
      by_cases here : i = n
      · rw [if_pos here, if_pos (by omega), here]
      · rw [if_neg here]
        exact if_congr (by omega) rfl rfl
  have starts : holds 0 (capture, List.replicate taps 0) := by
    refine ⟨(slots_getD capture 0).congr fun i _ => (if_neg (Nat.not_lt_zero i)).symm, List.length_replicate, fun k below => ?_⟩
    rw [List.getElem?_replicate, if_pos below]
    rfl
  obtain ⟨⟨output, weights⟩, runs, last, -⟩ : ∃ last, echoCancel capture reference (List.replicate taps 0) (mu R) = some last ∧
      holds capture.length last := upTo_runs holds capture.length (by omega) (by omega) each starts
  have listed : Slots ((List.range capture.length).map (cancelled (advancing reference) taps capture)) capture.length
      (cancelled (advancing reference) taps capture) :=
    ⟨by simp, fun i below => by simp [below]⟩
  have same := Slots.unique (last.congr fun i below => if_pos below) listed
  exact ⟨weights, runs.trans (by rw [← same])⟩

end Kernel

section Backend
variable {R : Type} [Field R]

theorem dot_map (f g : ℕ → R) (taps : ℕ) :
    dot ((List.range taps).map f) ((List.range taps).map g) = ∑ k ∈ range taps, f k * g k := by
  rw [dot, List.zip_map', List.foldl_map]
  induction taps with
  | zero => rfl
  | succ taps ih => rw [List.range_succ, List.foldl_append, ih, sum_range_succ]; rfl

theorem padTo_eq (reference : List R) (taps n : ℕ) :
    padTo (reference.take taps) taps = (List.range taps).map (standing reference n) := by
  have padded : padTo (reference.take taps) taps = reference.take taps ++ List.replicate (taps - reference.length) 0 := by
    rw [padTo, List.length_take]
    by_cases long : taps ≤ reference.length
    · rw [if_pos (by omega), List.take_take, Nat.min_self, Nat.sub_eq_zero_of_le long, List.replicate_zero, List.append_nil]
    · rw [if_neg (by omega), show taps - min taps reference.length = taps - reference.length by omega]
  rw [padded]
  refine List.ext_getElem (by simp; omega) fun k below below' => ?_
  rw [List.getElem_map, List.getElem_range, standing]
  by_cases inside : k < reference.length
  · rw [List.getElem_append_left (by simp at below'; simp; omega), List.getElem_take, List.getD_eq_getElem _ _ inside]
  · rw [List.getElem_append_right (by simp; omega), List.getElem_replicate, List.getD_eq_default _ _ (not_lt.mp inside)]

/-- The weights of the back end before some sample. -/
def standingWeights (capture reference : List R) (taps n : ℕ) : List R :=
  (List.range taps).map (Nlms.weights (mu R) (epsilon R) taps (standing reference) (fun i => capture.getD i 0) n)

theorem echoStep_eq (capture reference : List R) (taps n : ℕ) (acc : List R) :
    echoStep reference taps (acc, standingWeights capture reference taps n) (capture.getD n 0) =
      (cancelled (standing reference) taps capture n :: acc, standingWeights capture reference taps (n + 1)) := by
  simp only [echoStep, standingWeights, padTo_eq reference taps n, dot_map, List.zip_map', List.map_map]
  rfl

/-- The back end leaves what NLMS leaves over the standing window, while there is a reference. -/
theorem audioEchoCancel_eq (capture reference : List R) (taps : ℕ) : audioEchoCancel capture reference taps =
    (List.range (min capture.length reference.length)).map (cancelled (standing reference) taps capture) := by
  have heard : (capture.zip reference).map Prod.fst =
      (List.range (min capture.length reference.length)).map fun n => capture.getD n 0 := by
    refine List.ext_getElem (by simp) fun n below below' => ?_
    have inside : n < capture.length := by simp at below; omega
    rw [List.getElem_map, List.getElem_zip, List.getElem_map, List.getElem_range, List.getD_eq_getElem _ _ inside]
  have fold (count : ℕ) : ((List.range count).map fun n => capture.getD n 0).foldl (echoStep reference taps)
      ([], List.replicate taps 0) = (((List.range count).map (cancelled (standing reference) taps capture)).reverse,
        standingWeights capture reference taps count) := by
    induction count with
    | zero =>
      have none : standingWeights capture reference taps 0 = List.replicate taps 0 := by
        rw [standingWeights, show Nlms.weights (mu R) (epsilon R) taps (standing reference) (fun i => capture.getD i 0) 0 =
          fun _ => 0 from rfl, List.map_const', List.length_range]
      rw [none]
      rfl
    | succ count ih =>
      rw [List.range_succ, List.map_append, List.map_singleton, List.foldl_append, ih, List.map_append, List.map_singleton,
        List.reverse_append]
      exact echoStep_eq capture reference taps count _
  have folded := fold (min capture.length reference.length)
  rw [← heard, List.foldl_map] at folded
  rw [audioEchoCancel, folded]
  exact List.reverse_reverse _

end Backend

/-- Both cancellers leave of a capture what NLMS leaves over the advancing window. -/
def Agree (capture reference : List ℝ) (taps : ℕ) : Prop :=
  ∃ weights, echoCancel capture reference (List.replicate taps 0) (mu ℝ) = some (audioEchoCancel capture reference taps, weights) ∧
    (audioEchoCancel capture reference taps).length = capture.length ∧
    ∀ n < capture.length, (audioEchoCancel capture reference taps)[n]? = some (cancelled (advancing reference) taps capture n)

/-- What an error adds to the predictions of the back end, whose window stands still. -/
noncomputable def standingGain (reference : List ℝ) (taps : ℕ) : ℝ :=
  (∑ k ∈ range taps, reference.getD k 0 ^ 2) / (∑ k ∈ range taps, reference.getD k 0 ^ 2 + epsilon ℝ)

/-- What an error at one time adds to the prediction at another over the advancing window. -/
noncomputable def advancingGain (reference : List ℝ) (taps m n : ℕ) : ℝ :=
  (∑ k ∈ range taps, advancing reference m k * advancing reference n k) /
    (∑ k ∈ range taps, advancing reference m k ^ 2 + epsilon ℝ)

/-- A sample of the capture less its share of all samples before it, which fades by one factor. -/
noncomputable def faded (reference : List ℝ) (taps : ℕ) (capture : List ℝ) (n : ℕ) : ℝ :=
  capture.getD n 0 - mu ℝ * standingGain reference taps *
    ∑ m ∈ range n, (1 - mu ℝ * standingGain reference taps) ^ (n - 1 - m) * capture.getD m 0

section Agreement
variable {capture reference : List ℝ} {taps : ℕ}

theorem gain_standing (reference : List ℝ) (taps m n : ℕ) :
    Nlms.gain (epsilon ℝ) taps (standing reference) m n = standingGain reference taps := by
  simp only [Nlms.gain, Nlms.product, standing, standingGain, sq]

theorem gain_advancing (reference : List ℝ) (taps m n : ℕ) :
    Nlms.gain (epsilon ℝ) taps (advancing reference) m n = advancingGain reference taps m n := by
  simp only [Nlms.gain, Nlms.product, advancingGain, sq]

theorem mu_ne_zero : mu ℝ ≠ 0 := by norm_num [mu]

theorem agree_iff_cancelled : Agree capture reference taps ↔ capture.length ≤ reference.length ∧
    ∀ n < capture.length, cancelled (standing reference) taps capture n = cancelled (advancing reference) taps capture n := by
  obtain ⟨weights, kernel⟩ := echoCancel_eq capture reference taps
  rw [Agree, kernel, audioEchoCancel_eq]
  constructor
  · rintro ⟨_, -, long, each⟩
    have enough : capture.length ≤ reference.length := by
      rw [List.length_map, List.length_range] at long
      omega
    refine ⟨enough, fun n below => ?_⟩
    have here := each n below
    rw [Nat.min_eq_left enough, List.getElem?_map, List.getElem?_range below] at here
    exact Option.some.inj here
  · rintro ⟨enough, same⟩
    rw [Nat.min_eq_left enough]
    refine ⟨weights, ?_, by simp, fun n below => ?_⟩
    · congr 2
      exact List.map_congr_left fun n member => (same n (List.mem_range.mp member)).symm
    · rw [List.getElem?_map, List.getElem?_range below, Option.map_some, same n below]

/-- For every capture and reference the cancellers agree exactly where the reference is long enough and the gains of the
standing and the advancing window differ by nothing on the faded capture; on all captures of a length, where they are the same. -/
theorem echo_cancellers_agree_iff (reference : List ℝ) (taps : ℕ) :
    (∀ capture, Agree capture reference taps ↔ capture.length ≤ reference.length ∧ ∀ n < capture.length,
      ∑ m ∈ range n, faded reference taps capture m * (standingGain reference taps - advancingGain reference taps m n) = 0) ∧
    ∀ length, (∀ capture, capture.length = length → Agree capture reference taps) ↔
      length ≤ reference.length ∧ ∀ m n, m < n → n < length → standingGain reference taps = advancingGain reference taps m n := by
  have closed (capture : List ℝ) (n : ℕ) : cancelled (standing reference) taps capture n = faded reference taps capture n :=
    Nlms.error_steady (mu ℝ) (epsilon ℝ) taps _ (gain_standing reference taps) n
  constructor
  · intro capture
    have balanced := Nlms.errors_agree_iff (epsilon ℝ) taps (standing reference) (advancing reference)
      (fun n => capture.getD n 0) mu_ne_zero capture.length
    simp only [gain_standing, gain_advancing] at balanced
    rw [agree_iff_cancelled]
    simp only [← closed]
    exact and_congr_right fun _ => balanced
  · intro length
    have gains := Nlms.errors_agree_for_all_iff (epsilon ℝ) taps (standing reference) (advancing reference) mu_ne_zero length
    simp only [gain_standing, gain_advancing] at gains
    rw [← gains]
    simp only [agree_iff_cancelled]
    constructor
    · intro each
      refine ⟨by simpa using (each (List.replicate length 0) List.length_replicate).1, fun c n below => ?_⟩
      have long : ((List.range length).map c).length = length := by simp
      have here := (each _ long).2 n (by omega)
      have same : ∀ n < length, ((List.range length).map c).getD n 0 = c n := by
        intro k inside
        rw [List.getD_eq_getElem _ _ (by omega), List.getElem_map, List.getElem_range]
      unfold cancelled at here
      rwa [Nlms.error_congr _ _ _ _ _ same n below, Nlms.error_congr _ _ _ _ _ same n below] at here
    · rintro ⟨enough, same⟩ capture rfl
      exact ⟨enough, same fun n => capture.getD n 0⟩

/-- The reference falls silent after its first sample, and the back end goes on cancelling that. -/
theorem silent_reference_cancelled : ∃ weights,
    echoCancel [1, 1] [1, 0] (List.replicate 1 0) (mu ℚ) = some ([1, 1], weights) ∧
    audioEchoCancel [1, 1] [1, 0] 1 = [(1 : ℚ), 1 - 1 / 2 / (1 + 1 / 10 ^ 8)] := by
  obtain ⟨weights, kernel⟩ := echoCancel_eq [(1 : ℚ), 1] [1, 0] 1
  refine ⟨weights, ?_, by decide +kernel⟩
  rw [kernel]
  congr 2
  decide +kernel

end Agreement

end Burble.Coprocessor
