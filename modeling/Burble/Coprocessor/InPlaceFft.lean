import Burble.Coprocessor.Dsp

namespace Burble.Coprocessor
open Complex

/-- Two samples after one butterfly. -/
noncomputable def crossed (w : ℂ) (f : ℕ → ℂ) (e o : ℕ) : ℕ → ℂ :=
  Function.update (Function.update f e (f e + w * f o)) o (f e - w * f o)

section Butterflies
variable {data : List ℝ} {n half : ℕ} {f : ℕ → ℂ}

theorem update_slot (f : ℕ → ℂ) (i : ℕ) (z : ℂ) :
    Function.update (Function.update (slot f) (i * 2) z.re) (i * 2 + 1) z.im = slot (Function.update f i z) := by
  funext x
  obtain ⟨place, rfl | rfl⟩ := Nat.even_or_odd' x
  · rw [Nat.mul_comm 2 place, Function.update_of_ne (by omega), slot_even, Function.update_apply, Function.update_apply, slot_even]
    by_cases same : place = i
    · rw [if_pos (by omega), if_pos same]
    · rw [if_neg (by omega), if_neg same]
  · rw [Nat.mul_comm 2 place, slot_odd, Function.update_apply, Function.update_of_ne (by omega), Function.update_apply, slot_odd]
    by_cases same : place = i
    · rw [if_pos (by omega), if_pos same]
    · rw [if_neg (by omega), if_neg same]

/-- A complex sample is written as two real numbers. -/
theorem write_sample (slots : Slots data (n * 2) (slot f)) {i : ℕ} (below : i < n) (z : ℂ) : ∃ between after,
    write data (i * 2) z.re = some between ∧ write between (i * 2 + 1) z.im = some after ∧
      Slots after (n * 2) (slot (Function.update f i z)) := by
  obtain ⟨between, wrote, first⟩ := slots.write (by omega : i * 2 < n * 2) z.re
  obtain ⟨after, wrote', second⟩ := first.write (by omega : i * 2 + 1 < n * 2) z.im
  rw [update_slot] at second
  exact ⟨between, after, wrote, wrote', second⟩

theorem twiddle_half (half k : ℕ) : unityRoot (2 * half) k =
    ⟨exact.cos (-exact.pi / half * k), exact.sin (-exact.pi / half * k)⟩ := by
  have angle : -2 * exact.pi * k / ((2 * half : ℕ) : ℝ) = -exact.pi / half * k := by
    push_cast
    ring
  rw [twiddle, angle]

theorem butterfly_slots {group k : ℕ} (slots : Slots data (n * 2) (slot f)) (inside : group + k + half < n) :
    ∃ after, butterfly exact half group k data = some after ∧
      Slots after (n * 2) (slot (crossed (unityRoot (2 * half) k) f (group + k) (group + k + half))) := by
  have factor := twiddle_half half k
  obtain ⟨first, second, wroteFirst, wroteSecond, sum⟩ :=
    write_sample slots (by omega : group + k < n) (f (group + k) + unityRoot (2 * half) k * f (group + k + half))
  obtain ⟨third, after, wroteThird, wroteLast, difference⟩ :=
    write_sample sum inside (f (group + k) - unityRoot (2 * half) k * f (group + k + half))
  refine ⟨after, ?_, difference⟩
  have er := slots.read ((group + k) * 2) (by omega)
  have ei := slots.read ((group + k) * 2 + 1) (by omega)
  have orVal := slots.read ((group + k + half) * 2) (by omega)
  have oi := slots.read ((group + k + half) * 2 + 1) (by omega)
  rw [slot_even] at er orVal
  rw [slot_odd] at ei oi
  simp only [add_re, add_im, sub_re, sub_im, mul_re, mul_im, factor] at wroteFirst wroteSecond wroteThird wroteLast
  simp only [butterfly, er, ei, orVal, oi, Option.bind_eq_bind, Option.bind_some, wroteFirst, wroteSecond, wroteThird, wroteLast]

/-- The butterflies that come before the one of some group and place. -/
def Passed (half group k x : ℕ) : Prop := x / half / 2 < group ∨ x / half / 2 = group ∧ x % half < k

instance (half group k x : ℕ) : Decidable (Passed half group k x) := inferInstanceAs (Decidable (_ ∨ _))

/-- A sample after its butterfly of a stage. -/
noncomputable def staged (half : ℕ) (f : ℕ → ℂ) (x : ℕ) : ℂ :=
  if x / half % 2 = 0 then f x + unityRoot (2 * half) (x % half) * f (x + half)
  else f (x - half) - unityRoot (2 * half) (x % half) * f x

/-- The samples before the butterfly of some group and place. -/
noncomputable def partway (half group k : ℕ) (f : ℕ → ℂ) (x : ℕ) : ℂ := if Passed half group k x then staged half f x else f x

theorem place_div (block : ℕ) {k : ℕ} (below : k < half) : (block * half + k) / half = block := by
  rw [Nat.mul_comm, Nat.mul_add_div (by omega), Nat.div_eq_of_lt below, Nat.add_zero]

theorem place_mod (block : ℕ) {k : ℕ} (below : k < half) : (block * half + k) % half = k := by
  rw [Nat.mul_comm, Nat.mul_add_mod, Nat.mod_eq_of_lt below]

/-- A butterfly takes the samples of a stage one round further. -/
theorem crossed_partway {group k : ℕ} (below : k < half) :
    crossed (unityRoot (2 * half) k) (partway half group k f) (group * (half * 2) + k) (group * (half * 2) + k + half) =
      partway half group (k + 1) f := by
  have even : group * (half * 2) + k = 2 * group * half + k := by ring
  have odd : 2 * group * half + k + half = (2 * group + 1) * half + k := by ring
  have back : (2 * group + 1) * half + k - half = 2 * group * half + k := by rw [← odd, Nat.add_sub_cancel]
  have evenDiv := place_div (2 * group) below
  have oddDiv := place_div (2 * group + 1) below
  have evenMod := place_mod (2 * group) below
  have oddMod := place_mod (2 * group + 1) below
  have evenFirst : partway half group k f (2 * group * half + k) = f (2 * group * half + k) :=
    if_neg (by unfold Passed; rw [evenDiv, evenMod]; omega)
  have oddFirst : partway half group k f ((2 * group + 1) * half + k) = f ((2 * group + 1) * half + k) :=
    if_neg (by unfold Passed; rw [oddDiv, oddMod]; omega)
  funext x
  rw [even, odd, crossed, Function.update_apply, Function.update_apply, evenFirst, oddFirst]
  by_cases second : x = (2 * group + 1) * half + k
  · have now : Passed half group (k + 1) x := by unfold Passed; rw [second, oddDiv, oddMod]; omega
    rw [if_pos second, partway, if_pos now, staged, second, oddDiv, oddMod, if_neg (by omega), back]
  · by_cases first : x = 2 * group * half + k
    · have now : Passed half group (k + 1) x := by unfold Passed; rw [first, evenDiv, evenMod]; omega
      rw [if_neg second, if_pos first, partway, if_pos now, staged, first, evenDiv, evenMod, if_pos (by omega), odd]
    · have parts : x = x / half * half + x % half := (Nat.div_add_mod' x half).symm
      have same : Passed half group (k + 1) x ↔ Passed half group k x := by
        have elsewhere : ¬ (x / half / 2 = group ∧ x % half = k) := by
          rintro ⟨block, place⟩
          rcases (by omega : x / half = 2 * group ∨ x / half = 2 * group + 1) with low | high
          · exact first (by rw [parts, low, place])
          · exact second (by rw [parts, high, place])
        unfold Passed
        omega
      rw [if_neg second, if_neg first, partway, partway]
      exact if_congr same.symm rfl rfl

/-- One group of butterflies stays in bounds, and takes its samples through the stage. -/
theorem group_slots {group groups : ℕ} (positive : 0 < half) (below : group < groups)
    (slots : Slots data (groups * (half * 2) * 2) (slot (partway half group 0 f))) :
    ∃ after, upTo Nat.one_pos half (butterfly exact half (group * (half * 2))) 0 data = some after ∧
      Slots after (groups * (half * 2) * 2) (slot (partway half (group + 1) 0 f)) := by
  let holds (k : ℕ) (data : List ℝ) : Prop := Slots data (groups * (half * 2) * 2) (slot (partway half group k f))
  have inside : (group + 1) * (half * 2) ≤ groups * (half * 2) := Nat.mul_le_mul_right _ below
  have each (k : ℕ) (under : k < half) (data : List ℝ) (now : holds k data) :
      ∃ next, butterfly exact half (group * (half * 2)) (0 + k * 1) data = some next ∧ holds (k + 1) next := by
    rw [Nat.zero_add, Nat.mul_one]
    rw [Nat.succ_mul] at inside
    obtain ⟨next, done, crossed⟩ := butterfly_slots now (by omega : group * (half * 2) + k + half < groups * (half * 2))
    rw [crossed_partway under] at crossed
    exact ⟨next, done, crossed⟩
  have runs : ∃ after, upTo Nat.one_pos half (butterfly exact half (group * (half * 2))) 0 data = some after ∧ holds half after :=
    upTo_runs holds half (by omega) (by omega) each slots
  obtain ⟨after, runs, last⟩ := runs
  refine ⟨after, runs, last.congr fun x _ => ?_⟩
  have next : partway half group half f = partway half (group + 1) 0 f := by
    funext x
    have small := Nat.mod_lt x positive
    unfold partway Passed
    exact if_congr (by omega) rfl rfl
  rw [next]

theorem stagePass_slots {groups : ℕ} (positive : 0 < half) (slots : Slots data (groups * (half * 2) * 2) (slot f)) :
    ∃ after, stagePass exact positive (groups * (half * 2)) data = some after ∧
      Slots after (groups * (half * 2) * 2) (slot (staged half f)) := by
  let holds (group : ℕ) (data : List ℝ) : Prop := Slots data (groups * (half * 2) * 2) (slot (partway half group 0 f))
  have none : partway half 0 0 f = f := by
    funext x
    exact if_neg (by rintro (low | ⟨_, low⟩) <;> exact Nat.not_lt_zero _ low)
  have each (group : ℕ) (below : group < groups) (data : List ℝ) (now : holds group data) :
      ∃ next, upTo Nat.one_pos half (butterfly exact half (0 + group * (half * 2))) 0 data = some next ∧ holds (group + 1) next := by
    rw [Nat.zero_add]
    exact group_slots positive below now
  have full : 0 < half * 2 := by omega
  have runs : ∃ after, stagePass exact positive (groups * (half * 2)) data = some after ∧ holds groups after :=
    upTo_runs holds groups
      (fun group below => by rw [Nat.zero_add]; exact Nat.mul_lt_mul_of_pos_right below full) (by omega) each (none.symm ▸ slots : Slots data _ (slot (partway half 0 0 f)))
  obtain ⟨after, runs, last⟩ := runs
  refine ⟨after, runs, last.congr fun x below => ?_⟩
  have all : partway half groups 0 f (x / 2) = staged half f (x / 2) := by
    have block : x / 2 / half / 2 < groups := by
      rw [Nat.div_div_eq_div_mul, Nat.div_lt_iff_lt_mul (by omega)]
      omega
    exact if_pos (.inl block)
  rw [slot, slot, all]

end Butterflies

/-- The transforms of the parts of a signal that some stages have put together. -/
noncomputable def blocks (done left : ℕ) (f : ℕ → ℂ) (x : ℕ) : ℂ :=
  dft (2 ^ done) (fun j => f (j * 2 ^ left + reversed left (x / 2 ^ done))) (x % 2 ^ done)

section Stages
variable {data : List ℝ} {f : ℕ → ℂ}

/-- A stage puts the transforms of an even and an odd part together. -/
theorem staged_blocks (done left : ℕ) (f : ℕ → ℂ) : staged (2 ^ done) (blocks done (left + 1) f) = blocks (done + 1) left f := by
  funext x
  have positive : 0 < 2 ^ done := Nat.two_pow_pos done
  have double : 2 ^ (done + 1) = 2 * 2 ^ done := Nat.pow_succ'
  have evens (j q : ℕ) : j * 2 ^ (left + 1) + reversed (left + 1) (2 * q) = 2 * j * 2 ^ left + reversed left q := by
    rw [reversed_double, pow_succ]
    ring
  have odds (j q : ℕ) : j * 2 ^ (left + 1) + reversed (left + 1) (2 * q + 1) = (2 * j + 1) * 2 ^ left + reversed left q := by
    rw [reversed_double_add_one, pow_succ]
    ring
  have even {q k : ℕ} (below : k < 2 ^ done) : blocks done (left + 1) f (2 * q * 2 ^ done + k) =
      dft (2 ^ done) (fun j => f (2 * j * 2 ^ left + reversed left q)) k := by
    simp only [blocks, place_div _ below, place_mod _ below, evens]
  have odd {q k : ℕ} (below : k < 2 ^ done) : blocks done (left + 1) f ((2 * q + 1) * 2 ^ done + k) =
      dft (2 ^ done) (fun j => f ((2 * j + 1) * 2 ^ left + reversed left q)) k := by
    simp only [blocks, place_div _ below, place_mod _ below, odds]
  have whole {q k : ℕ} (below : k < 2 ^ (done + 1)) : blocks (done + 1) left f (q * 2 ^ (done + 1) + k) =
      dft (2 * 2 ^ done) (fun j => f (j * 2 ^ left + reversed left q)) k := by
    simp only [blocks, place_div _ below, place_mod _ below]
    rw [double]
  have small : x % 2 ^ done < 2 ^ done := Nat.mod_lt x positive
  have parts : x / 2 ^ done * 2 ^ done + x % 2 ^ done = x := Nat.div_add_mod' x _
  obtain ⟨q, low | high⟩ := Nat.even_or_odd' (x / 2 ^ done)
  · generalize x % 2 ^ done = k at small parts
    rw [low] at parts
    have upper : 2 * q * 2 ^ done + k + 2 ^ done = (2 * q + 1) * 2 ^ done + k := by ring
    have place : 2 * q * 2 ^ done + k = q * 2 ^ (done + 1) + k := by rw [double]; ring
    rw [← parts, staged, place_div _ small, place_mod _ small, if_pos (Nat.mul_mod_right 2 q), upper, even small, odd small,
      place, whole (by omega), dft_double]
  · generalize x % 2 ^ done = k at small parts
    rw [high] at parts
    have lower : (2 * q + 1) * 2 ^ done + k - 2 ^ done = 2 * q * 2 ^ done + k := by
      rw [show (2 * q + 1) * 2 ^ done + k = 2 * q * 2 ^ done + k + 2 ^ done by ring, Nat.add_sub_cancel]
    have place : (2 * q + 1) * 2 ^ done + k = q * 2 ^ (done + 1) + (k + 2 ^ done) := by rw [double]; ring
    rw [← parts, staged, place_div _ small, place_mod _ small, if_neg (by omega), lower, even small, odd small,
      place, whole (by omega), dft_upper positive]

theorem blocks_zero (bits : ℕ) (f : ℕ → ℂ) : blocks 0 bits f = fun x => f (reversed bits x) := by
  funext x
  simp [blocks, dft, unityRoot_zero]

theorem blocks_all {bits x : ℕ} (f : ℕ → ℂ) (below : x < 2 ^ bits) : blocks bits 0 f x = dft (2 ^ bits) f x := by
  simp only [blocks, reversed, pow_zero, Nat.mul_one, Nat.add_zero, Nat.mod_eq_of_lt below]

/-- The stages that are left put the whole transform together. -/
theorem stages_slots {left done stage : ℕ} (positive : 0 < stage) (size : stage = 2 ^ done)
    (slots : Slots data (2 ^ (done + left) * 2) (slot (blocks done left f))) :
    ∃ after, stages exact positive (2 ^ (done + left)) data = some after ∧
      Slots after (2 ^ (done + left) * 2) (slot (dft (2 ^ (done + left)) f)) := by
  induction left generalizing done stage data with
  | zero =>
    rw [stages, if_neg (by rw [size]; exact lt_irrefl _)]
    refine ⟨data, rfl, slots.congr fun x below => ?_⟩
    rw [Nat.add_zero] at below
    have all : blocks done 0 f (x / 2) = dft (2 ^ (done + 0)) f (x / 2) := blocks_all f (by omega)
    rw [slot, slot, all]
  | succ left ih =>
    subst size
    have groups : 2 ^ (done + (left + 1)) = 2 ^ left * (2 ^ done * 2) := by ring
    have below : 2 ^ done < 2 ^ (done + (left + 1)) := Nat.pow_lt_pow_right (by decide) (by omega)
    rw [groups] at slots
    obtain ⟨next, passed, staged⟩ := stagePass_slots positive slots
    rw [staged_blocks, ← groups] at staged
    rw [← groups] at passed
    rw [stages, if_pos below, passed, Option.bind_some]
    have same : done + (left + 1) = done + 1 + left := by omega
    rw [same] at staged ⊢
    exact ih _ (Nat.pow_succ ..).symm staged

end Stages

section Transforms
variable {data : List ℝ} {bits : ℕ} {f : ℕ → ℂ}

/-- The transform of a buffer is left in it. -/
theorem fft_slots (slots : Slots data (2 ^ bits * 2) (slot f)) : ∃ after, fft exact data (2 ^ bits) = some after ∧
    Slots after (2 ^ bits * 2) (slot (dft (2 ^ bits) f)) := by
  obtain ⟨permuted, done, reordered⟩ := bitReversePermute_slots slots
  rw [← blocks_zero] at reordered
  have placed : Slots permuted (2 ^ (0 + bits) * 2) (slot (blocks 0 bits f)) := by rwa [Nat.zero_add]
  obtain ⟨after, run, transformed⟩ := stages_slots Nat.one_pos (pow_zero 2).symm placed
  rw [Nat.zero_add] at run transformed
  refine ⟨after, ?_, transformed⟩
  rw [fft, done, Option.bind_eq_bind, Option.bind_some, run]

/-- The samples after some rounds of a loop that changes each of them. -/
noncomputable def rewritten (change : ℂ → ℂ) (rounds : ℕ) (f : ℕ → ℂ) (x : ℕ) : ℂ := if x < rounds then change (f x) else f x

theorem update_rewritten (change : ℂ → ℂ) (round : ℕ) (f : ℕ → ℂ) :
    Function.update (rewritten change round f) round (change (f round)) = rewritten change (round + 1) f := by
  funext x
  rw [Function.update_apply, rewritten, rewritten]
  by_cases here : x = round
  · rw [if_pos here, if_pos (by omega), here]
  · rw [if_neg here]
    exact if_congr (by omega) rfl rfl

variable {n : ℕ}

/-- A loop with a round for each sample leaves all of them changed, where each round changes its own. -/
theorem rewritten_slots (change : ℂ → ℂ) {start : ℕ} {body : ℕ → List ℝ → Option (List ℝ)} (early : start ≤ 1)
    (each : ∀ round < n, ∀ data, Slots data (n * 2) (slot (rewritten change round f)) →
      ∃ next, body (start + round * 2) data = some next ∧ Slots next (n * 2) (slot (rewritten change (round + 1) f)))
    (slots : Slots data (n * 2) (slot f)) : ∃ after, upTo Nat.two_pos data.length body start data = some after ∧
      Slots after (n * 2) (slot fun x => change (f x)) := by
  have none : rewritten change 0 f = f := funext fun x => if_neg (Nat.not_lt_zero x)
  have inside (round : ℕ) (below : round < n) : start + round * 2 < data.length := by
    rw [slots.length]
    omega
  have outside : data.length ≤ start + n * 2 := slots.length.trans_le (Nat.le_add_left _ _)
  rw [← none] at slots
  obtain ⟨after, run, last⟩ :=
    upTo_runs (fun round data => Slots data (n * 2) (slot (rewritten change round f))) n inside outside each slots
  refine ⟨after, run, last.congr fun x below => ?_⟩
  have all : rewritten change n f (x / 2) = change (f (x / 2)) := if_pos (by omega)
  rw [slot, slot, all]

theorem conjugated_slots (slots : Slots data (n * 2) (slot f)) : ∃ after, upTo Nat.two_pos data.length conjugate 1 data = some after ∧
    Slots after (n * 2) (slot fun x => starRingEnd ℂ (f x)) := by
  let change : ℂ → ℂ := starRingEnd ℂ
  have each (round : ℕ) (below : round < n) (data : List ℝ) (now : Slots data (n * 2) (slot (rewritten change round f))) :
      ∃ next, conjugate (1 + round * 2) data = some next ∧
        Slots next (n * 2) (slot (rewritten change (round + 1) f)) := by
    have untouched : rewritten change round f round = f round := if_neg (lt_irrefl _)
    have im := Slots.read now (round * 2 + 1) (by omega)
    rw [slot_odd, untouched] at im
    obtain ⟨next, wrote, slots'⟩ := Slots.write now (by omega : round * 2 + 1 < n * 2) (-(f round).im)
    have same : Function.update (slot (rewritten change round f)) (round * 2 + 1) (-(f round).im) =
        slot (rewritten change (round + 1) f) := by
      rw [← update_rewritten, ← update_slot]
      have kept : Function.update (slot (rewritten change round f)) (round * 2) (change (f round)).re =
          slot (rewritten change round f) := by
        rw [Function.update_eq_self_iff, slot_even, untouched]
        rfl
      rw [kept]
      rfl
    rw [same] at slots'
    refine ⟨next, ?_, slots'⟩
    rw [Nat.add_comm, conjugate, im, Option.bind_eq_bind, Option.bind_some, wrote]
  exact rewritten_slots change le_rfl each slots

theorem scaled_slots (scale : ℝ) (slots : Slots data (n * 2) (slot f)) :
    ∃ after, upTo Nat.two_pos data.length (conjugateAndScale scale) 0 data = some after ∧
      Slots after (n * 2) (slot fun x => starRingEnd ℂ (f x) * scale) := by
  let change (z : ℂ) : ℂ := starRingEnd ℂ z * scale
  have each (round : ℕ) (below : round < n) (data : List ℝ) (now : Slots data (n * 2) (slot (rewritten change round f))) :
      ∃ next, conjugateAndScale scale (0 + round * 2) data = some next ∧
        Slots next (n * 2) (slot (rewritten change (round + 1) f)) := by
    have untouched : rewritten change round f round = f round := if_neg (lt_irrefl _)
    have re := Slots.read now (round * 2) (by omega)
    rw [slot_even, untouched] at re
    have real : (change (f round)).re = (f round).re * scale := by simp [change]
    have imaginary : (change (f round)).im = -(f round).im * scale := by simp [change]
    obtain ⟨between, next, wrote, wrote', slots'⟩ := write_sample now below (change (f round))
    have half := (Slots.write now (by omega : round * 2 < n * 2) (change (f round)).re)
    rw [wrote] at half
    obtain ⟨_, same, half⟩ := half
    cases same
    have im := half.read (round * 2 + 1) (by omega)
    rw [Function.update_of_ne (by omega), slot_odd, untouched] at im
    rw [update_rewritten] at slots'
    rw [real] at wrote
    rw [imaginary] at wrote'
    refine ⟨next, ?_, slots'⟩
    simp only [Nat.zero_add, conjugateAndScale, re, im, wrote, wrote', Option.bind_eq_bind, Option.bind_some]
  exact rewritten_slots change (Nat.zero_le 1) each slots

/-- The inverse gives the signal of a transform. -/
theorem ifft_slots (slots : Slots data (2 ^ bits * 2) (slot (dft (2 ^ bits) f))) : ∃ after, ifft exact data (2 ^ bits) = some after ∧
    Slots after (2 ^ bits * 2) (slot f) := by
  obtain ⟨conjugated, first, flipped⟩ := conjugated_slots slots
  obtain ⟨transformed, second, again⟩ := fft_slots flipped
  obtain ⟨after, third, back⟩ := scaled_slots (1 / ((2 ^ bits : ℕ) : ℝ)) again
  refine ⟨after, ?_, back.congr fun x below => ?_⟩
  · rw [ifft, first]
    simp only [Option.bind_eq_bind, Option.bind_some, second, third]
  · have nonzero : ((2 ^ bits : ℕ) : ℂ) ≠ 0 := Nat.cast_ne_zero.mpr (Nat.two_pow_pos bits).ne'
    have inverse := dft_inverse f (by omega : x / 2 < 2 ^ bits)
    have value : starRingEnd ℂ (dft (2 ^ bits) (fun k => starRingEnd ℂ (dft (2 ^ bits) f k)) (x / 2)) *
        ((1 / ((2 ^ bits : ℕ) : ℝ) : ℝ) : ℂ) = f (x / 2) := by
      rw [inverse, ofReal_div, ofReal_one, ofReal_natCast, mul_one_div, mul_comm, mul_div_assoc, div_self nonzero, mul_one]
    rw [slot, slot, value]

end Transforms

/-- For every buffer of a power of two of complex samples: the permutation reverses the bits of their indices,
the transform leaves their discrete Fourier transform, and the inverse of that gives the buffer again; no index is out of bounds. -/
theorem in_place_fft (bits : ℕ) (data : List ℝ) (length : data.length = 2 ^ bits * 2) :
    (∀ i < 2 ^ bits, reversed bits i < 2 ^ bits ∧ reversed bits (reversed bits i) = i ∧
      ∀ bit < bits, (reversed bits i).testBit bit = i.testBit (bits - 1 - bit)) ∧
    (∃ permuted, bitReversePermute data (2 ^ bits) = some permuted ∧ permuted.length = data.length ∧
      ∀ i < 2 ^ bits, samples permuted i = samples data (reversed bits i)) ∧
    ∃ spectrum, fft exact data (2 ^ bits) = some spectrum ∧ spectrum.length = data.length ∧
      (∀ k < 2 ^ bits, samples spectrum k = dft (2 ^ bits) (samples data) k) ∧
      ifft exact spectrum (2 ^ bits) = some data := by
  have slots := slots_samples length
  obtain ⟨permuted, done, reordered⟩ := bitReversePermute_slots slots
  obtain ⟨spectrum, run, transformed⟩ := fft_slots slots
  obtain ⟨back, inverted, restored⟩ := ifft_slots transformed
  refine ⟨fun i below => ⟨reversed_lt bits i, reversed_reversed below, fun bit => reversed_testBit⟩, ?_, ?_⟩
  · exact ⟨permuted, done, reordered.length.trans length.symm, fun i below => samples_slots reordered below⟩
  · refine ⟨spectrum, run, transformed.length.trans length.symm, fun k below => samples_slots transformed below, ?_⟩
    rw [inverted, restored.unique slots]

theorem in_place_fft_four : ∃ spectrum, fft exact [1, 0, 2, 0, 3, 0, 4, 0] (2 ^ 2) = some spectrum ∧
    ifft exact spectrum (2 ^ 2) = some [1, 0, 2, 0, 3, 0, 4, 0] := by
  obtain ⟨-, -, spectrum, run, -, -, back⟩ := in_place_fft 2 [1, 0, 2, 0, 3, 0, 4, 0] rfl
  exact ⟨spectrum, run, back⟩

end Burble.Coprocessor
