import Burble.Loops
import Burble.Coprocessor.Fft
import Burble.BitReversal

namespace Burble.Coprocessor
universe u

/-! The Zig kernel's transforms. A buffer holds complex samples as `[re0, im0, re1, im1, ...]`,
and there is no result where an index is out of bounds. -/

section Permutation
variable {R : Type}

/-- `std.mem.swap` of two elements. -/
def swap (data : List R) (i j : Nat) : Option (List R) := do
  let first ← data[i]?
  let second ← data[j]?
  let data ← write data i second
  write data j first

/-- While the counter holds the bit of `m`, take it out and go on to the next lower one. -/
def dropBits (j m : Nat) : Nat × Nat := if 1 ≤ m ∧ m ≤ j then dropBits (j - m) (m >>> 1) else (j, m)
termination_by m
decreasing_by rw [Nat.shiftRight_one]; omega

/-- One round of the permutation: swap a complex pair, and count `j` up from its highest bit. -/
def permuteRound (n i : Nat) (state : List R × Nat) : Option (List R × Nat) := do
  let (data, j) := state
  let data ←
    if i < j then do
      let data ← swap data (i * 2) (j * 2)
      swap data (i * 2 + 1) (j * 2 + 1)
    else some data
  let (j, m) := dropBits j (n >>> 1)
  some (data, j + m)

def bitReversePermute (data : List R) (n : Nat) : Option (List R) :=
  (upTo Nat.one_pos n (permuteRound n) 0 (data, 0)).map Prod.fst

end Permutation

section Transforms
variable {R : Type} [Field R] (trig : Trigonometry R)

/-- One butterfly: the even sample gets the sum, and the odd one the difference. -/
def butterfly (halfStage group k : Nat) (data : List R) : Option (List R) := do
  let angleStep := -trig.pi / halfStage
  let angle := angleStep * k
  let wr := trig.cos angle
  let wi := trig.sin angle
  let evenIdx := (group + k) * 2
  let oddIdx := (group + k + halfStage) * 2
  let er ← data[evenIdx]?
  let ei ← data[evenIdx + 1]?
  let orVal ← data[oddIdx]?
  let oi ← data[oddIdx + 1]?
  let tr := wr * orVal - wi * oi
  let ti := wr * oi + wi * orVal
  let data ← write data evenIdx (er + tr)
  let data ← write data (evenIdx + 1) (ei + ti)
  let data ← write data oddIdx (er - tr)
  write data (oddIdx + 1) (ei - ti)

/-- The butterflies of all groups of one stage. -/
def stagePass {halfStage : Nat} (positive : 0 < halfStage) (n : Nat) (data : List R) : Option (List R) :=
  let fullStage := halfStage * 2
  upTo (Nat.mul_pos positive Nat.two_pos : 0 < fullStage) n
    (fun group data => upTo Nat.one_pos halfStage (butterfly trig halfStage group) 0 data) 0 data

/-- The stages from one size on. -/
def stages {stage : Nat} (positive : 0 < stage) (n : Nat) (data : List R) : Option (List R) :=
  if stage < n then
    (stagePass trig positive n data).bind (stages (Nat.mul_pos positive Nat.two_pos : 0 < stage * 2) n)
  else some data
termination_by n - stage

def fft (data : List R) (n : Nat) : Option (List R) := do
  let data ← bitReversePermute data n
  stages trig Nat.one_pos n data

def conjugate (i : Nat) (data : List R) : Option (List R) := do
  let im ← data[i]?
  write data i (-im)

def conjugateAndScale (scale : R) (i : Nat) (data : List R) : Option (List R) := do
  let re ← data[i]?
  let data ← write data i (re * scale)
  let im ← data[i + 1]?
  write data (i + 1) (-im * scale)

def ifft (data : List R) (n : Nat) : Option (List R) := do
  let data ← upTo Nat.two_pos data.length conjugate 1 data
  let data ← fft trig data n
  let scale := 1 / (n : R)
  upTo Nat.two_pos data.length (conjugateAndScale scale) 0 data

end Transforms
end Burble.Coprocessor

namespace Burble.Coprocessor
open Complex

/-- The real numbers of complex samples, as a buffer holds them. -/
noncomputable def slot (f : ℕ → ℂ) (i : ℕ) : ℝ := if i % 2 = 0 then (f (i / 2)).re else (f (i / 2)).im

theorem slot_even (f : ℕ → ℂ) (i : ℕ) : slot f (i * 2) = (f i).re := by
  rw [slot, if_pos (by omega), Nat.mul_div_cancel i Nat.two_pos]

theorem slot_odd (f : ℕ → ℂ) (i : ℕ) : slot f (i * 2 + 1) = (f i).im := by
  rw [slot, if_neg (by omega), show (i * 2 + 1) / 2 = i by omega]

/-- The complex samples of a buffer. -/
noncomputable def samples (data : List ℝ) (i : ℕ) : ℂ := ⟨data.getD (i * 2) 0, data.getD (i * 2 + 1) 0⟩

theorem slots_samples {data : List ℝ} {n : ℕ} (length : data.length = n * 2) : Slots data (n * 2) (slot (samples data)) := by
  have all := slots_getD data 0
  rw [length] at all
  refine all.congr fun i below => ?_
  obtain ⟨half, rfl | rfl⟩ := Nat.even_or_odd' i
  · rw [Nat.mul_comm, slot_even, samples]
  · rw [Nat.mul_comm, slot_odd, samples]

theorem samples_slots {data : List ℝ} {n : ℕ} {f : ℕ → ℂ} (slots : Slots data (n * 2) (slot f)) {i : ℕ} (below : i < n) :
    samples data i = f i := by
  have re := slots.read (i * 2) (by omega)
  have im := slots.read (i * 2 + 1) (by omega)
  rw [slot_even] at re
  rw [slot_odd] at im
  rw [samples, List.getD_eq_getElem?_getD, List.getD_eq_getElem?_getD, re, im]
  rfl

section Exchange
variable {Item : Type}

/-- Two values of a function exchanged. -/
def exchanged (values : ℕ → Item) (i j : ℕ) : ℕ → Item :=
  Function.update (Function.update values i (values j)) j (values i)

theorem exchanged_apply (values : ℕ → Item) (i j x : ℕ) :
    exchanged values i j x = if x = j then values i else if x = i then values j else values x := by
  rw [exchanged, Function.update_apply, Function.update_apply]

end Exchange

theorem swap_slots {data : List ℝ} {size i j : ℕ} {values : ℕ → ℝ} (slots : Slots data size values) (first : i < size)
    (second : j < size) : ∃ after, swap data i j = some after ∧ Slots after size (exchanged values i j) := by
  obtain ⟨between, wrote, half⟩ := slots.write first (values j)
  obtain ⟨after, wrote', whole⟩ := half.write second (values i)
  refine ⟨after, ?_, whole⟩
  rw [swap, slots.read i first, slots.read j second]
  simp only [Option.bind_eq_bind, Option.bind_some, wrote, wrote']

theorem exchanged_slot (f : ℕ → ℂ) (i j : ℕ) :
    exchanged (exchanged (slot f) (i * 2) (j * 2)) (i * 2 + 1) (j * 2 + 1) = slot (exchanged f i j) := by
  funext x
  obtain ⟨half, rfl | rfl⟩ := Nat.even_or_odd' x
  · have odd (k : ℕ) : 2 * half ≠ k * 2 + 1 := by omega
    have even (k : ℕ) : 2 * half = k * 2 ↔ half = k := by omega
    rw [Nat.mul_comm 2 half, slot_even]
    rw [Nat.mul_comm] at odd even
    simp only [exchanged_apply, if_neg (odd _), even, slot_even]
    split_ifs <;> rfl
  · have odd (k : ℕ) : 2 * half + 1 = k * 2 + 1 ↔ half = k := by omega
    have even (k : ℕ) : 2 * half + 1 ≠ k * 2 := by omega
    rw [Nat.mul_comm 2 half, slot_odd]
    rw [Nat.mul_comm] at odd even
    simp only [exchanged_apply, if_neg (even _), odd, slot_odd]
    have apart (k l : ℕ) : k * 2 + 1 ≠ l * 2 := by omega
    simp only [if_neg (apart _ _)]
    split_ifs <;> rfl

/-- Dropping the high bits that a reversed counter holds and setting the next counts it up. -/
theorem dropBits_reversed (bits i : ℕ) :
    (dropBits (reversed bits i) (2 ^ bits >>> 1)).1 + (dropBits (reversed bits i) (2 ^ bits >>> 1)).2 = reversed bits (i + 1) := by
  induction bits generalizing i with
  | zero =>
    rw [dropBits, if_neg fun some => absurd some.1 (by decide)]
    rfl
  | succ bits ih =>
    have half : 2 ^ (bits + 1) >>> 1 = 2 ^ bits := by
      rw [Nat.shiftRight_one, Nat.pow_succ, Nat.mul_div_cancel _ Nat.two_pos]
    have positive : 0 < 2 ^ bits := Nat.two_pow_pos bits
    rw [half]
    obtain ⟨rest, rfl | rfl⟩ := Nat.even_or_odd' i
    · have below := reversed_lt bits rest
      rw [reversed_double, dropBits, if_neg (by omega), reversed_double_add_one, Nat.add_comm]
    · rw [reversed_double_add_one, dropBits, if_pos (by omega), Nat.add_sub_cancel_left, ih rest,
        show 2 * rest + 1 + 1 = 2 * (rest + 1) by ring, reversed_double]

/-- The samples after some rounds of the permutation: those of the pairs met so far are exchanged. -/
def arranged (bits rounds : ℕ) (f : ℕ → ℂ) (x : ℕ) : ℂ :=
  if min x (reversed bits x) < rounds then f (reversed bits x) else f x

theorem arranged_next {bits i : ℕ} (f : ℕ → ℂ) (below : i < 2 ^ bits) {x : ℕ} (inside : x < 2 ^ bits) :
    (if i < reversed bits i then exchanged (arranged bits i f) i (reversed bits i) else arranged bits i f) x =
      arranged bits (i + 1) f x := by
  have back := reversed_reversed below
  have back' := reversed_reversed inside
  split
  next order =>
    rw [exchanged_apply]
    by_cases second : x = reversed bits i
    · rw [if_pos second, second, arranged, arranged, back, if_neg (by omega), if_pos (by omega)]
    · by_cases first : x = i
      · rw [if_neg second, if_pos first, first, arranged, arranged, back, if_neg (by omega), if_pos (by omega)]
      · have other : reversed bits x ≠ i := fun same => second (by rw [← same, back'])
        rw [if_neg second, if_neg first, arranged, arranged]
        exact if_congr (by omega) rfl rfl
  next order =>
    rw [arranged, arranged]
    by_cases first : x = i
    · subst first
      by_cases fixed : reversed bits x = x
      · rw [fixed, ite_self, ite_self]
      · rw [if_pos (by omega), if_pos (by omega)]
    · by_cases second : reversed bits x = i
      · have same : x = reversed bits i := by rw [← second, back']
        rw [if_pos (by omega), if_pos (by omega)]
      · exact if_congr (by omega) rfl rfl

theorem permuteRound_slots {data : List ℝ} {bits i : ℕ} {f : ℕ → ℂ} (below : i < 2 ^ bits)
    (slots : Slots data (2 ^ bits * 2) (slot (arranged bits i f))) :
    ∃ after, permuteRound (2 ^ bits) i (data, reversed bits i) = some (after, reversed bits (i + 1)) ∧
      Slots after (2 ^ bits * 2) (slot (arranged bits (i + 1) f)) := by
  have counted := dropBits_reversed bits i
  have next (x : ℕ) (inside : x < 2 ^ bits) := arranged_next f below inside
  have same (x : ℕ) (inside : x < 2 ^ bits * 2) {g : ℕ → ℂ} (pointwise : ∀ x < 2 ^ bits, g x = arranged bits (i + 1) f x) :
      slot g x = slot (arranged bits (i + 1) f) x := by
    rw [slot, slot, pointwise (x / 2) (by omega)]
  rw [permuteRound]
  dsimp only
  by_cases order : i < reversed bits i
  · have second := reversed_lt bits i
    obtain ⟨between, swapped, half⟩ := swap_slots slots (by omega : i * 2 < 2 ^ bits * 2) (by omega : reversed bits i * 2 < 2 ^ bits * 2)
    obtain ⟨after, swapped', whole⟩ :=
      swap_slots half (by omega : i * 2 + 1 < 2 ^ bits * 2) (by omega : reversed bits i * 2 + 1 < 2 ^ bits * 2)
    rw [exchanged_slot] at whole
    simp only [if_pos order] at next
    refine ⟨after, ?_, whole.congr fun x inside => same x inside next⟩
    simp only [if_pos order, swapped, swapped', Option.bind_eq_bind, Option.bind_some, counted]
  · simp only [if_neg order] at next
    refine ⟨data, ?_, slots.congr fun x inside => same x inside next⟩
    simp only [if_neg order, Option.bind_eq_bind, Option.bind_some, counted]

/-- The permutation is the bit reversal. -/
theorem bitReversePermute_slots {data : List ℝ} {bits : ℕ} {f : ℕ → ℂ} (slots : Slots data (2 ^ bits * 2) (slot f)) :
    ∃ after, bitReversePermute data (2 ^ bits) = some after ∧
      Slots after (2 ^ bits * 2) (slot fun i => f (reversed bits i)) := by
  have none : arranged bits 0 f = f := funext fun x => if_neg (Nat.not_lt_zero _)
  let holds (round : ℕ) (state : List ℝ × ℕ) : Prop :=
    Slots state.1 (2 ^ bits * 2) (slot (arranged bits round f)) ∧ state.2 = reversed bits round
  have each (round : ℕ) (below : round < 2 ^ bits) (state : List ℝ × ℕ) (now : holds round state) :
      ∃ next, permuteRound (2 ^ bits) (0 + round * 1) state = some next ∧ holds (round + 1) next := by
    obtain ⟨buffer, j⟩ := state
    obtain ⟨slots, rfl⟩ := now
    obtain ⟨next, done, slots'⟩ := permuteRound_slots below slots
    exact ⟨(next, reversed bits (round + 1)), by rwa [Nat.zero_add, Nat.mul_one], slots', rfl⟩
  have runs : ∃ last, upTo Nat.one_pos (2 ^ bits) (permuteRound (2 ^ bits)) 0 (data, 0) = some last ∧ holds (2 ^ bits) last :=
    upTo_runs holds (2 ^ bits) (by omega) (by omega) each ⟨none ▸ slots, (reversed_zero bits).symm⟩
  obtain ⟨⟨after, j⟩, runs, whole, -⟩ := runs
  refine ⟨after, by rw [bitReversePermute, runs]; rfl, whole.congr fun x inside => ?_⟩
  have below : x / 2 < 2 ^ bits := by omega
  have all : arranged bits (2 ^ bits) f (x / 2) = f (reversed bits (x / 2)) := if_pos (by omega)
  rw [slot, slot, all]

end Burble.Coprocessor
