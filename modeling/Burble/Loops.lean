import Mathlib.Data.List.GetD
import Mathlib.Logic.Function.Basic
import Mathlib.Order.Basic

namespace Burble

/-! Counting loops over a state, whose bodies may fail. -/

section Loops
variable {State : Type} {step : Nat}

/-- A loop `while (i < limit) : (i += step)`. -/
def upTo (positive : 0 < step) (limit : Nat) (body : Nat → State → Option State) (i : Nat) (s : State) : Option State :=
  if i < limit then (body i s).bind (upTo positive limit body (i + step)) else some s
termination_by limit - i

variable {positive : 0 < step} {limit : Nat} {body : Nat → State → Option State} (holds : Nat → State → Prop)

/-- What holds when a loop begins and is kept by every round of it holds when it ends. -/
theorem upTo_runs {start : Nat} (rounds : Nat) (inside : ∀ round < rounds, start + round * step < limit)
    (outside : limit ≤ start + rounds * step)
    (each : ∀ round < rounds, ∀ s, holds round s → ∃ s', body (start + round * step) s = some s' ∧ holds (round + 1) s')
    {s : State} (starts : holds 0 s) : ∃ s', upTo positive limit body start s = some s' ∧ holds rounds s' := by
  have later (left : Nat) : ∀ round s, round + left = rounds → holds round s →
      ∃ s', upTo positive limit body (start + round * step) s = some s' ∧ holds rounds s' := by
    induction left with
    | zero =>
      intro round s total now
      obtain rfl : rounds = round := by omega
      rw [upTo, if_neg (by omega)]
      exact ⟨s, rfl, now⟩
    | succ left ih =>
      intro round s total now
      have below : round < rounds := by omega
      obtain ⟨next, done, kept⟩ := each round below s now
      rw [upTo, if_pos (inside round below), done, Option.bind_some, Nat.add_assoc, ← Nat.succ_mul]
      exact ih (round + 1) next (by omega) kept
  have run := later rounds 0 s (Nat.zero_add _) starts
  rwa [Nat.zero_mul] at run

end Loops

/-! Buffers that are read and written by index. -/

section Buffers
variable {Item : Type}

/-- A write to an index of a buffer, and nothing where this is out of bounds. -/
def write (buffer : List Item) (i : Nat) (item : Item) : Option (List Item) :=
  if i < buffer.length then some (buffer.set i item) else none

/-- A buffer holds the values of a function. -/
structure Slots (buffer : List Item) (size : Nat) (values : Nat → Item) : Prop where
  length : buffer.length = size
  read : ∀ i < size, buffer[i]? = some (values i)

variable {buffer : List Item} {size : Nat} {values values' : Nat → Item}

theorem Slots.congr (slots : Slots buffer size values) (same : ∀ i < size, values i = values' i) : Slots buffer size values' where
  length := slots.length
  read i below := same i below ▸ slots.read i below

theorem Slots.write (slots : Slots buffer size values) {i : Nat} (below : i < size) (item : Item) :
    ∃ after, write buffer i item = some after ∧ Slots after size (Function.update values i item) := by
  refine ⟨buffer.set i item, if_pos (slots.length ▸ below), (List.length_set).trans slots.length, fun j inside => ?_⟩
  rw [List.getElem?_set]
  by_cases same : i = j
  · subst same
    rw [if_pos rfl, if_pos (slots.length ▸ below), Function.update_self]
  · rw [if_neg same, Function.update_of_ne (Ne.symm same), slots.read j inside]

/-- Buffers that hold the same values are the same. -/
theorem Slots.unique {buffer' : List Item} (slots : Slots buffer size values) (slots' : Slots buffer' size values) : buffer = buffer' := by
  refine List.ext_getElem? fun i => ?_
  by_cases below : i < size
  · rw [slots.read i below, slots'.read i below]
  · rw [List.getElem?_eq_none (slots.length ▸ Nat.not_lt.mp below), List.getElem?_eq_none (slots'.length ▸ Nat.not_lt.mp below)]

theorem slots_getD (buffer : List Item) (blank : Item) : Slots buffer buffer.length fun i => buffer.getD i blank where
  length := rfl
  read i below := by rw [List.getElem?_eq_getElem below, List.getD_eq_getElem _ _ below]

end Buffers

end Burble
