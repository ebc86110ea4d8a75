import Mathlib.Data.List.GetD

namespace Burble
variable {Symbol : Type} [Inhabited Symbol]

/-- What a copy from `offset` symbols back appends to a text. It may read symbols that it has written. -/
def copied (history : List Symbol) (offset len : Nat) : List Symbol :=
  (List.range len).map fun i => history.getD (history.length - offset + i % offset) default

theorem copied_length (history : List Symbol) (offset len : Nat) : (copied history offset len).length = len := by
  rw [copied, List.length_map, List.length_range]

theorem copied_succ (history : List Symbol) (offset len : Nat) : copied history offset (len + 1) =
    copied history offset len ++ [history.getD (history.length - offset + len % offset) default] := by
  rw [copied, List.range_succ, List.map_append]
  rfl

theorem copied_begins (history : List Symbol) (offset : Nat) {some all : Nat} (less : some ≤ all) :
    copied history offset some <+: copied history offset all := by
  induction less with
  | refl => exact List.prefix_refl _
  | step _ ih =>
    rw [copied_succ]
    exact ih.trans (List.prefix_append _ _)

/-- A text that agrees with itself an offset back repeats its last `offset` symbols. -/
theorem periodic_of_agrees {text : List Symbol} {pos offset len : Nat} (far : 0 < offset) (reaches : offset ≤ pos)
    (agrees : ∀ i < len, text.getD (pos + i) default = text.getD (pos - offset + i) default) {i : Nat} (inside : i < len) :
    text.getD (pos + i) default = text.getD (pos - offset + i % offset) default := by
  induction i using Nat.strongRecOn with
  | ind i ih =>
    rw [agrees i inside]
    by_cases short : i < offset
    · rw [Nat.mod_eq_of_lt short]
    · have back : pos - offset + i = pos + (i - offset) := by omega
      rw [back, ih (i - offset) (by omega) (by omega), Nat.mod_eq_sub_mod (Nat.le_of_not_lt short)]

/-- Such a text is continued by a copy. -/
theorem take_eq_copied {text : List Symbol} {pos offset len : Nat} (far : 0 < offset) (reaches : offset ≤ pos)
    (fits : pos + len ≤ text.length)
    (agrees : ∀ i < len, text.getD (pos + i) default = text.getD (pos - offset + i) default) :
    text.take (pos + len) = text.take pos ++ copied (text.take pos) offset len := by
  have taken : (text.take pos).length = pos := List.length_take_of_le (by omega)
  rw [List.take_add]
  congr 1
  refine List.ext_getElem ?_ fun i left right => ?_
  · rw [copied_length, List.length_take_of_le]
    rw [List.length_drop]
    omega
  · rw [copied_length] at right
    have inside : pos - offset + i % offset < pos := by
      have := Nat.mod_lt i far
      omega
    have periodic := periodic_of_agrees far reaches agrees right
    rw [List.getD_eq_getElem _ _ (by omega), List.getD_eq_getElem _ _ (by omega)] at periodic
    simp only [copied, List.getElem_take, List.getElem_drop, List.getElem_map, List.getElem_range, taken]
    rw [List.getD_eq_getElem _ _ (by omega), List.getElem_take, periodic]

end Burble
