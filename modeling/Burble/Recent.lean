import Mathlib.Data.List.Infix

namespace Burble
universe u
variable {Item : Type u}

/-- The newest items, oldest first, of those there have been. -/
def recent (capacity : Nat) (items : List Item) : List Item := items.drop (items.length - capacity)

theorem recent_nil (capacity : Nat) : recent capacity ([] : List Item) = [] := List.drop_nil

theorem recent_length (capacity : Nat) (items : List Item) :
    (recent capacity items).length = min items.length capacity := by
  rw [recent, List.length_drop]
  omega

theorem recent_suffix (capacity : Nat) (items : List Item) : recent capacity items <:+ items := List.drop_suffix _ _

theorem recent_of_le {capacity : Nat} {items : List Item} (few : items.length ≤ capacity) :
    recent capacity items = items := by
  rw [recent, Nat.sub_eq_zero_of_le few, List.drop_zero]

/-- The oldest item makes room for a new one where there is none left. -/
theorem recent_snoc {capacity : Nat} (positive : 0 < capacity) (items : List Item) (item : Item) :
    recent capacity (items ++ [item]) =
      if capacity ≤ (recent capacity items).length then (recent capacity items).tail ++ [item]
      else recent capacity items ++ [item] := by
  rw [recent_length, recent, List.length_append, List.length_singleton, List.drop_append_of_le_length (by omega)]
  split
  next full =>
    rw [recent, List.tail_drop]
    congr 2
    omega
  next =>
    rw [recent]
    congr 2
    omega

/-- The same kept newest first, where the oldest item is the last. -/
theorem reverse_recent_snoc {capacity : Nat} (positive : 0 < capacity) (items : List Item) (item : Item) :
    (recent capacity (items ++ [item])).reverse =
      item :: if capacity ≤ (recent capacity items).length then (recent capacity items).reverse.dropLast
        else (recent capacity items).reverse := by
  rw [recent_snoc positive]
  split
  next => rw [List.reverse_append, List.dropLast_reverse]; rfl
  next => rw [List.reverse_append]; rfl

end Burble
