import Mathlib.Data.List.Basic

namespace Burble
variable {α : Type} {sep : α} {front front' rest rest' : List α}

/-- Two lists split at the first occurrence of a separator split the same way. -/
theorem split_at_first (free : sep ∉ front) (free' : sep ∉ front')
    (same : front ++ sep :: rest = front' ++ sep :: rest') : front = front' ∧ rest = rest' := by
  induction front generalizing front' with
  | nil =>
    cases front' with
    | nil => exact ⟨rfl, (List.cons.inj same).2⟩
    | cons head tail => exact absurd ((List.cons.inj same).1 ▸ List.mem_cons_self) free'
  | cons head tail ih =>
    cases front' with
    | nil => exact absurd ((List.cons.inj same).1 ▸ List.mem_cons_self) free
    | cons head' tail' =>
      obtain ⟨heads, tails⟩ := List.cons.inj same
      have split := ih (fun member => free (List.mem_cons_of_mem _ member))
        (fun member => free' (List.mem_cons_of_mem _ member)) tails
      exact ⟨by rw [heads, split.1], split.2⟩

/-- And at the last. -/
theorem split_at_last (free : sep ∉ rest) (free' : sep ∉ rest')
    (same : front ++ sep :: rest = front' ++ sep :: rest') : front = front' ∧ rest = rest' := by
  have backwards := congrArg List.reverse same
  simp only [List.reverse_append, List.reverse_cons, List.append_assoc, List.singleton_append] at backwards
  obtain ⟨rests, fronts⟩ := split_at_first (fun member => free (List.mem_reverse.mp member))
    (fun member => free' (List.mem_reverse.mp member)) backwards
  exact ⟨List.reverse_injective fronts, List.reverse_injective rests⟩

/-- A list that begins another begins what is before a symbol that it does not hold. -/
theorem prefix_of_stop {part : List α} (none : sep ∉ part) (begins : part <+: front ++ sep :: rest) :
    part <+: front := by
  by_cases short : part.length ≤ front.length
  · exact List.prefix_of_prefix_length_le begins (List.prefix_append _ _) short
  · have further : front ++ [sep] <+: part := by
      refine List.prefix_of_prefix_length_le ⟨rest, by simp⟩ begins ?_
      rw [List.length_append, List.length_singleton]
      omega
    exact absurd (further.subset (List.mem_append_right _ (List.mem_singleton_self _))) none

/-- Neighbours among joined words are joined. -/
theorem infix_intercalate (front : List (List α)) (word next : List α) (back : List (List α)) :
    word ++ sep :: next <:+: [sep].intercalate (front ++ word :: next :: back) := by
  induction front with
  | nil =>
    cases back with
    | nil => exact ⟨[], [], by simp [List.intercalate]⟩
    | cons last rest => exact ⟨[], sep :: [sep].intercalate (last :: rest), by simp [List.intercalate]⟩
  | cons first rest ih =>
    have joined : [sep].intercalate (first :: (rest ++ word :: next :: back)) =
        first ++ sep :: [sep].intercalate (rest ++ word :: next :: back) := by
      cases rest <;> simp [List.intercalate]
    rw [List.cons_append, joined]
    exact ih.trans ((List.suffix_cons _ _).trans (List.suffix_append _ _)).isInfix

section Words
variable [DecidableEq α] {text part : List α}

theorem splitOn_head (free : sep ∉ part) (text : List α) : ∃ word words, text.splitOn sep = word :: words ∧
    (part ++ text).splitOn sep = (part ++ word) :: words := by
  by_cases held : sep ∈ text
  · obtain ⟨word, rest, rfl, none⟩ := List.eq_append_cons_of_mem held
    have whole : sep ∉ part ++ word := fun member => (List.mem_append.mp member).elim free none
    refine ⟨word, rest.splitOn sep, List.splitOn_append_cons_self_of_not_mem none rest, ?_⟩
    rw [← List.append_assoc, List.splitOn_append_cons_self_of_not_mem whole]
  · have whole : sep ∉ part ++ text := fun member => (List.mem_append.mp member).elim free held
    exact ⟨text, [], List.splitOn_eq_singleton held, List.splitOn_eq_singleton whole⟩

theorem splitOn_last (free : sep ∉ part) (text : List α) : ∃ words word, text.splitOn sep = words ++ [word] ∧
    (text ++ part).splitOn sep = words ++ [word ++ part] := by
  by_cases held : sep ∈ text
  · obtain ⟨word, rest, backwards, none⟩ := List.eq_append_cons_of_mem (List.mem_reverse.mpr held)
    have split : text = rest.reverse ++ sep :: word.reverse := by
      rw [← List.reverse_reverse text, backwards]
      simp
    have last : sep ∉ word.reverse := fun member => none (List.mem_reverse.mp member)
    have whole : sep ∉ word.reverse ++ part := fun member => (List.mem_append.mp member).elim last free
    refine ⟨rest.reverse.splitOn sep, word.reverse, ?_, ?_⟩
    · rw [split, List.splitOn_append_cons_self, List.splitOn_eq_singleton last]
    · rw [split, List.append_assoc, List.cons_append, List.splitOn_append_cons_self, List.splitOn_eq_singleton whole]
  · have whole : sep ∉ text ++ part := fun member => (List.mem_append.mp member).elim held free
    exact ⟨[], text, List.splitOn_eq_singleton held, List.splitOn_eq_singleton whole⟩

/-- A text holds two parts with a separator between where one of its words ends in the first, and the next begins with the
    second. -/
theorem infix_iff_words {ending beginning : List α} (free : sep ∉ ending) (free' : sep ∉ beginning) :
    ending ++ sep :: beginning <:+: text ↔ ∃ front word next back, text.splitOn sep = front ++ word :: next :: back ∧
      ending <:+ word ∧ beginning <+: next := by
  constructor
  · rintro ⟨before, after, rfl⟩
    obtain ⟨front, word, -, ends⟩ := splitOn_last free before
    obtain ⟨next, back, -, begins⟩ := splitOn_head free' after
    refine ⟨front, word ++ ending, beginning ++ next, back, ?_, List.suffix_append _ _, List.prefix_append _ _⟩
    have shape : before ++ (ending ++ sep :: beginning) ++ after = before ++ ending ++ sep :: (beginning ++ after) := by
      simp
    rw [shape, List.splitOn_append_cons_self, ends, begins]
    simp
  · rintro ⟨front, word, next, back, split, ⟨before, rfl⟩, ⟨after, rfl⟩⟩
    have joined : [sep].intercalate (text.splitOn sep) = text := List.intercalate_splitOn sep
    rw [split] at joined
    rw [← joined]
    refine List.IsInfix.trans ?_ (infix_intercalate front _ _ back)
    exact ⟨before, after, by simp⟩

end Words

/-- Texts that are joined by a character that none of them holds are told apart. -/
theorem intercalate_inj {bar : String} {sep : Char} (single : bar.toList = [sep]) {parts parts' : List String}
    (filled : parts ≠ []) (filled' : parts' ≠ []) (free : ∀ part ∈ parts, sep ∉ part.toList)
    (free' : ∀ part ∈ parts', sep ∉ part.toList) (same : bar.intercalate parts = bar.intercalate parts') : parts = parts' := by
  have split {parts : List String} (filled : parts ≠ []) (free : ∀ part ∈ parts, sep ∉ part.toList) :
      ((bar.intercalate parts).toList.splitOn sep) = parts.map String.toList := by
    rw [String.toList_intercalate, single]
    apply List.splitOn_intercalate
    · intro text member
      obtain ⟨part, inside, rfl⟩ := List.mem_map.mp member
      exact free part inside
    · exact fun none => filled (List.map_eq_nil_iff.mp none)
  have texts := split filled free
  rw [same, split filled' free'] at texts
  exact (List.map_injective_iff.mpr (fun _ _ => String.toList_inj.mp) texts).symm

/-- A character that is no digit is in no number. -/
theorem repr_free {c : Char} (noDigit : c.isDigit = false) (n : Nat) : c ∉ n.repr.toList := by
  intro member
  have digit := Nat.isDigit_of_mem_toDigits (by decide) (by decide) (Nat.toList_repr ▸ member)
  exact absurd (noDigit.symm.trans digit) (by decide)

/-- A number behind a separator is told apart from what is before it. -/
theorem numbered_inj {c : Char} (noDigit : c.isDigit = false) {front front' : List Char} {n m : Nat}
    (same : front ++ c :: n.repr.toList = front' ++ c :: m.repr.toList) : front = front' ∧ n = m := by
  obtain ⟨fronts, numbers⟩ := split_at_last (repr_free noDigit n) (repr_free noDigit m) same
  rw [Nat.toList_repr, Nat.toList_repr] at numbers
  have read := congrArg (Nat.ofDigitChars 10 · 0) numbers
  simp only [Nat.ofDigitChars_toDigits (by decide : 1 < 10) (by decide)] at read
  exact ⟨fronts, read⟩

end Burble
