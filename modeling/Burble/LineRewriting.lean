import Burble.Separated

namespace Burble
variable {α : Type} [DecidableEq α]

/-! Lines that end in a separator, and the replacement of all matches of a key with the rest of its line. -/

/-- The text before the first occurrence of a key, which is not empty. -/
def before (key : List α) : List α → Option (List α)
  | [] => none
  | first :: rest => if key.isPrefixOf (first :: rest) then some [] else (before key rest).map (first :: ·)

/-- Each match of `key`, what is not a separator, and a separator is replaced; where one is found, its line is skipped. -/
def replaceToEnd (sep : α) (key replacement : List α) : Bool → List α → List α
  | _, [] => []
  | true, first :: rest => replaceToEnd sep key replacement (decide (first ≠ sep)) rest
  | false, first :: rest =>
    if key.isPrefixOf (first :: rest) ∧ sep ∈ rest then replacement ++ replaceToEnd sep key replacement true rest
    else first :: replaceToEnd sep key replacement false rest

/-- A line with another end from a key on. -/
def rewriteLine (key ending line : List α) : List α :=
  match before key line with
  | some front => front ++ ending
  | none => line

/-- Lines of which some lose their ends, so that what is left is put in front of the next one: the lines, and what is left
    behind the last. -/
def cutLines (front : List α → Option (List α)) : List α → List (List α) → List (List α) × List α
  | carry, [] => ([], carry)
  | carry, line :: rest =>
    match front line with
    | some kept => cutLines front (carry ++ kept) rest
    | none => ((carry ++ line) :: (cutLines front [] rest).1, (cutLines front [] rest).2)

def terminated (sep : α) (lines : List (List α)) (tail : List α) : List α := lines.flatMap (· ++ [sep]) ++ tail

/-- The lines of a text, and what follows the last of them. -/
def linesOf (sep : α) (text : List α) : List (List α) := (text.splitOn sep).dropLast
def tailOf (sep : α) (text : List α) : List α := (text.splitOn sep).getLast (List.splitOn_ne_nil sep text)

theorem before_split {key line front : List α} (found : before key line = some front) : ∃ rest, line = front ++ (key ++ rest) := by
  induction line generalizing front with
  | nil => cases found
  | cons first line ih =>
    rw [before] at found
    split at found
    next begins =>
      cases found
      obtain ⟨rest, whole⟩ := List.isPrefixOf_iff_prefix.mp begins
      exact ⟨rest, whole.symm⟩
    next =>
      obtain ⟨front, inside, rfl⟩ := Option.map_eq_some_iff.mp found
      obtain ⟨rest, whole⟩ := ih inside
      exact ⟨rest, congrArg (first :: ·) whole⟩

theorem before_begins {key : List α} (filled : key ≠ []) (rest : List α) : before key (key ++ rest) = some [] := by
  obtain ⟨first, key, rfl⟩ := List.exists_cons_of_ne_nil filled
  exact if_pos (List.isPrefixOf_iff_prefix.mpr (List.prefix_append _ _))

theorem before_append {key : List α} (filled : key ≠ []) (front rest : List α) : before key (front ++ (key ++ rest)) ≠ none := by
  induction front with
  | nil => simp [before_begins filled]
  | cons first front ih =>
    rw [List.cons_append, before]
    split
    · simp
    · simpa using ih

theorem before_cons {key : List α} {first : α} {line : List α} (other : key.isPrefixOf (first :: line) = false) :
    before key (first :: line) = (before key line).map (first :: ·) := by
  rw [before, if_neg (by simp [other])]

theorem rewriteLine_cons {key : List α} {first : α} {line : List α} (other : key.isPrefixOf (first :: line) = false)
    (ending : List α) : rewriteLine key ending (first :: line) = first :: rewriteLine key ending line := by
  rw [rewriteLine, rewriteLine, before_cons other]
  cases before key line <;> rfl

theorem rewriteLine_begins {key : List α} (filled : key ≠ []) (ending rest : List α) :
    rewriteLine key ending (key ++ rest) = ending := by
  rw [rewriteLine, before_begins filled]
  rfl

omit [DecidableEq α] in
theorem cutLines_none (carry : List α) (line : List α) (rest : List (List α)) :
    cutLines (fun _ => none) carry (line :: rest) = ((carry ++ line) :: rest, []) := by
  induction rest generalizing carry line with
  | nil => rfl
  | cons next rest ih => rw [cutLines, ih, List.nil_append]

omit [DecidableEq α] in
/-- Where what is kept of a line has no separator, neither has what is kept of lines. -/
theorem cutLines_free {sep : α} {front : List α → Option (List α)}
    (keeps : ∀ line kept, front line = some kept → sep ∉ line → sep ∉ kept) {carry : List α} (freeCarry : sep ∉ carry)
    {lines : List (List α)} (free : ∀ line ∈ lines, sep ∉ line) :
    (∀ line ∈ (cutLines front carry lines).1, sep ∉ line) ∧ sep ∉ (cutLines front carry lines).2 := by
  induction lines generalizing carry with
  | nil => exact ⟨by simp [cutLines], freeCarry⟩
  | cons line rest ih =>
    obtain ⟨here, later⟩ := List.forall_mem_cons.mp free
    rw [cutLines]
    split
    next kept cut => exact ih (fun mem => (List.mem_append.mp mem).elim freeCarry (keeps line kept cut here)) later
    next =>
      obtain ⟨lines, tail⟩ := ih List.not_mem_nil later
      refine ⟨List.forall_mem_cons.mpr ⟨fun mem => (List.mem_append.mp mem).elim freeCarry here, lines⟩, tail⟩

section Lines
variable {sep : α} {lines lines' : List (List α)} {tail tail' text : List α}

theorem splitOn_terminated (free : ∀ line ∈ lines, sep ∉ line) (freeTail : sep ∉ tail) :
    (terminated sep lines tail).splitOn sep = lines ++ [tail] := by
  induction lines with
  | nil => exact List.splitOn_eq_singleton freeTail
  | cons line rest ih =>
    obtain ⟨here, later⟩ := List.forall_mem_cons.mp free
    have shape : terminated sep (line :: rest) tail = line ++ sep :: terminated sep rest tail := by
      simp [terminated]
    rw [shape, List.splitOn_append_cons_self_of_not_mem here, ih later]
    rfl

theorem terminated_inj (free : ∀ line ∈ lines, sep ∉ line) (freeTail : sep ∉ tail) (free' : ∀ line ∈ lines', sep ∉ line)
    (freeTail' : sep ∉ tail') : terminated sep lines tail = terminated sep lines' tail' ↔ lines = lines' ∧ tail = tail' := by
  constructor
  · intro same
    have split := splitOn_terminated free freeTail
    rw [same, splitOn_terminated free' freeTail'] at split
    obtain ⟨front, last⟩ := List.append_inj' split rfl
    exact ⟨front.symm, (List.singleton_inj.mp last).symm⟩
  · rintro ⟨rfl, rfl⟩
    rfl

theorem not_mem_of_splitOn {part : List α} (mem : part ∈ text.splitOn sep) : sep ∉ part := by
  induction length : text.length using Nat.strongRecOn generalizing text with
  | ind length ih =>
    by_cases held : sep ∈ text
    · obtain ⟨first, rest, rfl, none⟩ := List.eq_append_cons_of_mem held
      rw [List.splitOn_append_cons_self_of_not_mem none] at mem
      rcases List.mem_cons.mp mem with rfl | later
      · exact none
      · refine ih rest.length ?_ later rfl
        rw [← length, List.length_append, List.length_cons]
        omega
    · rw [List.splitOn_eq_singleton held] at mem
      exact List.mem_singleton.mp mem ▸ held

theorem linesOf_free (sep : α) (text : List α) : ∀ line ∈ linesOf sep text, sep ∉ line :=
  fun _ mem => not_mem_of_splitOn ((List.dropLast_sublist _).subset mem)

theorem tailOf_free (sep : α) (text : List α) : sep ∉ tailOf sep text := not_mem_of_splitOn (List.getLast_mem _)

theorem terminated_linesOf (sep : α) (text : List α) : terminated sep (linesOf sep text) (tailOf sep text) = text := by
  have joined : [sep].intercalate (text.splitOn sep) = text := List.intercalate_splitOn sep
  have whole (lines : List (List α)) : [sep].intercalate (lines ++ [tailOf sep text]) =
      terminated sep lines (tailOf sep text) := by
    induction lines with
    | nil => simp [terminated]
    | cons line rest ih =>
      rw [List.cons_append, List.intercalate_cons_of_ne_nil (by simp), ih]
      simp [terminated]
  rw [← whole, linesOf, tailOf, List.dropLast_append_getLast, joined]

end Lines

section Replacing
variable {sep : α} {key replacement line rest : List α}

theorem replaceToEnd_free {text : List α} (free : sep ∉ text) : replaceToEnd sep key replacement false text = text := by
  induction text with
  | nil => rfl
  | cons first rest ih =>
    have later : sep ∉ rest := fun mem => free (List.mem_cons_of_mem _ mem)
    rw [replaceToEnd, if_neg fun found => later found.2, ih later]

theorem replaceToEnd_skip (free : sep ∉ line) :
    replaceToEnd sep key replacement true (line ++ sep :: rest) = replaceToEnd sep key replacement false rest := by
  induction line with
  | nil => simp [replaceToEnd]
  | cons first line ih =>
    obtain ⟨other, later⟩ := not_or.mp (mt List.mem_cons.mpr free)
    rw [List.cons_append, replaceToEnd, decide_eq_true (Ne.symm other), ih later]

/-- A line is replaced from the first key that it holds on, with its end. -/
theorem replaceToEnd_line (filled : key ≠ []) (keyFree : sep ∉ key) (free : sep ∉ line) (rest : List α) :
    replaceToEnd sep key replacement false (line ++ sep :: rest) =
      (match before key line with
        | some front => front ++ replacement
        | none => line ++ [sep]) ++ replaceToEnd sep key replacement false rest := by
  induction line with
  | nil =>
    obtain ⟨first, key, rfl⟩ := List.exists_cons_of_ne_nil filled
    have other : first ≠ sep := fun same => keyFree (same ▸ List.mem_cons_self)
    rw [List.nil_append, replaceToEnd, if_neg]
    · rfl
    · simp [List.isPrefixOf, other]
  | cons first line ih =>
    have later : sep ∉ line := fun mem => free (List.mem_cons_of_mem _ mem)
    rw [List.cons_append, replaceToEnd, before]
    by_cases begins : key.isPrefixOf (first :: line) = true
    · have found : key.isPrefixOf (first :: (line ++ sep :: rest)) = true :=
        List.isPrefixOf_iff_prefix.mpr ((List.isPrefixOf_iff_prefix.mp begins).trans (List.prefix_append (first :: line) _))
      rw [if_pos ⟨found, by simp⟩, if_pos begins, replaceToEnd_skip later]
      rfl
    · have none : ¬ key.isPrefixOf (first :: (line ++ sep :: rest)) = true := fun found =>
        begins (List.isPrefixOf_iff_prefix.mpr
          (prefix_of_stop keyFree (List.isPrefixOf_iff_prefix.mp found : key <+: (first :: line) ++ sep :: rest)))
      rw [if_neg fun both => none both.1, if_neg begins, ih later]
      cases before key line <;> rfl

/-- Replaced lines keep their ends. -/
theorem replaceToEnd_rewrite (filled : key ≠ []) (keyFree : sep ∉ key) (ending : List α) {lines : List (List α)} {tail : List α}
    (free : ∀ line ∈ lines, sep ∉ line) (freeTail : sep ∉ tail) :
    replaceToEnd sep key (ending ++ [sep]) false (terminated sep lines tail) =
      terminated sep (lines.map (rewriteLine key ending)) tail := by
  induction lines with
  | nil => exact replaceToEnd_free freeTail
  | cons line rest ih =>
    obtain ⟨here, later⟩ := List.forall_mem_cons.mp free
    have shape (line : List α) (rest : List (List α)) :
        terminated sep (line :: rest) tail = line ++ sep :: terminated sep rest tail := by
      simp [terminated]
    rw [shape, replaceToEnd_line filled keyFree here, ih later, List.map_cons, shape, rewriteLine]
    cases before key line <;> simp

/-- Removed ends join what is before them to the next line. -/
theorem replaceToEnd_cut (filled : key ≠ []) (keyFree : sep ∉ key) {lines : List (List α)} {tail : List α}
    (free : ∀ line ∈ lines, sep ∉ line) (freeTail : sep ∉ tail) (carry : List α) :
    carry ++ replaceToEnd sep key [] false (terminated sep lines tail) =
      terminated sep (cutLines (before key) carry lines).1 ((cutLines (before key) carry lines).2 ++ tail) := by
  induction lines generalizing carry with
  | nil => rw [cutLines, terminated, terminated, List.flatMap_nil, List.nil_append, List.nil_append, replaceToEnd_free freeTail]
  | cons line rest ih =>
    obtain ⟨here, later⟩ := List.forall_mem_cons.mp free
    have shape (line : List α) (rest : List (List α)) (tail : List α) :
        terminated sep (line :: rest) tail = line ++ sep :: terminated sep rest tail := by
      simp [terminated]
    rw [shape, replaceToEnd_line filled keyFree here, cutLines]
    cases before key line with
    | some front =>
      have joined := ih later (carry ++ front)
      dsimp only
      rw [← joined]
      simp
    | none =>
      have joined := ih later []
      dsimp only
      rw [shape, ← joined]
      simp

end Replacing

end Burble
