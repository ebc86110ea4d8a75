import Mathlib.Data.List.Infix

namespace Burble.HashChain
variable {Entry Hash : Type} (link : Entry → Hash → Nat → Hash)

/-- The hashes of a chain that goes on from a hash at a position, one for each entry. -/
def hashes (previous : Hash) (position : Nat) : List Entry → List Hash
  | [] => []
  | entry :: rest =>
    let hash := link entry previous (position + 1)
    hash :: hashes hash (position + 1) rest

/-- A list of entries, each with the position and the hash it shows, links up from a hash.
Nothing is asked of the positions. -/
def Linked (previous : Hash) : List (Entry × Nat × Hash) → Prop
  | [] => True
  | (entry, position, hash) :: rest => hash = link entry previous position ∧ Linked hash rest

/-- A hash tells the entry and the hash before it, and none is what chains start from. -/
structure Binding (genesis : Hash) : Prop where
  injective : ∀ {entry previous position entry' previous' position'},
    link entry previous position = link entry' previous' position' → entry = entry' ∧ previous = previous'
  rooted : ∀ entry previous position, link entry previous position ≠ genesis

variable {link}

theorem linked_append {previous : Hash} {items : List (Entry × Nat × Hash)} {entry : Entry} {position : Nat}
    {hash : Hash} : Linked link previous (items ++ [(entry, position, hash)]) ↔
      Linked link previous items ∧ hash = link entry ((items.map fun item => item.2.2).getLastD previous) position := by
  induction items generalizing previous with
  | nil => simp [Linked]
  | cons item rest ih =>
    obtain ⟨head, at_, shown⟩ := item
    simp only [List.cons_append, Linked, ih, List.map_cons, List.getLastD_cons, and_assoc]

theorem hashes_append (previous : Hash) (position : Nat) (entries : List Entry) (entry : Entry) :
    hashes link previous position (entries ++ [entry]) = hashes link previous position entries ++
      [link entry ((hashes link previous position entries).getLastD previous) (position + entries.length + 1)] := by
  induction entries generalizing previous position with
  | nil => rfl
  | cons head rest ih =>
    simp only [List.cons_append, hashes, ih, List.getLastD_cons, List.length_cons]
    rw [show position + 1 + rest.length = position + (rest.length + 1) by omega]

/-- Every hash of a run is a link. -/
theorem link_of_member {previous hash : Hash} {position : Nat} {entries : List Entry}
    (member : hash ∈ hashes link previous position entries) : ∃ entry before at_, hash = link entry before at_ := by
  induction entries generalizing previous position with
  | nil => cases member
  | cons entry rest ih =>
    rcases List.mem_cons.mp member with here | later
    · exact ⟨entry, previous, position + 1, here⟩
    · exact ih later

/-- A chain that ends in a hash of a run holds that run's entries up to there. -/
theorem eq_of_last {genesis : Hash} (binding : Binding link genesis) {items : List (Entry × Nat × Hash)}
    {entries : List Entry} (linked : Linked link genesis items)
    (same : (items.map fun item => item.2.2).getLastD genesis = (hashes link genesis 0 entries).getLastD genesis) :
    items.map Prod.fst = entries := by
  induction items using List.reverseRecOn generalizing entries with
  | nil =>
    rcases List.eq_nil_or_concat entries with rfl | ⟨front, last, rfl⟩
    · rfl
    · rw [List.concat_eq_append, hashes_append, List.getLastD_concat] at same
      exact absurd same.symm (binding.rooted _ _ _)
  | append_singleton front item ih =>
    obtain ⟨entry, position, hash⟩ := item
    obtain ⟨before, atHash⟩ := linked_append.mp linked
    rw [List.map_append, List.map_singleton, List.getLastD_concat] at same
    rcases List.eq_nil_or_concat entries with rfl | ⟨older, last, rfl⟩
    · exact absurd (atHash.symm.trans same) (binding.rooted _ _ _)
    · rw [List.concat_eq_append, hashes_append, List.getLastD_concat] at same
      obtain ⟨entryEq, previousEq⟩ := binding.injective (atHash.symm.trans same)
      rw [List.map_append, List.concat_eq_append, ih before previousEq, entryEq]
      rfl

/-- A hash of a run is where one of its prefixes ends. -/
theorem exists_prefix {genesis hash : Hash} {run : List Entry} (member : hash ∈ hashes link genesis 0 run) :
    ∃ front, front <+: run ∧ (hashes link genesis 0 front).getLastD genesis = hash := by
  induction run using List.reverseRecOn with
  | nil => cases member
  | append_singleton older entry ih =>
    rw [hashes_append, List.mem_append, List.mem_singleton] at member
    rcases member with before | last
    · obtain ⟨front, among, ends⟩ := ih before
      exact ⟨front, among.trans (List.prefix_append _ _), ends⟩
    · refine ⟨older ++ [entry], List.prefix_refl _, ?_⟩
      rw [hashes_append, List.getLastD_concat, last]

/-- A chain from the root whose last hash occurs in a run from the root is a prefix of it. -/
theorem prefix_of_member {genesis : Hash} (binding : Binding link genesis) {run : List Entry}
    {items : List (Entry × Nat × Hash)} (linked : Linked link genesis items)
    (member : (items.map fun item => item.2.2).getLastD genesis ∈ hashes link genesis 0 run) :
    items.map Prod.fst <+: run := by
  obtain ⟨front, among, ends⟩ := exists_prefix member
  rw [eq_of_last binding linked ends.symm]
  exact among

end Burble.HashChain
