import Mathlib.Data.List.AList
import Mathlib.Order.Basic
import Mathlib.Algebra.BigOperators.Group.List.Basic

namespace Burble

/-- A finite map with one value for each key: Elixir maps, JavaScript `Map`s
and Rust `BTreeMap`s. Entries keep an order, which only iteration sees. -/
abbrev FiniteMap (Key Value : Type) := AList fun _ : Key => Value

/-- How many bytes a value takes, for the length checks of the source. -/
class ByteSize (Value : Type) where
  byteSize : Value → Nat

export ByteSize (byteSize)

instance : ByteSize String := ⟨String.utf8ByteSize⟩

instance : ByteSize (List UInt8) := ⟨List.length⟩

namespace FiniteMap
variable {Key Value Other : Type}

def size (entries : FiniteMap Key Value) : Nat := entries.keys.length

def toList (entries : FiniteMap Key Value) : List (Key × Value) :=
  entries.entries.map fun entry => (entry.1, entry.2)

theorem keys_mapValues (entries : List (Sigma fun _ : Key => Value)) (change : Value → Other) :
    (entries.map fun entry => (⟨entry.1, change entry.2⟩ : Sigma fun _ : Key => Other)).keys =
      entries.keys := by
  simp only [List.keys, List.map_map, Function.comp_def]

/-- Change every value and keep the keys and their order. -/
def mapValues (change : Value → Other) (entries : FiniteMap Key Value) : FiniteMap Key Other :=
  ⟨entries.entries.map fun entry => ⟨entry.1, change entry.2⟩, by
    rw [List.NodupKeys, keys_mapValues]
    exact entries.nodupKeys⟩

@[simp] theorem size_empty : size (∅ : FiniteMap Key Value) = 0 := rfl

theorem size_eq_zero {entries : FiniteMap Key Value} : entries.size = 0 ↔ entries = ∅ := by
  constructor
  · intro empty
    apply AList.ext
    have keys := List.eq_nil_of_length_eq_zero empty
    simpa only [AList.keys, List.keys, List.map_eq_nil_iff, AList.empty_entries] using keys
  · rintro rfl
    rfl

theorem keys_mapValues_eq (change : Value → Other) (entries : FiniteMap Key Value) :
    (mapValues change entries).keys = entries.keys :=
  keys_mapValues entries.entries change

@[simp] theorem size_mapValues (change : Value → Other) (entries : FiniteMap Key Value) :
    (mapValues change entries).size = entries.size := by
  simp only [size, keys_mapValues_eq]

variable [DecidableEq Key]

theorem size_insert_le (entries : FiniteMap Key Value) (key : Key) (value : Value) :
    size (AList.insert key value entries) ≤ entries.size + 1 := by
  simp only [size, AList.keys_insert, List.length_cons]
  have shorter := List.length_erase_le (a := key) (l := entries.keys)
  omega

/-- A new value for a key that is there takes no more room. -/
theorem size_insert_of_found {entries : FiniteMap Key Value} {key : Key} {found : Value} (there : entries.lookup key = some found)
    (value : Value) : size (AList.insert key value entries) = entries.size := by
  have member : key ∈ entries.keys := AList.mem_keys.mp (AList.lookup_isSome.mp (by rw [there]; rfl))
  have positive := List.length_pos_of_mem member
  simp only [size, AList.keys_insert, List.length_cons, List.length_erase_of_mem member]
  omega

/-- Maps with the same keys are of one size. -/
theorem size_congr {one other : FiniteMap Key Value} (same : ∀ key, one.lookup key = none ↔ other.lookup key = none) :
    one.size = other.size := by
  refine ((List.perm_ext_iff_of_nodup one.keys_nodup other.keys_nodup).mpr fun key => ?_).length_eq
  have here := not_congr (same key)
  rwa [AList.lookup_eq_none, AList.lookup_eq_none, not_not, not_not] at here

theorem size_erase_le (entries : FiniteMap Key Value) (key : Key) :
    size (AList.erase key entries) ≤ entries.size := by
  simpa only [size, AList.keys_erase] using List.length_erase_le

theorem lookup_mapValues (change : Value → Other) (entries : FiniteMap Key Value) (key : Key) :
    (mapValues change entries).lookup key = (entries.lookup key).map change := by
  obtain ⟨list, nodup⟩ := entries
  simp only [AList.lookup, mapValues]
  induction list with
  | nil => rfl
  | cons entry rest ih =>
    obtain ⟨head, value⟩ := entry
    by_cases same : head = key
    · subst same
      simp only [List.map_cons, List.dlookup_cons_eq, Option.map_some]
    · simp only [List.map_cons]
      rw [List.dlookup_cons_ne _ _ (Ne.symm same), List.dlookup_cons_ne _ _ (Ne.symm same)]
      exact ih (List.nodupKeys_cons.mp nodup).2

theorem lookup_insert_if (entries : FiniteMap Key Value) (key other : Key) (value : Value) :
    (AList.insert key value entries).lookup other = if other = key then some value else entries.lookup other := by
  split
  next same => subst same; exact AList.lookup_insert _
  next different => exact AList.lookup_insert_ne different

theorem lookup_erase_if (entries : FiniteMap Key Value) (key other : Key) :
    (AList.erase key entries).lookup other = if other = key then none else entries.lookup other := by
  split
  next same => subst same; exact AList.lookup_erase _ _
  next different => exact AList.lookup_erase_ne different

theorem mem_toList {entries : FiniteMap Key Value} {key : Key} {value : Value} :
    (key, value) ∈ entries.toList ↔ entries.lookup key = some value := by
  rw [← Option.mem_def, AList.mem_lookup_iff]
  simp only [toList, List.mem_map, Prod.mk.injEq]
  constructor
  · rintro ⟨⟨_, _⟩, member, rfl, rfl⟩
    exact member
  · intro member
    exact ⟨_, member, rfl, rfl⟩

omit [DecidableEq Key] in
theorem keys_toList (entries : FiniteMap Key Value) : entries.toList.map Prod.fst = entries.keys := by
  rw [toList, List.map_map]
  rfl

omit [DecidableEq Key] in
theorem distinct_keys (entries : FiniteMap Key Value) : (entries.toList.map Prod.fst).Nodup :=
  keys_toList entries ▸ entries.nodupKeys

/-- Beside any one key, a map of two entries or more has another. -/
theorem exists_other {entries : FiniteMap Key Value} (many : 1 < entries.size) (key : Key) :
    ∃ entry ∈ entries.toList, entry.1 ≠ key := by
  obtain ⟨one, other, different⟩ : ∃ one ∈ entries.keys, one ≠ key := by
    by_contra only
    push Not at only
    have same : entries.keys = List.replicate entries.keys.length key := List.eq_replicate_of_mem only
    have nodup : entries.keys.Nodup := entries.nodupKeys
    rw [same, List.nodup_replicate] at nodup
    exact absurd nodup (not_le.mpr many)
  obtain ⟨value, found⟩ := Option.isSome_iff_exists.mp (AList.lookup_isSome.mpr other)
  exact ⟨(one, value), mem_toList.mpr found, different⟩

theorem eq_empty_of_lookup {entries : FiniteMap Key Value} (none : ∀ key, entries.lookup key = none) :
    entries = ∅ := by
  rw [← size_eq_zero]
  refine List.length_eq_zero_iff.mpr (List.eq_nil_iff_forall_not_mem.mpr fun key member => ?_)
  exact AList.lookup_eq_none.mp (none key) (AList.mem_keys.mpr member)

/-- Keep the entries whose value passes a test. -/
def filterValues (keep : Value → Bool) (entries : FiniteMap Key Value) : FiniteMap Key Value :=
  ⟨entries.entries.filter fun entry => keep entry.2,
    entries.nodupKeys.sublist List.filter_sublist⟩

omit [DecidableEq Key] in
theorem size_filterValues_le (keep : Value → Bool) (entries : FiniteMap Key Value) :
    (filterValues keep entries).size ≤ entries.size := by
  simp only [size, AList.keys, List.keys, filterValues, List.length_map]
  exact List.length_filter_le _ _

theorem lookup_filterValues (keep : Value → Bool) (entries : FiniteMap Key Value) (key : Key) :
    (filterValues keep entries).lookup key = (entries.lookup key).filter keep := by
  have found (value : Value) : (filterValues keep entries).lookup key = some value ↔
      (entries.lookup key).filter keep = some value := by
    rw [Option.filter_eq_some_iff, ← Option.mem_def, ← Option.mem_def, AList.mem_lookup_iff, AList.mem_lookup_iff]
    exact List.mem_filter
  exact Option.ext found

/-- A key keeps its value, or it has none that is to be kept. -/
theorem lookup_filterValues_cases (keep : Value → Bool) (entries : FiniteMap Key Value) (key : Key) :
    (∃ value, entries.lookup key = some value ∧ keep value = true ∧ (filterValues keep entries).lookup key = some value) ∨
      (filterValues keep entries).lookup key = none ∧ ∀ value, entries.lookup key = some value → keep value = false := by
  rw [lookup_filterValues]
  cases entries.lookup key with
  | none => exact .inr ⟨rfl, fun _ found => by cases found⟩
  | some value =>
    cases kept : keep value with
    | true => exact .inl ⟨value, rfl, kept, Option.filter_some_pos kept⟩
    | false =>
      refine .inr ⟨Option.filter_some_neg (by simp [kept]), fun other found => ?_⟩
      rwa [← Option.some.inj found]

end FiniteMap
end Burble

namespace Burble

/-- A finite set: Elixir's `MapSet`. It keeps an order, which only listing it sees. -/
abbrev MapSet (Element : Type) := FiniteMap Element Unit

namespace MapSet
variable {Element : Type}

def toList (set : MapSet Element) : List Element := set.keys

theorem toList_nodup (set : MapSet Element) : set.toList.Nodup := set.keys_nodup

theorem mem_toList {set : MapSet Element} {element : Element} : element ∈ set.toList ↔ element ∈ set := AList.mem_keys.symm

variable [DecidableEq Element]

def put (set : MapSet Element) (element : Element) : MapSet Element := AList.insert element () set

def delete (set : MapSet Element) (element : Element) : MapSet Element := AList.erase element set

def new (elements : List Element) : MapSet Element := elements.foldl put ∅

@[simp] theorem mem_put {set : MapSet Element} {element other : Element} :
    other ∈ set.put element ↔ other = element ∨ other ∈ set := AList.mem_insert set

@[simp] theorem mem_delete {set : MapSet Element} {element other : Element} :
    other ∈ set.delete element ↔ other ≠ element ∧ other ∈ set := AList.mem_erase

@[simp] theorem mem_new {elements : List Element} {element : Element} : element ∈ new elements ↔ element ∈ elements := by
  have folded (set : MapSet Element) : element ∈ elements.foldl put set ↔ element ∈ set ∨ element ∈ elements := by
    induction elements generalizing set with
    | nil => simp
    | cons first rest ih =>
      rw [List.foldl_cons, ih, mem_put, List.mem_cons]
      tauto
  exact (folded ∅).trans (or_iff_right (AList.notMem_empty element))

end MapSet
end Burble

namespace Burble.FiniteMap
universe u
variable {Key Value : Type} [DecidableEq Key] {Amount : Type u} [AddCommMonoid Amount]

/-- What the values of a map weigh together. -/
def total (weight : Value → Amount) (entries : FiniteMap Key Value) : Amount :=
  (entries.entries.map fun entry => weight entry.2).sum

omit [DecidableEq Key] in
@[simp] theorem total_empty (weight : Value → Amount) : total weight (∅ : FiniteMap Key Value) = 0 := rfl

/-- A list of entries weighs as much as the entry of a key and the others. -/
theorem kerase_weighs (weight : Value → Amount) {entries : List (Sigma fun _ : Key => Value)} {key : Key} {value : Value}
    (found : entries.dlookup key = some value) : (entries.map fun entry => weight entry.2).sum =
      weight value + ((entries.kerase key).map fun entry => weight entry.2).sum := by
  induction entries with
  | nil => cases found
  | cons head rest ih =>
    by_cases same : key = head.1
    · obtain ⟨other, old⟩ := head
      cases same
      rw [List.dlookup_cons_eq] at found
      cases found
      rw [List.kerase_cons_eq rfl, List.map_cons, List.sum_cons]
    · rw [List.dlookup_cons_ne _ head same] at found
      rw [List.kerase_cons_ne same, List.map_cons, List.map_cons, List.sum_cons, List.sum_cons, ih found, add_left_comm]

variable {weight : Value → Amount} {entries : FiniteMap Key Value} {key : Key} {value old : Value}

theorem total_erase (found : entries.lookup key = some old) :
    total weight entries = weight old + total weight (entries.erase key) := kerase_weighs weight found

theorem total_insert_erase (weight : Value → Amount) (entries : FiniteMap Key Value) (key : Key) (value : Value) :
    total weight (entries.insert key value) = weight value + total weight (entries.erase key) := by
  rw [total, AList.entries_insert, List.map_cons, List.sum_cons]
  rfl

theorem total_insert_new (absent : entries.lookup key = none) :
    total weight (entries.insert key value) = weight value + total weight entries := by
  rw [total, AList.entries_insert_of_notMem (AList.lookup_eq_none.mp absent), List.map_cons, List.sum_cons]
  rfl

theorem total_insert (found : entries.lookup key = some old) :
    weight old + total weight (entries.insert key value) = weight value + total weight entries := by
  rw [total_insert_erase, total_erase found, add_left_comm]

theorem total_congr {other : Value → Amount} (same : ∀ key value, entries.lookup key = some value → weight value = other value) :
    total weight entries = total other entries := by
  rw [total, total]
  congr 1
  exact List.map_congr_left fun entry member => same entry.1 entry.2 (AList.mem_lookup_iff.mpr member)

omit [DecidableEq Key] in
theorem total_add (weight other : Value → Amount) (entries : FiniteMap Key Value) :
    total (fun value => weight value + other value) entries = total weight entries + total other entries :=
  List.sum_map_add

end Burble.FiniteMap
