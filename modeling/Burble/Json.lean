import Burble.Fallible
import Burble.FiniteMap

namespace Burble

/-- A decoded JSON value, as an Elixir term. A float is its shortest text. -/
inductive Json
  | null
  | bool (value : Bool)
  | integer (value : Int)
  | float (text : String)
  | string (text : String)
  | array (items : List Json)
  | object (entries : List (String × Json))

/-- A string-keyed Elixir map. -/
abbrev JsonMap := FiniteMap String Json

/-- The map of a JSON object: of entries with one key the last one counts. -/
def Json.toMap (entries : List (String × Json)) : JsonMap :=
  entries.foldl (fun fields (key, value) => fields.insert key value) ∅

mutual

/-- One element of a chardata list: a code point, a text, or a list of them. -/
def Json.elementText : Json → Option String
  | .integer value =>
    if 0 ≤ value ∧ value.toNat.isValidChar then some (String.singleton (Char.ofNat value.toNat)) else none
  | .string text => some text
  | .array items => Json.chardataText items
  | _ => none

def Json.chardataText : List Json → Option String
  | [] => some ""
  | item :: rest => do return (← Json.elementText item) ++ (← Json.chardataText rest)

end

/-- `to_string` of a term, or nothing where it raises. -/
def Json.toText : Json → Option String
  | .null => some ""
  | .bool value => some (if value then "true" else "false")
  | .integer value => some (toString value)
  | .float text => some text
  | .string text => some text
  | .array items => Json.chardataText items
  | .object _ => none

/-- `map[key]`: an absent key reads as `nil`. -/
def JsonMap.get (fields : JsonMap) (key : String) : Json := (fields.lookup key).getD .null

/-- Neither `nil` nor `false`. -/
def Json.truthy : Json → Bool
  | .null | .bool false => false
  | _ => true

/-- Two JSON values without repeated keys that are equal up to the order of keys. -/
inductive Json.Reordered : Json → Json → Prop
  | null : Reordered .null .null
  | bool (value : Bool) : Reordered (.bool value) (.bool value)
  | integer (value : Int) : Reordered (.integer value) (.integer value)
  | float (text : String) : Reordered (.float text) (.float text)
  | string (text : String) : Reordered (.string text) (.string text)
  | array {items others : List Json} (each : List.Forall₂ Reordered items others) :
      Reordered (.array items) (.array others)
  | object {entries others moved : List (String × Json)} (distinct : (entries.map Prod.fst).Nodup)
      (moves : entries.Perm moved) (keys : moved.map Prod.fst = others.map Prod.fst)
      (each : List.Forall₂ Reordered (moved.map Prod.snd) (others.map Prod.snd)) :
      Reordered (.object entries) (.object others)

section Lookup
variable {Item : Type} {entries others : List (String × Item)} {key : String} {item : Item}

theorem mem_of_lookup (found : entries.lookup key = some item) : (key, item) ∈ entries := by
  obtain ⟨before, after, rfl, _⟩ := List.lookup_eq_some_iff.mp found
  exact List.mem_append_right _ List.mem_cons_self

theorem lookup_of_mem (distinct : (entries.map Prod.fst).Nodup) (member : (key, item) ∈ entries) :
    entries.lookup key = some item := by
  obtain ⟨before, after, rfl⟩ := List.append_of_mem member
  refine List.lookup_eq_some_iff.mpr ⟨before, after, rfl, fun entry early => ?_⟩
  rw [List.map_append, List.nodup_append] at distinct
  rw [bne_iff_ne]
  exact fun same => distinct.2.2 _ (List.mem_map_of_mem early) _ List.mem_cons_self same.symm

theorem lookup_perm (distinct : (entries.map Prod.fst).Nodup) (moves : entries.Perm others) (key : String) :
    entries.lookup key = others.lookup key := by
  have distinct' : (others.map Prod.fst).Nodup := (moves.map Prod.fst).nodup_iff.mp distinct
  refine Option.ext fun item => ⟨fun found => ?_, fun found => ?_⟩
  · exact lookup_of_mem distinct' (moves.mem_iff.mp (mem_of_lookup found))
  · exact lookup_of_mem distinct (moves.mem_iff.mpr (mem_of_lookup found))

/-- Entries with the same keys and related values are looked up alike. -/
theorem lookup_related {Other : Type} {related : Item → Other → Prop} {others : List (String × Other)}
    (keys : entries.map Prod.fst = others.map Prod.fst)
    (each : List.Forall₂ related (entries.map Prod.snd) (others.map Prod.snd)) (key : String) :
    Option.Rel related (entries.lookup key) (others.lookup key) := by
  induction entries generalizing others with
  | nil =>
    cases others with
    | nil => exact .none
    | cons => cases keys
  | cons entry rest ih =>
    cases others with
    | nil => cases keys
    | cons other later =>
      obtain ⟨name, value⟩ := entry
      obtain ⟨name', value'⟩ := other
      rw [List.map_cons, List.map_cons, List.cons.injEq] at keys
      obtain ⟨same, keys⟩ := keys
      cases same
      rw [List.map_cons, List.map_cons, List.forall₂_cons] at each
      rw [List.lookup_cons, List.lookup_cons]
      split
      · exact .some each.1
      · exact ih keys each.2

end Lookup

namespace Json.Reordered
variable {entries others : List (String × Json)}

/-- The keys of an object are moved. -/
theorem keys_perm (same : Reordered (.object entries) (.object others)) :
    (entries.map Prod.fst).Perm (others.map Prod.fst) := by
  cases same with
  | object distinct moves keys each => exact keys ▸ moves.map Prod.fst

theorem lookup (same : Reordered (.object entries) (.object others)) (key : String) :
    Option.Rel Reordered (entries.lookup key) (others.lookup key) := by
  cases same with
  | object distinct moves keys each =>
    rw [lookup_perm distinct moves]
    exact lookup_related keys each key

end Json.Reordered

end Burble
