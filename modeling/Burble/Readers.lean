import Mathlib.Data.List.Basic
import Mathlib.Data.List.TakeWhile

namespace Burble.Scanning
universe u
variable {Letter : Type u} {allowed : Letter → Bool} {part rest : List Letter}

/-! Readers of what a text begins with, each with what is behind. -/

/-- The longest run of allowed letters, if there is one. -/
def run (allowed : Letter → Bool) (text : List Letter) : Option (List Letter × List Letter) :=
  if (text.takeWhile allowed).isEmpty then none else some (text.takeWhile allowed, text.dropWhile allowed)

def literal [DecidableEq Letter] (key text : List Letter) : Option (List Letter) :=
  if key.isPrefixOf text then some (text.drop key.length) else none

/-- What is left where allowed letters are passed over at both ends. -/
def strip (allowed : Letter → Bool) (text : List Letter) : List Letter :=
  ((text.dropWhile allowed).reverse.dropWhile allowed).reverse

/-- No allowed letter follows. -/
def Stops (allowed : Letter → Bool) (rest : List Letter) : Prop := ∀ letter ∈ rest.head?, allowed letter = false

theorem stops_cons {letter : Letter} (other : allowed letter = false) : Stops allowed (letter :: rest) := by
  rintro _ ⟨⟩
  exact other

theorem stops_append (filled : part ≠ []) (others : ∀ letter ∈ part, allowed letter = false) : Stops allowed (part ++ rest) := by
  cases part with
  | nil => exact absurd rfl filled
  | cons letter part => exact stops_cons (others letter List.mem_cons_self)

theorem takeWhile_of_stops (stops : Stops allowed rest) : rest.takeWhile allowed = [] := by
  cases rest with
  | nil => rfl
  | cons letter rest => rw [List.takeWhile_cons, stops letter rfl]; rfl

theorem dropWhile_of_stops (stops : Stops allowed rest) : rest.dropWhile allowed = rest := by
  cases rest with
  | nil => rfl
  | cons letter rest => rw [List.dropWhile_cons, stops letter rfl]; rfl

theorem dropWhile_run (all : ∀ letter ∈ part, allowed letter = true) (stops : Stops allowed rest) :
    (part ++ rest).dropWhile allowed = rest := by
  rw [List.dropWhile_append_of_pos all, dropWhile_of_stops stops]

theorem run_append (filled : part ≠ []) (all : ∀ letter ∈ part, allowed letter = true) (stops : Stops allowed rest) :
    run allowed (part ++ rest) = some (part, rest) := by
  have taken : (part ++ rest).takeWhile allowed = part := by
    rw [List.takeWhile_append_of_pos all, takeWhile_of_stops stops, List.append_nil]
  rw [run, taken, dropWhile_run all stops, List.isEmpty_eq_false_iff.mpr filled]
  rfl

theorem literal_append [DecidableEq Letter] (key rest : List Letter) : literal key (key ++ rest) = some rest := by
  rw [literal, if_pos (List.isPrefixOf_iff_prefix.mpr (List.prefix_append key rest)), List.drop_left]

theorem literal_cons [DecidableEq Letter] (letter : Letter) (rest : List Letter) : literal [letter] (letter :: rest) = some rest :=
  literal_append [letter] rest

theorem literal_cons_cons [DecidableEq Letter] (one two : Letter) (rest : List Letter) :
    literal [one, two] (one :: two :: rest) = some rest := literal_append [one, two] rest

/-- What stands between allowed letters, and neither begins nor ends with one. -/
theorem strip_between {front middle back : List Letter} (before : ∀ letter ∈ front, allowed letter = true)
    (behind : ∀ letter ∈ back, allowed letter = true) (begins : Stops allowed middle) (ends : Stops allowed middle.reverse) :
    strip allowed (front ++ (middle ++ back)) = middle := by
  have behind' : ∀ letter ∈ back.reverse, allowed letter = true := fun letter member => behind letter (List.mem_reverse.mp member)
  cases middle with
  | nil =>
    have all : ∀ letter ∈ front ++ back, allowed letter = true := fun letter member =>
      (List.mem_append.mp member).elim (before letter) (behind letter)
    rw [strip, List.nil_append, List.dropWhile_eq_nil_iff.mpr all]
    rfl
  | cons letter middle =>
    have starts : Stops allowed (letter :: middle ++ back) := stops_cons (begins letter rfl)
    rw [strip, dropWhile_run before starts, List.reverse_append, dropWhile_run behind' ends, List.reverse_reverse]

theorem strip_allowed (all : ∀ letter ∈ part, allowed letter = true) : strip allowed part = [] := by
  rw [strip, List.dropWhile_eq_nil_iff.mpr all]
  rfl

end Burble.Scanning

namespace Burble.Options

/-- An option with what stands behind it on a command line. -/
inductive Setting
  | flag (name : String)
  | value (name text : String)
  deriving DecidableEq, Repr

inductive Kind
  | flag
  | valued
  deriving DecidableEq, Repr

namespace Setting

def name : Setting → String
  | flag name | value name _ => name

def kind : Setting → Kind
  | flag _ => .flag
  | value _ _ => .valued

def words : Setting → List String
  | flag name => ["--" ++ name]
  | value name text => ["--" ++ name, text]

/-- The text, where the option has that name. -/
def textOf (wanted : String) : Setting → Option String
  | value name text => if name = wanted then some text else none
  | flag _ => none

end Setting

/-- The settings in front of the first word that is no option, and that word with all behind it. Options are long and
have their values in words of their own. -/
def read (grammar : String → Option Kind) : List String → Option (List Setting × List String)
  | [] => some ([], [])
  | word :: rest =>
    match word.toList with
    | ['-', '-'] => some ([], rest)
    | '-' :: '-' :: name =>
      match grammar (String.ofList name), rest with
      | some .flag, rest => (read grammar rest).map fun found => (.flag (String.ofList name) :: found.1, found.2)
      | some .valued, text :: rest =>
        (read grammar rest).map fun found => (.value (String.ofList name) text :: found.1, found.2)
      | _, _ => none
    | '-' :: _ :: _ => none
    | _ => some ([], word :: rest)

def write (settings : List Setting) (rest : List String) : List String := settings.flatMap Setting.words ++ rest

/-- A word that is no option. -/
def Positional (word : String) : Prop := ∀ next rest, word.toList ≠ '-' :: next :: rest

/-- Every text behind an option, in their order. -/
def values (wanted : String) (settings : List Setting) : List String := settings.filterMap (Setting.textOf wanted)

variable {grammar : String → Option Kind}

theorem read_positional {rest : List String} (positional : ∀ word ∈ rest.head?, Positional word) :
    read grammar rest = some ([], rest) := by
  cases rest with
  | nil => rfl
  | cons word rest =>
    have free := positional word rfl
    rw [read]
    split
    next letters => exact absurd letters (free _ _)
    next letters => exact absurd letters (free _ _)
    next letters => exact absurd letters (free _ _)
    next => rfl

/-- An option that the grammar knows is read in front of what is read behind it. -/
theorem read_words {setting : Setting} (named : setting.name ≠ "") (known : grammar setting.name = some setting.kind)
    (rest : List String) : read grammar (setting.words ++ rest) =
      (read grammar rest).map fun found => (setting :: found.1, found.2) := by
  obtain ⟨first, others, spelled⟩ : ∃ first others, setting.name.toList = first :: others := by
    cases spelled : setting.name.toList with
    | nil => exact absurd (String.toList_eq_nil_iff.mp spelled) named
    | cons first others => exact ⟨first, others, rfl⟩
  have letters : ("--" ++ setting.name).toList = '-' :: '-' :: first :: others := by
    rw [String.toList_append, spelled]
    rfl
  have same : String.ofList (first :: others) = setting.name := by rw [← spelled, String.ofList_toList]
  cases setting with
  | flag name =>
    simp only [Setting.name] at letters same known
    rw [Setting.words, List.singleton_append, read]
    simp only [letters, same, known, Setting.kind]
  | value name text =>
    simp only [Setting.name] at letters same known
    rw [Setting.words, List.cons_append, read]
    simp only [letters, same, known, Setting.kind, List.singleton_append]

/-- Settings that are written are read in front of what is read behind them. -/
theorem read_settings {settings : List Setting} (named : ∀ setting ∈ settings, setting.name ≠ "")
    (known : ∀ setting ∈ settings, grammar setting.name = some setting.kind) (rest : List String) :
    read grammar (write settings rest) = (read grammar rest).map fun found => (settings ++ found.1, found.2) := by
  induction settings with
  | nil => exact Option.map_id'.symm
  | cons setting settings ih =>
    have later := ih (fun other member => named other (List.mem_cons_of_mem _ member))
      fun other member => known other (List.mem_cons_of_mem _ member)
    rw [write] at later
    rw [write, List.flatMap_cons, List.append_assoc, read_words (named _ List.mem_cons_self) (known _ List.mem_cons_self),
      later, Option.map_map]
    rfl

/-- What is written is read back. -/
theorem read_write {settings : List Setting} (named : ∀ setting ∈ settings, setting.name ≠ "")
    (known : ∀ setting ∈ settings, grammar setting.name = some setting.kind) {rest : List String}
    (positional : ∀ word ∈ rest.head?, Positional word) : read grammar (write settings rest) = some (settings, rest) := by
  rw [read_settings named known, read_positional positional, Option.map_some, List.append_nil]

/-- Nothing is left that was not there. -/
theorem read_length {words : List String} {found : List Setting × List String} (done : read grammar words = some found) :
    found.2.length ≤ words.length := by
  fun_induction read grammar words generalizing found with
  | case1 =>
    cases done
    exact Nat.le_refl _
  | case2 =>
    cases done
    exact Nat.le_succ _
  | case3 word name _ _ rest _ ih =>
    obtain ⟨before, taken, rfl⟩ := Option.map_eq_some_iff.mp done
    have shorter := ih taken
    exact Nat.le_trans shorter (Nat.le_succ _)
  | case4 word name _ _ text rest _ ih =>
    obtain ⟨before, taken, rfl⟩ := Option.map_eq_some_iff.mp done
    have shorter := ih taken
    simp only [List.length_cons]
    omega
  | case7 =>
    cases done
    exact Nat.le_refl _
  | _ => cases done

/-- A word that may be an option is not left. -/
theorem read_option {word : String} {rest : List String} {found : List Setting × List String}
    (option : ¬ Positional word) (done : read grammar (word :: rest) = some found) : found.2.length ≤ rest.length := by
  rw [read] at done
  split at done
  next =>
    cases done
    exact Nat.le_refl _
  next name letters =>
    split at done
    next =>
      obtain ⟨before, taken, rfl⟩ := Option.map_eq_some_iff.mp done
      have shorter := read_length taken
      exact shorter
    next =>
      obtain ⟨before, taken, rfl⟩ := Option.map_eq_some_iff.mp done
      have shorter := read_length taken
      exact Nat.le_trans shorter (Nat.le_succ _)
    next => cases done
  next => cases done
  next free =>
    refine absurd (fun next rest letters => ?_) option
    exact free next rest letters

@[simp] theorem values_append (wanted : String) (one other : List Setting) :
    values wanted (one ++ other) = values wanted one ++ values wanted other := List.filterMap_append

@[simp] theorem values_flag (wanted name : String) (rest : List Setting) :
    values wanted (.flag name :: rest) = values wanted rest := rfl

theorem values_same (name : String) (texts : List String) : values name (texts.map (.value name)) = texts := by
  rw [values, List.filterMap_map]
  exact (List.filterMap_congr fun text _ => if_pos rfl).trans List.filterMap_some

theorem values_other {wanted name : String} (different : name ≠ wanted) (texts : List String) :
    values wanted (texts.map (.value name)) = [] := by
  rw [values, List.filterMap_map, List.filterMap_eq_nil_iff]
  exact fun text _ => if_neg different

end Burble.Options
