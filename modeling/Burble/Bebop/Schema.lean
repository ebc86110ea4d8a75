import Burble.LineRewriting
import Burble.Readers
import Burble.Bebop.Generator

namespace Burble.Bebop
open Scanning (run literal strip Stops)

abbrev Chars := List Char

/-- `\s` of a regular expression. -/
def isSpace (c : Char) : Bool := (9 ≤ c.toNat && c.toNat ≤ 13) || c.toNat = 32

/-- `\d`. -/
def isDecimal (c : Char) : Bool := 48 ≤ c.toNat && c.toNat ≤ 57

/-- `\w`, where a text is in ASCII. -/
def isWord (c : Char) : Bool :=
  isDecimal c || (65 ≤ c.toNat && c.toNat ≤ 90) || (97 ≤ c.toNat && c.toNat ≤ 122) || c.toNat = 95

/-- Unicode white space, as `String.trim` removes it. -/
def isWhite (c : Char) : Bool :=
  isSpace c || c.toNat = 0x85 || c.toNat = 0xA0 || c.toNat = 0x1680 || (0x2000 ≤ c.toNat && c.toNat ≤ 0x200A) ||
    c.toNat = 0x2028 || c.toNat = 0x2029 || c.toNat = 0x202F || c.toNat = 0x205F || c.toNat = 0x3000

/-- `String.to_integer` of decimal digits. -/
def toInteger (digits : Chars) : Nat := digits.foldl (fun number c => 10 * number + (c.toNat - 48)) 0

def stripComment (line : Chars) : Chars := (before ['/', '/'] line).getD line

def stripComments (source : Chars) : Chars := ['\n'].intercalate ((source.splitOn '\n').map stripComment)

/-- The text in front of the brace that closes, and what is behind it. -/
def findMatchingClose (orig : Chars) : Chars → Nat → Nat → Chars × Chars
  | [], _, _ => ([], [])
  | c :: rest, depth, pos =>
    if c = '{' then findMatchingClose orig rest (depth + 1) (pos + 1)
    else if c = '}' then
      if depth = 1 then (orig.take pos, rest) else findMatchingClose orig rest (depth - 1) (pos + 1)
    else findMatchingClose orig rest depth (pos + 1)

/-- What is behind the first opening brace. -/
def afterBrace (input : Chars) : Chars :=
  if '{' ∈ input then (input.dropWhile (· ≠ '{')).tail else input

def extractBracedBody (input : Chars) : Chars × Chars := findMatchingClose (afterBrace input) (afterBrace input) 1 0

/-- What is left from the first line break on. -/
def splitNextLine (input : Chars) : Chars := (input.dropWhile (· ≠ '\n')).tail

/-- `^enum\s+(\w+)\s*:\s*(\w+)\s*\{` -/
def enumHead (input : Chars) : Option (String × String) := do
  let rest ← literal "enum".toList input
  let (_, rest) ← run isSpace rest
  let (name, rest) ← run isWord rest
  let rest ← literal [':'] (rest.dropWhile isSpace)
  let (baseType, rest) ← run isWord (rest.dropWhile isSpace)
  let _ ← literal ['{'] (rest.dropWhile isSpace)
  return (String.ofList name, String.ofList baseType)

/-- `^keyword\s+(\w+)\s*\{` -/
def recordHead (keyword : Chars) (input : Chars) : Option String := do
  let rest ← literal keyword input
  let (_, rest) ← run isSpace rest
  let (name, rest) ← run isWord rest
  let _ ← literal ['{'] (rest.dropWhile isSpace)
  return String.ofList name

/-- `^(\w+)\s*=\s*(\d+)` -/
def variantLine (line : Chars) : Option (String × Nat) := do
  let (name, rest) ← run isWord line
  let rest ← literal ['='] (rest.dropWhile isSpace)
  let (value, _) ← run isDecimal (rest.dropWhile isSpace)
  return (String.ofList name, toInteger value)

/-- `^(\w+)\s+(\w+)` -/
def fieldLine (line : Chars) : Option (String × String) := do
  let (type, rest) ← run isWord line
  let (_, rest) ← run isSpace rest
  let (name, _) ← run isWord rest
  return (String.ofList type, String.ofList name)

/-- `^(\d+)\s*->\s*(\w+)\s+(\w+)` -/
def numberedLine (line : Chars) : Option (Nat × String × String) := do
  let (index, rest) ← run isDecimal line
  let rest ← literal ['-', '>'] (rest.dropWhile isSpace)
  let found ← fieldLine (rest.dropWhile isSpace)
  return (toInteger index, found)

/-- What is read of the pieces between semicolons; those that are no items are left out. -/
def bodyItems {Item : Type} (item : Chars → Option Item) (body : Chars) : List Item :=
  (((body.splitOn ';').map (strip isWhite)).filter (· ≠ [])).filterMap item

def parseEnum (input : Chars) : Option (Node × Chars) := do
  let (name, baseType) ← enumHead input
  let (body, rest) := extractBracedBody input
  return (.enum name baseType (bodyItems variantLine body), rest)

def parseStruct (input : Chars) : Option (Node × Chars) := do
  let name ← recordHead "struct".toList input
  let (body, rest) := extractBracedBody input
  return (.struct name (bodyItems fieldLine body), rest)

def parseMessage (input : Chars) : Option (Node × Chars) := do
  let name ← recordHead "message".toList input
  let (body, rest) := extractBracedBody input
  return (.message name (bodyItems numberedLine body), rest)

def parseUnion (input : Chars) : Option (Node × Chars) := do
  let name ← recordHead "union".toList input
  let (body, rest) := extractBracedBody input
  return (.union name (bodyItems numberedLine body), rest)

/-- The parser of what a text begins with, by its keyword and one blank behind it. -/
def keywordParser (input : Chars) : Option (Chars → Option (Node × Chars)) :=
  if "enum ".toList.isPrefixOf input then some parseEnum
  else if "struct ".toList.isPrefixOf input then some parseStruct
  else if "message ".toList.isPrefixOf input then some parseMessage
  else if "union ".toList.isPrefixOf input then some parseUnion
  else none

/-- The declarations of a text, as far as the fuel goes. None where one of them does not match, on which the task raises. -/
def parseTopLevel : Nat → Chars → Option Ast
  | 0, _ => some []
  | fuel + 1, text =>
    let input := text.dropWhile isWhite
    if input = [] then some []
    else
      match keywordParser input with
      | some parser => do
        let (item, rest) ← parser input
        let items ← parseTopLevel fuel rest
        return item :: items
      | none => parseTopLevel fuel (splitNextLine input)

/-- Each turn takes a letter at least, so that there is fuel enough. -/
def parse (source : Chars) : Option Ast :=
  let text := stripComments source
  parseTopLevel (text.length + 1) text



/-! The ways to write a schema. -/

/-- White space. -/
def Blank (text : Chars) : Prop := ∀ c ∈ text, isSpace c = true

def Word (text : Chars) : Prop := text ≠ [] ∧ ∀ c ∈ text, isWord c = true

def Decimal (text : Chars) : Prop := text ≠ [] ∧ ∀ c ∈ text, isDecimal c = true

instance (text : Chars) : Decidable (Blank text) := List.decidableBAll _ text

instance (text : Chars) : Decidable (Word text) :=
  have : Decidable (∀ c ∈ text, isWord c = true) := List.decidableBAll _ text
  inferInstanceAs (Decidable (text ≠ [] ∧ ∀ c ∈ text, isWord c = true))

/-- The ways to write a variant of an enumeration. -/
inductive VariantSpelled : String × Nat → Chars → Prop
  | mk {name : String} {a b digits : Chars} (word : Word name.toList) (blank : Blank a) (blank' : Blank b)
      (decimal : Decimal digits) : VariantSpelled (name, toInteger digits) (name.toList ++ (a ++ '=' :: (b ++ digits)))

/-- The ways to write a field. -/
inductive FieldSpelled : String × String → Chars → Prop
  | mk {type name : String} {a : Chars} (word : Word type.toList) (gap : a ≠ []) (blank : Blank a)
      (word' : Word name.toList) : FieldSpelled (type, name) (type.toList ++ (a ++ name.toList))

/-- The ways to write a field, or a variant of a union, behind its number. -/
inductive NumberedSpelled : Nat × String × String → Chars → Prop
  | mk {digits a b text : Chars} {field : String × String} (decimal : Decimal digits) (blank : Blank a) (blank' : Blank b)
      (spelled : FieldSpelled field text) :
      NumberedSpelled (toInteger digits, field) (digits ++ (a ++ '-' :: '>' :: (b ++ text)))

/-- The pieces of a body: its items, each between white space, and others of white space only. -/
inductive Pieces {Item : Type} (spelled : Item → Chars → Prop) : List Item → List Chars → Prop
  | nil : Pieces spelled [] []
  | item {item : Item} {items : List Item} {pieces : List Chars} {a text b : Chars} (blank : Blank a)
      (written : spelled item text) (blank' : Blank b) (rest : Pieces spelled items pieces) :
      Pieces spelled (item :: items) ((a ++ (text ++ b)) :: pieces)
  | blank {items : List Item} {pieces : List Chars} {a : Chars} (blank : Blank a) (rest : Pieces spelled items pieces) :
      Pieces spelled items (a :: pieces)

def bodyText (pieces : List Chars) : Chars := [';'].intercalate pieces

/-- A keyword, a name and a body. -/
def recordText (keyword name a b : Chars) (pieces : List Chars) : Chars :=
  keyword ++ ' ' :: (a ++ (name ++ (b ++ '{' :: (bodyText pieces ++ ['}']))))

/-- The ways to write a declaration. -/
inductive Spelled : Node → Chars → Prop
  | enum {name baseType : String} {variants : List (String × Nat)} {a b c d : Chars} {pieces : List Chars}
      (word : Word name.toList) (word' : Word baseType.toList) (blanks : Blank a ∧ Blank b ∧ Blank c ∧ Blank d)
      (body : Pieces VariantSpelled variants pieces) :
      Spelled (.enum name baseType variants)
        ("enum".toList ++ ' ' :: (a ++ (name.toList ++ (b ++ ':' :: (c ++ (baseType.toList ++ (d ++ '{' ::
          (bodyText pieces ++ ['}']))))))))
  | struct {name : String} {fields : List (String × String)} {a b : Chars} {pieces : List Chars} (word : Word name.toList)
      (blanks : Blank a ∧ Blank b) (body : Pieces FieldSpelled fields pieces) :
      Spelled (.struct name fields) (recordText "struct".toList name.toList a b pieces)
  | message {name : String} {fields : List (Nat × String × String)} {a b : Chars} {pieces : List Chars}
      (word : Word name.toList) (blanks : Blank a ∧ Blank b) (body : Pieces NumberedSpelled fields pieces) :
      Spelled (.message name fields) (recordText "message".toList name.toList a b pieces)
  | union {name : String} {variants : List (Nat × String × String)} {a b : Chars} {pieces : List Chars}
      (word : Word name.toList) (blanks : Blank a ∧ Blank b) (body : Pieces NumberedSpelled variants pieces) :
      Spelled (.union name variants) (recordText "union".toList name.toList a b pieces)

/-- A line that begins with no keyword. -/
structure Unread (line : Chars) : Prop where
  filled : line ≠ []
  begins : Stops isWhite line
  unbroken : '\n' ∉ line
  keyword : keywordParser line = none

/-- Declarations in order, with white space around them, and lines between them that are skipped. -/
inductive SchemaText : Ast → Chars → Prop
  | blank {a : Chars} (blank : Blank a) : SchemaText [] a
  | skipped {nodes : Ast} {a line rest : Chars} (blank : Blank a) (unread : Unread line) (others : SchemaText nodes rest) :
      SchemaText nodes (a ++ (line ++ '\n' :: rest))
  | declaration {node : Node} {nodes : Ast} {a text rest : Chars} (blank : Blank a) (spelled : Spelled node text)
      (others : SchemaText nodes rest) : SchemaText (node :: nodes) (a ++ (text ++ rest))

/-! Letters. -/

theorem isSpace_white {c : Char} (space : isSpace c = true) : isWhite c = true := by
  rw [isWhite, space]
  rfl

theorem isDecimal_word {c : Char} (decimal : isDecimal c = true) : isWord c = true := by
  rw [isWord, decimal]
  rfl

theorem isWord_not_white {c : Char} (word : isWord c = true) : isWhite c = false := by
  simp only [isWord, isDecimal, isWhite, isSpace, Bool.or_eq_true, Bool.and_eq_true, decide_eq_true_eq, Bool.or_eq_false_iff,
    Bool.and_eq_false_iff, decide_eq_false_iff_not] at word ⊢
  omega

theorem isWord_not_space {c : Char} (word : isWord c = true) : isSpace c = false := by
  have other := isWord_not_white word
  simp only [isWhite, Bool.or_eq_false_iff] at other
  exact other.1.1.1.1.1.1.1.1.1

theorem isSpace_not_word {c : Char} (space : isSpace c = true) : isWord c = false :=
  Bool.eq_false_iff.mpr fun word => Bool.false_ne_true ((isWord_not_space word).symm.trans space)

theorem isSpace_not_decimal {c : Char} (space : isSpace c = true) : isDecimal c = false :=
  Bool.eq_false_iff.mpr fun decimal => Bool.false_ne_true ((isWord_not_space (isDecimal_word decimal)).symm.trans space)

section Reading
variable {word digits a b rest : Chars}

theorem Blank.white (blank : Blank a) : ∀ c ∈ a, isWhite c = true := fun c member => isSpace_white (blank c member)

/-- A letter that is of no such class ends a run of it, also behind white space. -/
theorem stops_blank {allowed : Char → Bool} (spaces : ∀ c, isSpace c = true → allowed c = false) (blank : Blank a)
    {c : Char} (other : allowed c = false) (rest : Chars) : Stops allowed (a ++ c :: rest) := by
  cases a with
  | nil => exact Scanning.stops_cons other
  | cons first a => exact Scanning.stops_cons (spaces first (blank first List.mem_cons_self))

theorem Word.stops_space (w : Word word) (rest : Chars) : Stops isSpace (word ++ rest) :=
  Scanning.stops_append w.1 fun c member => isWord_not_space (w.2 c member)

theorem Word.taken (w : Word word) (stops : Stops isWord rest) : run isWord (word ++ rest) = some (word, rest) :=
  Scanning.run_append w.1 w.2 stops

theorem Decimal.taken (d : Decimal digits) (stops : Stops isDecimal rest) : run isDecimal (digits ++ rest) = some (digits, rest) :=
  Scanning.run_append d.1 d.2 stops

/-- White space and a letter behind it. -/
theorem Blank.passed (blank : Blank a) {c : Char} (other : isSpace c = false) (rest : Chars) :
    (a ++ c :: rest).dropWhile isSpace = c :: rest := Scanning.dropWhile_run blank (Scanning.stops_cons other)

theorem Word.passed (w : Word word) (blank : Blank a) (rest : Chars) :
    (a ++ (word ++ rest)).dropWhile isSpace = word ++ rest := Scanning.dropWhile_run blank (w.stops_space rest)

theorem Word.taken_all (w : Word word) : run isWord word = some (word, []) := by
  have whole : run isWord (word ++ []) = some (word, []) := w.taken nofun
  rwa [List.append_nil] at whole

theorem Decimal.taken_all (d : Decimal digits) : run isDecimal digits = some (digits, []) := by
  have whole : run isDecimal (digits ++ []) = some (digits, []) := d.taken nofun
  rwa [List.append_nil] at whole

theorem Decimal.passed (d : Decimal digits) (blank : Blank a) : (a ++ digits).dropWhile isSpace = digits := by
  obtain ⟨c, rest, rfl⟩ := List.exists_cons_of_ne_nil d.1
  exact blank.passed (isWord_not_space (isDecimal_word (d.2 c List.mem_cons_self))) rest

theorem variantLine_spelled {item : String × Nat} {text : Chars} (spelled : VariantSpelled item text) :
    variantLine text = some item := by
  obtain ⟨word, blank, blank', decimal⟩ := spelled
  have equals := stops_blank (fun _ => isSpace_not_word) blank (show isWord '=' = false by decide)
  simp only [variantLine, word.taken (equals _), blank.passed (show isSpace '=' = false by decide), decimal.passed blank',
    Option.bind_eq_bind, Option.bind_some, Scanning.literal_cons, decimal.taken_all, String.ofList_toList]
  rfl

theorem fieldLine_spelled {field : String × String} {text : Chars} (spelled : FieldSpelled field text) :
    fieldLine text = some field := by
  obtain @⟨type, name, a, word, gap, blank, word'⟩ := spelled
  have typeTaken : run isWord (type.toList ++ (a ++ name.toList)) = some (type.toList, a ++ name.toList) :=
    word.taken (Scanning.stops_append gap fun c member => isSpace_not_word (blank c member))
  have stops := word'.stops_space []
  rw [List.append_nil] at stops
  simp only [fieldLine, typeTaken, Scanning.run_append gap blank stops, word'.taken_all, Option.bind_eq_bind,
    Option.bind_some, String.ofList_toList]
  rfl

theorem FieldSpelled.passed {field : String × String} {text : Chars} (spelled : FieldSpelled field text) (blank : Blank a) :
    (a ++ text).dropWhile isSpace = text := by
  obtain ⟨word, gap, blank', word'⟩ := spelled
  exact word.passed blank _

theorem numberedLine_spelled {item : Nat × String × String} {text : Chars} (spelled : NumberedSpelled item text) :
    numberedLine text = some item := by
  obtain ⟨decimal, blank, blank', spelled⟩ := spelled
  have arrow := stops_blank (fun _ => isSpace_not_decimal) blank (show isDecimal '-' = false by decide)
  simp only [numberedLine, decimal.taken (arrow _), blank.passed (show isSpace '-' = false by decide),
    Scanning.literal_cons_cons, spelled.passed blank', fieldLine_spelled spelled, Option.bind_eq_bind, Option.bind_some]
  rfl

/-- A text whose first and last letters are of words, and whose letters are of a declaration's body. -/
structure Worded (text : Chars) : Prop where
  begins : Stops isWhite text
  ends : Stops isWhite text.reverse
  filled : text ≠ []
  letters : ∀ c ∈ text, c ≠ ';' ∧ c ≠ '{' ∧ c ≠ '}'

theorem isWord_letters {c : Char} (word : isWord c = true) : c ≠ ';' ∧ c ≠ '{' ∧ c ≠ '}' := by
  refine ⟨?_, ?_, ?_⟩
  all_goals
    rintro rfl
    exact absurd word (by decide)

theorem isSpace_letters {c : Char} (space : isSpace c = true) : c ≠ ';' ∧ c ≠ '{' ∧ c ≠ '}' := by
  refine ⟨?_, ?_, ?_⟩
  all_goals
    rintro rfl
    exact absurd space (by decide)

theorem Word.stops_white (w : Word word) (rest : Chars) : Stops isWhite (word ++ rest) :=
  Scanning.stops_append w.1 fun c member => isWord_not_white (w.2 c member)

theorem Word.reverse (w : Word word) : Word word.reverse :=
  ⟨fun none => w.1 (List.reverse_eq_nil_iff.mp none), fun c member => w.2 c (List.mem_reverse.mp member)⟩

theorem Decimal.isWord (d : Decimal digits) : Word digits := ⟨d.1, fun c member => isDecimal_word (d.2 c member)⟩

/-- Two words with letters of a body between them. -/
theorem worded_of_words {first last middle : Chars} (w : Word first) (w' : Word last)
    (letters : ∀ c ∈ middle, c ≠ ';' ∧ c ≠ '{' ∧ c ≠ '}') : Worded (first ++ (middle ++ last)) where
  begins := w.stops_white _
  ends := by
    rw [List.reverse_append, List.reverse_append, List.append_assoc]
    exact w'.reverse.stops_white _
  filled none := w.1 (List.append_eq_nil_iff.mp none).1
  letters c member := by
    rcases List.mem_append.mp member with front | later
    · exact isWord_letters (w.2 c front)
    · rcases List.mem_append.mp later with inside | back
      · exact letters c inside
      · exact isWord_letters (w'.2 c back)

theorem Blank.letters (blank : Blank a) : ∀ c ∈ a, c ≠ ';' ∧ c ≠ '{' ∧ c ≠ '}' := fun c member =>
  isSpace_letters (blank c member)

theorem VariantSpelled.worded {item : String × Nat} {text : Chars} (spelled : VariantSpelled item text) : Worded text := by
  obtain @⟨name, a, b, digits, word, blank, blank', decimal⟩ := spelled
  have whole : name.toList ++ (a ++ '=' :: (b ++ digits)) = name.toList ++ ((a ++ '=' :: b) ++ digits) := by simp
  rw [whole]
  refine worded_of_words word decimal.isWord fun c member => ?_
  rcases List.mem_append.mp member with front | rest
  · exact blank.letters c front
  · rcases List.mem_cons.mp rest with rfl | back
    · decide
    · exact blank'.letters c back

theorem FieldSpelled.worded {field : String × String} {text : Chars} (spelled : FieldSpelled field text) : Worded text := by
  obtain ⟨word, gap, blank, word'⟩ := spelled
  exact worded_of_words word word' blank.letters

theorem NumberedSpelled.worded {item : Nat × String × String} {text : Chars} (spelled : NumberedSpelled item text) :
    Worded text := by
  obtain @⟨digits, a, b, text, field, decimal, blank, blank', spelled⟩ := spelled
  obtain @⟨type, name, gap, word, filled, between, word'⟩ := spelled
  have whole : digits ++ (a ++ '-' :: '>' :: (b ++ (type.toList ++ (gap ++ name.toList)))) =
      digits ++ ((a ++ '-' :: '>' :: (b ++ (type.toList ++ gap))) ++ name.toList) := by simp
  rw [whole]
  refine worded_of_words decimal.isWord word' fun c member => ?_
  simp only [List.mem_append, List.mem_cons] at member
  rcases member with front | rfl | rfl | back | inside | behind
  · exact blank.letters c front
  · decide
  · decide
  · exact blank'.letters c back
  · exact isWord_letters (word.2 c inside)
  · exact between.letters c behind

section Bodies
variable {Item : Type} {spelled : Item → Chars → Prop} {items : List Item} {pieces : List Chars}

theorem Pieces.letters (worded : ∀ item text, spelled item text → Worded text) (body : Pieces spelled items pieces) :
    ∀ piece ∈ pieces, ∀ c ∈ piece, c ≠ ';' ∧ c ≠ '{' ∧ c ≠ '}' := by
  induction body with
  | nil => exact fun piece member => absurd member List.not_mem_nil
  | item blank written blank' _ ih =>
    intro piece member c inside
    rcases List.mem_cons.mp member with rfl | later
    · rcases List.mem_append.mp inside with front | rest
      · exact blank.letters c front
      · rcases List.mem_append.mp rest with text | back
        · exact (worded _ _ written).letters c text
        · exact blank'.letters c back
    · exact ih piece later c inside
  | blank blank _ ih =>
    intro piece member c inside
    rcases List.mem_cons.mp member with rfl | later
    · exact blank.letters c inside
    · exact ih piece later c inside

/-- The items of a body are read of its pieces, in their order. -/
theorem Pieces.read {item : Chars → Option Item} (worded : ∀ item text, spelled item text → Worded text)
    (reads : ∀ found text, spelled found text → item text = some found) (body : Pieces spelled items pieces) :
    (((pieces.map (strip isWhite)).filter (· ≠ [])).filterMap item) = items := by
  induction body with
  | nil => rfl
  | item blank written blank' _ ih =>
    have text := worded _ _ written
    rw [List.map_cons, Scanning.strip_between blank.white blank'.white text.begins text.ends,
      List.filter_cons, if_pos (decide_eq_true text.filled), List.filterMap_cons_some (reads _ _ written), ih]
  | blank blank _ ih =>
    rw [List.map_cons, Scanning.strip_allowed blank.white]
    exact ih

theorem bodyItems_pieces {item : Chars → Option Item} (worded : ∀ item text, spelled item text → Worded text)
    (reads : ∀ found text, spelled found text → item text = some found) (body : Pieces spelled items pieces) :
    bodyItems item (bodyText pieces) = items := by
  cases pieces with
  | nil =>
    cases body
    rfl
  | cons piece pieces =>
    have free : ∀ part ∈ piece :: pieces, ';' ∉ part := fun part member inside => (body.letters worded part member ';' inside).1 rfl
    rw [bodyItems, bodyText, List.splitOn_intercalate ';' free (List.cons_ne_nil _ _)]
    exact body.read worded reads

theorem mem_bodyText (letters : ∀ piece ∈ pieces, ∀ c ∈ piece, c ≠ ';' ∧ c ≠ '{' ∧ c ≠ '}') :
    ∀ c ∈ bodyText pieces, c ≠ '{' ∧ c ≠ '}' := by
  induction pieces with
  | nil => exact fun c member => absurd member List.not_mem_nil
  | cons piece pieces ih =>
    have first := fun c member => (letters piece List.mem_cons_self c member).2
    have others := ih fun part among => letters part (List.mem_cons_of_mem _ among)
    cases pieces with
    | nil =>
      rw [bodyText, List.intercalate_singleton]
      exact first
    | cons next pieces =>
      rw [bodyText, List.intercalate_cons_cons]
      intro c member
      rcases List.mem_append.mp member with front | back
      · rcases List.mem_append.mp front with inside | semicolon
        · exact first c inside
        · rw [List.mem_singleton.mp semicolon]
          decide
      · exact others c back

end Bodies

theorem findMatchingClose_body {body : Chars} (free : ∀ c ∈ body, c ≠ '{' ∧ c ≠ '}') (orig rest : Chars) (pos : Nat) :
    findMatchingClose orig (body ++ '}' :: rest) 1 pos = (orig.take (pos + body.length), rest) := by
  induction body generalizing pos with
  | nil => rfl
  | cons c body ih =>
    have other := free c List.mem_cons_self
    have onward := ih (fun d member => free d (List.mem_cons_of_mem _ member)) (pos + 1)
    rw [List.cons_append, findMatchingClose, if_neg other.1, if_neg other.2, onward, List.length_cons]
    congr 2
    omega

/-- A body without braces is found between the first brace and the next that closes. -/
theorem extractBracedBody_text {front body : Chars} (plain : ∀ c ∈ front, c ≠ '{') (free : ∀ c ∈ body, c ≠ '{' ∧ c ≠ '}')
    (rest : Chars) : extractBracedBody (front ++ '{' :: (body ++ '}' :: rest)) = (body, rest) := by
  have after : afterBrace (front ++ '{' :: (body ++ '}' :: rest)) = body ++ '}' :: rest := by
    rw [afterBrace, if_pos (List.mem_append_right _ List.mem_cons_self),
      List.dropWhile_append_of_pos fun c member => decide_eq_true (plain c member)]
    rfl
  rw [extractBracedBody, after, findMatchingClose_body free, Nat.zero_add, List.take_left]

section Declarations
variable {name : String}

theorem recordHead_text (keyword : Chars) (w : Word name.toList) (blank : Blank a) (blank' : Blank b) (rest : Chars) :
    recordHead keyword (keyword ++ ' ' :: (a ++ (name.toList ++ (b ++ '{' :: rest)))) = some name := by
  have gap : Blank (' ' :: a) := fun c member => (List.mem_cons.mp member).elim (fun same => same ▸ (by decide)) (blank c)
  have spaces : run isSpace (' ' :: (a ++ (name.toList ++ (b ++ '{' :: rest)))) =
      some (' ' :: a, name.toList ++ (b ++ '{' :: rest)) :=
    Scanning.run_append (List.cons_ne_nil _ _) gap (w.stops_space _)
  have brace := stops_blank (fun _ => isSpace_not_word) blank' (show isWord '{' = false by decide) rest
  simp only [recordHead, Scanning.literal_append, spaces, w.taken brace, blank'.passed (show isSpace '{' = false by decide),
    Scanning.literal_cons, Option.bind_eq_bind, Option.bind_some, String.ofList_toList]
  rfl

/-- Neither a keyword nor white space nor a name has a brace. -/
theorem head_plain {keyword later : Chars} (plain : ∀ c ∈ keyword, c ≠ '{') (w : Word name.toList) (blank : Blank a)
    (plain' : ∀ c ∈ later, c ≠ '{') : ∀ c ∈ keyword ++ ' ' :: (a ++ (name.toList ++ later)), c ≠ '{' := by
  intro c member
  simp only [List.mem_append, List.mem_cons] at member
  rcases member with front | rfl | gap | inside | behind
  · exact plain c front
  · decide
  · exact (blank.letters c gap).2.1
  · exact (isWord_letters (w.2 c inside)).2.1
  · exact plain' c behind

theorem recordText_body (keyword : Chars) (plain : ∀ c ∈ keyword, c ≠ '{') (w : Word name.toList) (blank : Blank a)
    (blank' : Blank b) {pieces : List Chars} (free : ∀ c ∈ bodyText pieces, c ≠ '{' ∧ c ≠ '}') (rest : Chars) :
    recordHead keyword (recordText keyword name.toList a b pieces ++ rest) = some name ∧
      extractBracedBody (recordText keyword name.toList a b pieces ++ rest) = (bodyText pieces, rest) := by
  have whole : recordText keyword name.toList a b pieces ++ rest =
      keyword ++ ' ' :: (a ++ (name.toList ++ (b ++ '{' :: (bodyText pieces ++ '}' :: rest)))) := by
    simp [recordText]
  have parts : keyword ++ ' ' :: (a ++ (name.toList ++ (b ++ '{' :: (bodyText pieces ++ '}' :: rest)))) =
      (keyword ++ ' ' :: (a ++ (name.toList ++ b))) ++ '{' :: (bodyText pieces ++ '}' :: rest) := by simp
  refine ⟨by rw [whole, recordHead_text keyword w blank blank'], ?_⟩
  rw [whole, parts]
  exact extractBracedBody_text (head_plain plain w blank fun c member => (blank'.letters c member).2.1) free rest

end Declarations

theorem enumHead_text {name baseType : String} {c d : Chars} (w : Word name.toList) (w' : Word baseType.toList)
    (first : Blank a) (colonGap : Blank b) (gap' : Blank c) (last : Blank d) (rest : Chars) :
    enumHead ("enum".toList ++ ' ' :: (a ++ (name.toList ++ (b ++ ':' :: (c ++ (baseType.toList ++ (d ++ '{' :: rest))))))) =
      some (name, baseType) := by
  have gap : Blank (' ' :: a) := fun c member => (List.mem_cons.mp member).elim (fun same => same ▸ (by decide)) (first c)
  have spaces := Scanning.run_append (List.cons_ne_nil ' ' a) gap
    (w.stops_space (b ++ ':' :: (c ++ (baseType.toList ++ (d ++ '{' :: rest)))))
  rw [List.cons_append] at spaces
  have colon := stops_blank (fun _ => isSpace_not_word) colonGap (show isWord ':' = false by decide)
    (c ++ (baseType.toList ++ (d ++ '{' :: rest)))
  have brace := stops_blank (fun _ => isSpace_not_word) last (show isWord '{' = false by decide) rest
  simp only [enumHead, Scanning.literal_append, spaces, w.taken colon, colonGap.passed (show isSpace ':' = false by decide),
    Scanning.literal_cons, w'.passed gap', w'.taken brace, last.passed (show isSpace '{' = false by decide),
    Option.bind_eq_bind, Option.bind_some, String.ofList_toList]
  rfl

/-- A declaration is read from its text, whatever is behind it. -/
theorem Spelled.read {node : Node} {text : Chars} (spelled : Spelled node text) (rest : Chars) :
    ∃ parser, keywordParser (text ++ rest) = some parser ∧ parser (text ++ rest) = some (node, rest) := by
  cases spelled with
  | @enum name baseType variants a b c d pieces word word' blanks body =>
    have free := mem_bodyText (body.letters fun _ _ => VariantSpelled.worded)
    have whole : "enum".toList ++ ' ' :: (a ++ (name.toList ++ (b ++ ':' :: (c ++ (baseType.toList ++ (d ++ '{' ::
        (bodyText pieces ++ ['}']))))))) ++ rest = "enum".toList ++ ' ' :: (a ++ (name.toList ++ (b ++ ':' ::
        (c ++ (baseType.toList ++ (d ++ '{' :: (bodyText pieces ++ '}' :: rest))))))) := by simp
    have parts : "enum".toList ++ ' ' :: (a ++ (name.toList ++ (b ++ ':' ::
        (c ++ (baseType.toList ++ (d ++ '{' :: (bodyText pieces ++ '}' :: rest))))))) =
        ("enum".toList ++ ' ' :: (a ++ (name.toList ++ (b ++ ':' :: (c ++ (baseType.toList ++ d)))))) ++ '{' ::
        (bodyText pieces ++ '}' :: rest) := by simp
    have later : ∀ letter ∈ b ++ ':' :: (c ++ (baseType.toList ++ d)), letter ≠ '{' := by
      intro letter member
      simp only [List.mem_append, List.mem_cons] at member
      rcases member with front | rfl | gap | inside | behind
      · exact (blanks.2.1.letters letter front).2.1
      · decide
      · exact (blanks.2.2.1.letters letter gap).2.1
      · exact (isWord_letters (word'.2 letter inside)).2.1
      · exact (blanks.2.2.2.letters letter behind).2.1
    have inner := extractBracedBody_text (head_plain (by simp : ∀ c ∈ "enum".toList, c ≠ '{') word blanks.1 later) free rest
    rw [← parts] at inner
    rw [whole]
    refine ⟨parseEnum, rfl, ?_⟩
    rw [parseEnum, enumHead_text word word' blanks.1 blanks.2.1 blanks.2.2.1 blanks.2.2.2, inner]
    exact congrArg some (by rw [bodyItems_pieces (fun _ _ => VariantSpelled.worded) (fun _ _ => variantLine_spelled) body])
  | struct word blanks body =>
    have free := mem_bodyText (body.letters fun _ _ => FieldSpelled.worded)
    obtain ⟨head, inner⟩ := recordText_body "struct".toList (by simp) word blanks.1 blanks.2 free rest
    refine ⟨parseStruct, rfl, ?_⟩
    rw [parseStruct, head, inner]
    exact congrArg some (by rw [bodyItems_pieces (fun _ _ => FieldSpelled.worded) (fun _ _ => fieldLine_spelled) body])
  | message word blanks body =>
    have free := mem_bodyText (body.letters fun _ _ => NumberedSpelled.worded)
    obtain ⟨head, inner⟩ := recordText_body "message".toList (by simp) word blanks.1 blanks.2 free rest
    refine ⟨parseMessage, rfl, ?_⟩
    rw [parseMessage, head, inner]
    exact congrArg some (by rw [bodyItems_pieces (fun _ _ => NumberedSpelled.worded) (fun _ _ => numberedLine_spelled) body])
  | union word blanks body =>
    have free := mem_bodyText (body.letters fun _ _ => NumberedSpelled.worded)
    obtain ⟨head, inner⟩ := recordText_body "union".toList (by simp) word blanks.1 blanks.2 free rest
    refine ⟨parseUnion, rfl, ?_⟩
    rw [parseUnion, head, inner]
    exact congrArg some (by rw [bodyItems_pieces (fun _ _ => NumberedSpelled.worded) (fun _ _ => numberedLine_spelled) body])

/-- A declaration begins with a letter of its keyword. -/
theorem Spelled.begins {node : Node} {text : Chars} (spelled : Spelled node text) (rest : Chars) :
    ∃ c others, text = c :: others ∧ Stops isWhite (text ++ rest) := by
  cases spelled with
  | enum => exact ⟨'e', _, rfl, Scanning.stops_cons (by decide)⟩
  | struct => exact ⟨'s', _, rfl, Scanning.stops_cons (by decide)⟩
  | message => exact ⟨'m', _, rfl, Scanning.stops_cons (by decide)⟩
  | union => exact ⟨'u', _, rfl, Scanning.stops_cons (by decide)⟩

theorem isPrefixOf_line {key line : Chars} (free : '\n' ∉ key) (rest : Chars) :
    key.isPrefixOf (line ++ '\n' :: rest) = key.isPrefixOf line := by
  induction key generalizing line with
  | nil => simp
  | cons c key ih =>
    obtain ⟨other, later⟩ := not_or.mp fun among => free (List.mem_cons.mpr among)
    cases line with
    | nil => rw [List.nil_append, List.isPrefixOf_cons_cons, beq_false_of_ne (Ne.symm other)]; rfl
    | cons d line => rw [List.cons_append, List.isPrefixOf_cons_cons, List.isPrefixOf_cons_cons, ih later]

theorem keywordParser_line (line rest : Chars) : keywordParser (line ++ '\n' :: rest) = keywordParser line := by
  rw [keywordParser, keywordParser, isPrefixOf_line (by decide), isPrefixOf_line (by decide), isPrefixOf_line (by decide),
    isPrefixOf_line (by decide)]

theorem splitNextLine_line {line : Chars} (unbroken : '\n' ∉ line) (rest : Chars) :
    splitNextLine (line ++ '\n' :: rest) = rest := by
  have all : ∀ c ∈ line, decide (c ≠ '\n') = true := fun c member => decide_eq_true fun same => unbroken (same ▸ member)
  rw [splitNextLine, List.dropWhile_append_of_pos all]
  rfl

/-- What is read of a schema is its declarations, in their order. -/
theorem parseTopLevel_text {nodes : Ast} {text : Chars} (schema : SchemaText nodes text) {fuel : Nat}
    (enough : text.length < fuel) : parseTopLevel fuel text = some nodes := by
  induction schema generalizing fuel with
  | blank blank =>
    obtain ⟨fuel, rfl⟩ := Nat.exists_eq_add_one_of_ne_zero (Nat.ne_zero_of_lt enough)
    rw [parseTopLevel, List.dropWhile_eq_nil_iff.mpr blank.white]
    rfl
  | @skipped nodes a line rest blank unread others ih =>
    obtain ⟨fuel, rfl⟩ := Nat.exists_eq_add_one_of_ne_zero (Nat.ne_zero_of_lt enough)
    have filled : line ++ '\n' :: rest ≠ [] := List.append_ne_nil_of_left_ne_nil unread.filled _
    have stops : Stops isWhite (line ++ '\n' :: rest) := by
      obtain ⟨c, later, rfl⟩ := List.exists_cons_of_ne_nil unread.filled
      exact Scanning.stops_cons (unread.begins c rfl)
    rw [parseTopLevel, Scanning.dropWhile_run blank.white stops]
    simp only [if_neg filled, keywordParser_line, unread.keyword, splitNextLine_line unread.unbroken]
    refine ih ?_
    simp only [List.length_append, List.length_cons] at enough
    omega
  | @declaration node nodes a text rest blank spelled others ih =>
    obtain ⟨fuel, rfl⟩ := Nat.exists_eq_add_one_of_ne_zero (Nat.ne_zero_of_lt enough)
    obtain ⟨c, later, begins, stops⟩ := spelled.begins rest
    obtain ⟨parser, keyword, reads⟩ := spelled.read rest
    have onward := ih (by
      rw [begins] at enough
      simp only [List.length_append, List.length_cons] at enough
      omega : rest.length < fuel)
    have filled : text ++ rest ≠ [] := by
      rw [begins]
      exact List.cons_ne_nil _ _
    rw [parseTopLevel, Scanning.dropWhile_run blank.white stops]
    simp only [if_neg filled, keyword, reads, onward, Option.bind_eq_bind, Option.bind_some]
    rfl

end Reading

section Fuel

theorem findMatchingClose_rest (orig text : Chars) (depth pos : Nat) :
    (findMatchingClose orig text depth pos).2.length ≤ text.length - 1 := by
  induction text generalizing depth pos with
  | nil => exact Nat.le_refl _
  | cons c rest ih =>
    have onward (depth pos : Nat) : (findMatchingClose orig rest depth pos).2.length ≤ rest.length :=
      Nat.le_trans (ih depth pos) (Nat.sub_le _ _)
    rw [findMatchingClose]
    split
    · exact onward _ _
    · split
      · split
        · exact Nat.le_refl _
        · exact onward _ _
      · exact onward _ _

theorem extractBracedBody_shorter {input : Chars} (filled : input ≠ []) : (extractBracedBody input).2.length < input.length := by
  have some := List.length_pos_iff.mpr filled
  have rest := findMatchingClose_rest (afterBrace input) (afterBrace input) 1 0
  have after : (afterBrace input).length ≤ input.length := by
    rw [afterBrace]
    split
    · exact Nat.le_trans (List.tail_sublist _).length_le (List.dropWhile_sublist _).length_le
    · exact Nat.le_refl _
  rw [extractBracedBody]
  omega

theorem splitNextLine_shorter {input : Chars} (filled : input ≠ []) : (splitNextLine input).length < input.length := by
  have some := List.length_pos_iff.mpr filled
  have fewer := (List.dropWhile_sublist (l := input) fun c => decide (c ≠ '\n')).length_le
  rw [splitNextLine, List.length_tail]
  omega

/-- A declaration takes letters off the text. -/
theorem keywordParser_shorter {input rest : Chars} {parser : Chars → Option (Node × Chars)} {item : Node}
    (filled : input ≠ []) (keyword : keywordParser input = some parser) (read : parser input = some (item, rest)) :
    rest.length < input.length := by
  have shorter := extractBracedBody_shorter filled
  rw [keywordParser] at keyword
  split at keyword
  · cases keyword
    obtain ⟨_, _, done⟩ := Option.bind_eq_some_iff.mp read
    cases done
    exact shorter
  · split at keyword
    · cases keyword
      obtain ⟨_, _, done⟩ := Option.bind_eq_some_iff.mp read
      cases done
      exact shorter
    · split at keyword
      · cases keyword
        obtain ⟨_, _, done⟩ := Option.bind_eq_some_iff.mp read
        cases done
        exact shorter
      · split at keyword
        · cases keyword
          obtain ⟨_, _, done⟩ := Option.bind_eq_some_iff.mp read
          cases done
          exact shorter
        · cases keyword

/-- A turn of the parser. -/
theorem parseTopLevel_succ (fuel : Nat) (text : Chars) :
    parseTopLevel (fuel + 1) text =
      if text.dropWhile isWhite = [] then some []
      else
        match keywordParser (text.dropWhile isWhite) with
        | some parser =>
          (parser (text.dropWhile isWhite)).bind fun found =>
            (parseTopLevel fuel found.2).bind fun items => some (found.1 :: items)
        | none => parseTopLevel fuel (splitNextLine (text.dropWhile isWhite)) := rfl

/-- The fuel does not run out on any text. -/
theorem parseTopLevel_enough {text : Chars} {fuel : Nat} (enough : text.length < fuel) :
    parseTopLevel (fuel + 1) text = parseTopLevel fuel text := by
  induction fuel generalizing text with
  | zero => exact absurd enough (Nat.not_lt_zero _)
  | succ fuel ih =>
    have fewer : (text.dropWhile isWhite).length ≤ text.length := (List.dropWhile_sublist _).length_le
    rw [parseTopLevel_succ (fuel + 1) text, parseTopLevel_succ fuel text]
    split
    · rfl
    next filled =>
      split
      next parser keyword =>
        cases read : parser (text.dropWhile isWhite) with
        | none => rfl
        | some found =>
          have shorter := keywordParser_shorter filled keyword read
          rw [Option.bind_some, Option.bind_some, ih (by omega)]
      next =>
        have shorter := splitNextLine_shorter filled
        exact ih (by omega)

/-- More fuel than `parse` has reads no more. -/
theorem parseTopLevel_parse (source : Chars) {fuel : Nat} (enough : (stripComments source).length < fuel) :
    parseTopLevel fuel (stripComments source) = parse source := by
  induction fuel, enough using Nat.le_induction with
  | base => rfl
  | succ fuel enough ih => rw [parseTopLevel_enough enough, ih]

end Fuel

section Source

/-- A line of a schema's source, and the comment behind it. -/
structure Line where
  code : Chars
  comment : Option Chars

def Line.text (line : Line) : Chars := line.code ++ (line.comment.map (['/', '/'] ++ ·)).getD []

/-- Nothing is a comment, or a line break, but where it is meant to be. -/
structure Line.Plain (line : Line) : Prop where
  slashes : ¬ ['/', '/'] <:+: line.code ++ ['/']
  breaks : '\n' ∉ line.code ∧ ∀ comment ∈ line.comment, '\n' ∉ comment

/-- The first slashes of a line are those of its comment. -/
theorem before_first {code : Chars} (plain : ¬ ['/', '/'] <:+: code ++ ['/']) (rest : Chars) :
    before ['/', '/'] (code ++ (['/', '/'] ++ rest)) = some code ∧ before ['/', '/'] code = none := by
  induction code with
  | nil => exact ⟨before_begins (List.cons_ne_nil _ _) rest, rfl⟩
  | cons c code ih =>
    have later : ¬ ['/', '/'] <:+: code ++ ['/'] := fun inside => plain (List.infix_cons inside)
    obtain ⟨found, none⟩ := ih later
    have other (behind : Chars) (slash : behind.head? = some '/' → (code ++ ['/']).head? = some '/') :
        ['/', '/'].isPrefixOf (c :: behind) = false := by
      rw [Bool.eq_false_iff, Ne, List.isPrefixOf_iff_prefix]
      rintro ⟨tail, same⟩
      obtain ⟨rfl, rfl⟩ := List.cons.inj same
      obtain ⟨after, whole⟩ := List.head?_eq_some_iff.mp (slash rfl)
      exact plain (List.IsPrefix.isInfix ⟨after, congrArg ('/' :: ·) whole.symm⟩)
    constructor
    · rw [List.cons_append, before_cons (other _ fun begins => by cases code <;> simp_all), found]
      rfl
    · rw [before_cons (other _ fun begins => by cases code <;> simp_all), none]
      rfl

theorem Line.stripped {line : Line} (plain : line.Plain) : stripComment line.text = line.code := by
  obtain ⟨code, comment⟩ := line
  cases comment with
  | none =>
    rw [Line.text, stripComment, Option.map_none, Option.getD_none, List.append_nil, (before_first plain.slashes []).2]
    rfl
  | some comment =>
    rw [Line.text, stripComment, Option.map_some, Option.getD_some, (before_first plain.slashes comment).1]
    rfl

theorem Line.unbroken {line : Line} (plain : line.Plain) : '\n' ∉ line.text := by
  obtain ⟨code, comment⟩ := line
  rw [Line.text, List.mem_append, not_or]
  refine ⟨plain.breaks.1, ?_⟩
  cases comment with
  | none => exact List.not_mem_nil
  | some comment =>
    have free := plain.breaks.2 comment rfl
    simpa using free

theorem stripComments_lines {lines : List Line} (plain : ∀ line ∈ lines, line.Plain) :
    stripComments (['\n'].intercalate (lines.map Line.text)) = ['\n'].intercalate (lines.map Line.code) := by
  cases lines with
  | nil => rfl
  | cons line lines =>
    have free : ∀ text ∈ (line :: lines).map Line.text, '\n' ∉ text := by
      intro text member
      obtain ⟨_, among, rfl⟩ := List.mem_map.mp member
      exact Line.unbroken (plain _ among)
    have codes : ((line :: lines).map Line.text).map stripComment = (line :: lines).map Line.code := by
      rw [List.map_map]
      exact List.map_congr_left fun line among => Line.stripped (plain line among)
    rw [stripComments, List.splitOn_intercalate '\n' free (List.cons_ne_nil _ _), codes]

def postLines : List Line :=
  [⟨['i', 'm', 'p', 'o', 'r', 't'], some [' ', 'u']⟩,
    ⟨['s', 't', 'r', 'u', 'c', 't', ' ', 'P', 'o', 's', 't', '{', 'u', '8', ' ', 'i', 'd', ';', '}'], some []⟩]

end Source

end Burble.Bebop
