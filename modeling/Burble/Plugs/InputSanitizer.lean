import Burble.Fallible

namespace Burble.Plugs

/-- A JSON-like term. A number, a boolean or nil is none of the others. -/
inductive Param
  | binary (value : List UInt8)
  | list (items : List Param)
  | map (entries : List (String × Param))
  | scalar

def maxLengths : List (String × Nat) :=
  [("id", 128), ("room_id", 128), ("server_id", 128), ("user_id", 128), ("code", 64), ("token", 256), ("email", 254),
    ("password", 256), ("display_name", 64), ("name", 128), ("refresh_token", 2048)]

def defaultMaxLength : Nat := 4096

def maxLength (key : String) : Nat := (maxLengths.lookup key).getD defaultMaxLength

def idFields : List String := ["id", "room_id", "server_id", "user_id", "group_id"]
def tokenFields : List String := ["code", "token"]

section Characters

def isAlphanumeric (byte : UInt8) : Bool :=
  (0x61 ≤ byte && byte ≤ 0x7A) || (0x41 ≤ byte && byte ≤ 0x5A) || (0x30 ≤ byte && byte ≤ 0x39)

/-- Also `_` and `-`. -/
def isIdByte (byte : UInt8) : Bool := isAlphanumeric byte || byte = 0x5F || byte = 0x2D

/-- Also `=`, `+` and `/`. -/
def isTokenByte (byte : UInt8) : Bool := isIdByte byte || byte = 0x3D || byte = 0x2B || byte = 0x2F

/-- What the class `\s` of a regular expression has. -/
def isSpace (byte : UInt8) : Bool := (0x09 ≤ byte && byte ≤ 0x0D) || byte = 0x20

/-- The start of a text to its end in one class of bytes, of which there is one at least. -/
def isAll (class_ : UInt8 → Bool) (value : List UInt8) : Bool := value ≠ [] && value.all class_

/-- A part before an `@`, and one after it with a dot inside. -/
def isEmail (value : List UInt8) : Bool :=
  match value.splitOn 0x40 with
  | [name, domain] => isAll (!isSpace ·) name && isAll (!isSpace ·) domain && domain.tail.dropLast.contains 0x2E
  | _ => false

/-- A control character of ASCII, which is a byte by itself; a tab and the ends of lines are none. -/
def hasControlChars (value : List UInt8) : Bool :=
  value.any fun byte => (byte < 0x20 && byte ≠ 0x09 && byte ≠ 0x0A && byte ≠ 0x0D) || byte = 0x7F

def isValid (value : List UInt8) : Bool := (ByteArray.mk value.toArray).validateUTF8

end Characters

section Validation
variable (length : List UInt8 → Nat)

/-- Nothing where the value of a field is accepted, or else the reason why not. -/
def validateField (key : String) : Param → Option String
  | .binary value =>
    if value.contains 0 then some "contains null byte"
    else if length value > maxLength key then some ("exceeds maximum length of " ++ toString (maxLength key))
    else if !isValid value then some "invalid UTF-8"
    else if idFields.contains key && !isAll isIdByte value then
      some "must contain only alphanumeric characters, hyphens, and underscores"
    else if tokenFields.contains key && !isAll isTokenByte value then some "contains invalid characters for a token/code"
    else if ["display_name", "name"].contains key && hasControlChars value then some "contains control characters"
    else if key = "email" && !isEmail value then some "invalid email format"
    else none
  | _ => none

/-- The first field that is not accepted, and why not. -/
def validateParams : List (String × Param) → Except (String × String) Unit
  | [] => .ok ()
  | (key, value) :: rest =>
    match validateField length key value with
    | none => validateParams rest
    | some reason => .error (key, reason)

end Validation

/-- The strings of a term, each with the nearest key around it; `key` is that of the term. -/
inductive Leaf : String → Param → String → List UInt8 → Prop
  | here {key : String} {value : List UInt8} : Leaf key (.binary value) key value
  | item {key nearest : String} {value : List UInt8} {items : List Param} {item : Param} (listed : item ∈ items)
      (leaf : Leaf key item nearest value) : Leaf key (.list items) nearest value
  | entry {key inner nearest : String} {value : List UInt8} {entries : List (String × Param)} {param : Param}
      (listed : (inner, param) ∈ entries) (leaf : Leaf inner param nearest value) : Leaf key (.map entries) nearest value

def Param.Nested : Param → Prop
  | .binary _ => False
  | _ => True

section Cleanness
variable {length : List UInt8 → Nat} {params : List (String × Param)} {key : String} {value : List UInt8}

structure Clean (length : List UInt8 → Nat) (key : String) (value : List UInt8) : Prop where
  valid : isValid value = true
  noNull : 0 ∉ value
  short : length value ≤ maxLength key

theorem clean_of_validateField (accepted : validateField length key (.binary value) = none) : Clean length key value := by
  rw [validateField] at accepted
  split at accepted
  · cases accepted
  next noNull =>
    split at accepted
    · cases accepted
    next short =>
      split at accepted
      · cases accepted
      next valid => exact ⟨by simpa using valid, by simpa using noNull, Nat.le_of_not_lt short⟩

theorem validateParams_iff : validateParams length params = .ok () ↔
    ∀ key value, (key, value) ∈ params → validateField length key value = none := by
  induction params with
  | nil => exact iff_of_true rfl (by simp)
  | cons param rest ih =>
    obtain ⟨key, value⟩ := param
    rw [validateParams]
    cases accepted : validateField length key value with
    | some reason =>
      refine iff_of_false (by simp) fun all => ?_
      rw [all key value List.mem_cons_self] at accepted
      cases accepted
    | none =>
      refine ih.trans ⟨fun all other param listed => ?_, fun all other param listed => all other param (List.mem_cons_of_mem _ listed)⟩
      rcases List.mem_cons.mp listed with same | later
      · cases same
        exact accepted
      · exact all other param later

/-- Parameters that are accepted are clean at every depth where a string among them is refused, or else every string in a
    list or a map is clean. -/
theorem accepted_clean_iff (length : List UInt8 → Nat) (params : List (String × Param)) :
    (validateParams length params = .ok () → ∀ key param nearest value, (key, param) ∈ params → Leaf key param nearest value →
      Clean length nearest value) ↔
    (∃ key value, (key, .binary value) ∈ params ∧ validateField length key (.binary value) ≠ none) ∨
      ∀ key param nearest value, (key, param) ∈ params → param.Nested → Leaf key param nearest value → Clean length nearest value := by
  constructor
  · intro clean
    by_cases refused : ∃ key value, (key, .binary value) ∈ params ∧ validateField length key (.binary value) ≠ none
    · exact .inl refused
    · refine .inr fun key param nearest value listed _ leaf => clean (validateParams_iff.mpr ?_) key param nearest value listed leaf
      intro other param there
      cases param with
      | binary value =>
        by_contra reason
        exact refused ⟨other, value, there, reason⟩
      | list | map | scalar => rfl
  · intro either accepted key param nearest value listed leaf
    have all := validateParams_iff.mp accepted
    rcases either with ⟨other, text, there, refused⟩ | nested
    · exact absurd (all other _ there) refused
    · cases leaf with
      | here => exact clean_of_validateField (all key _ listed)
      | item there leaf => exact nested key _ nearest value listed trivial (.item there leaf)
      | entry there leaf => exact nested key _ nearest value listed trivial (.entry there leaf)

end Cleanness

/-- A name with a null byte, in a map. -/
def nestedNull : List (String × Param) := [("profile", .map [("name", .binary [0x61, 0x00, 0x62])])]

theorem nestedNull_accepted : validateParams List.length nestedNull = .ok () ∧
    ¬ ∀ key param nearest value, (key, param) ∈ nestedNull → Leaf key param nearest value →
      Clean List.length nearest value := by
  refine ⟨rfl, fun clean => ?_⟩
  have name : Leaf "profile" (.map [("name", .binary [0x61, 0x00, 0x62])]) "name" [0x61, 0x00, 0x62] :=
    .entry (List.mem_singleton_self _) .here
  exact absurd (clean "profile" _ "name" _ (List.mem_singleton_self _) name).noNull (by decide)

end Burble.Plugs
