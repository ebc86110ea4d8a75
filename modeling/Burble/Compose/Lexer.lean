import Mathlib.Data.Nat.ModEq
import Burble.FiniteMap

namespace Burble.SelurCompose

/-- Offsets are of the opening `$`, in bytes. -/
inductive Token
  | literal (text : String)
  | escape
  | varPlain (name : String) (offset : Nat)
  | varDefault (name default : String) (colon : Bool) (offset : Nat)
  | varRequired (name msg : String) (colon : Bool) (offset : Nat)
  deriving DecidableEq, Repr

def isNameChar (c : Char) : Bool := c.isAlphanum || c == '_'

def byteLen (text : List Char) : Nat := (text.map Char.utf8Size).sum

/-- Parse the content between the braces. -/
def parseExpansion (inner : List Char) (offset : Nat) : Except String Token :=
  if inner = [] then .error s!"`$\x7b\x7d` — empty variable name at byte {offset}"
  else
    let name := String.ofList (inner.takeWhile isNameChar)
    let rest := inner.dropWhile isNameChar
    let content := String.ofList inner
    if inner.takeWhile isNameChar = [] then
      .error ("invalid variable name in `$\x7b" ++ content ++ s!"\x7d` at byte {offset}: " ++
        "names must start with [A-Za-z_]")
    else match rest with
      | [] => .ok (.varPlain name offset)
      | ':' :: '-' :: default => .ok (.varDefault name (String.ofList default) true offset)
      | '-' :: default => .ok (.varDefault name (String.ofList default) false offset)
      | ':' :: '?' :: msg => .ok (.varRequired name (String.ofList msg) true offset)
      | '?' :: msg => .ok (.varRequired name (String.ofList msg) false offset)
      | _ => .error ("unrecognised modifier `" ++ String.ofList rest ++ "` in `$\x7b" ++ content ++
          s!"\x7d` at byte {offset}")

/-- A literal that has gathered is pushed, unless it is empty. -/
def flushLiteral (literal : List Char) (tokens : List Token) : List Token :=
  if literal = [] then tokens else .literal (String.ofList literal) :: tokens

/-- What is before the first closing brace, and what is after it. -/
def findBrace : List Char → Option (List Char × List Char)
  | [] => none
  | c :: rest =>
    if c = '}' then some ([], rest)
    else (findBrace rest).map fun (inner, after) => (c :: inner, after)

theorem findBrace_eq_some {text inner after : List Char} :
    findBrace text = some (inner, after) ↔ text = inner ++ '}' :: after ∧ '}' ∉ inner := by
  induction text generalizing inner with
  | nil => simp [findBrace]
  | cons c rest ih =>
    rw [findBrace]
    by_cases closes : c = '}'
    · subst closes
      rw [if_pos rfl, Option.some.injEq, Prod.mk.injEq]
      constructor
      · rintro ⟨rfl, rfl⟩
        exact ⟨rfl, List.not_mem_nil⟩
      · rintro ⟨split, free⟩
        cases inner with
        | nil => exact ⟨rfl, (List.cons.inj split).2⟩
        | cons d tail => exact absurd ((List.cons.inj split).1 ▸ List.mem_cons_self) free
    · rw [if_neg closes, Option.map_eq_some_iff]
      constructor
      · rintro ⟨⟨front, back⟩, found, same⟩
        cases same
        obtain ⟨split, free⟩ := ih.mp found
        exact ⟨by rw [split, List.cons_append], fun member =>
          (List.mem_cons.mp member).elim (fun same => closes same.symm) free⟩
      · rintro ⟨split, free⟩
        cases inner with
        | nil => exact absurd (List.cons.inj split).1 closes
        | cons d tail =>
          obtain ⟨rfl, rests⟩ := List.cons.inj split
          exact ⟨(tail, after), ih.mpr ⟨rests, fun member => free (List.mem_cons_of_mem _ member)⟩, rfl⟩

theorem findBrace_length {text inner after : List Char} (found : findBrace text = some (inner, after)) :
    after.length < text.length := by
  rw [(findBrace_eq_some.mp found).1]
  simp only [List.length_append, List.length_cons]
  omega

/-- The loop of `lex`, with the literal gathered so far and the byte offset of what is left. -/
def lexFrom (input : String) (literal : List Char) (offset : Nat) :
    List Char → Except (Nat × String) (List Token)
  | [] => .ok (flushLiteral literal [])
  | '$' :: [] => .ok (flushLiteral (literal ++ ['$']) [])
  | '$' :: '$' :: rest => do
    let tokens ← lexFrom input [] (offset + 2) rest
    .ok (flushLiteral literal (.escape :: tokens))
  | '$' :: '{' :: rest =>
    match _found : findBrace rest with
    | none => .error (offset, s!"unterminated `$\x7b` at byte {offset} in `{input}`")
    | some (inner, after) =>
      match parseExpansion inner offset with
      | .error msg => .error (offset, msg)
      | .ok token => do
        let tokens ← lexFrom input [] (offset + 2 + byteLen inner + 1) after
        .ok (flushLiteral literal (token :: tokens))
  | c :: rest => lexFrom input (literal ++ [c]) (offset + c.utf8Size) rest
termination_by text => text.length
decreasing_by
  · simp only [List.length_cons]
    omega
  · have bound := findBrace_length _found
    simp only [List.length_cons]
    omega
  · simp only [List.length_cons]
    omega

def lex (input : String) : Except (Nat × String) (List Token) := lexFrom input [] 0 input.toList

/-- Variables and their values, one for each name. -/
abbrev EnvMap := FiniteMap String String

inductive InterpError
  | undefined (name input : String)
  | missingRequired (name msg : String) (span : Nat × Nat)
  | unterminated (input : String) (pos : Nat)
  deriving DecidableEq, Repr

/-- What the loop of `expand` pushes for a token. -/
def Token.expand (input : String) (env : EnvMap) : Token → Except InterpError String
  | literal text => .ok text
  | escape => .ok "$"
  | varPlain name _ =>
    match env.lookup name with
    | some value => .ok value
    | none => .error (.undefined name input)
  | varDefault name default colon _ =>
    match env.lookup name with
    | none => .ok default
    | some value => if colon && value.isEmpty then .ok default else .ok value
  | varRequired name msg colon offset =>
    let missing := .error (.missingRequired name msg (offset, offset + name.utf8ByteSize + 3))
    match env.lookup name with
    | some value => if !(colon && value.isEmpty) then .ok value else missing
    | none => missing

def expandTokens (input : String) (env : EnvMap) (out : String) : List Token → Except InterpError String
  | [] => .ok out
  | token :: rest => do
    let text ← token.expand input env
    expandTokens input env (out ++ text) rest

def expand (input : String) (env : EnvMap) : Except InterpError String :=
  match lex input with
  | .error (pos, _) => .error (.unterminated input pos)
  | .ok [] => .ok ""
  | .ok [.literal text] => .ok text
  | .ok tokens => expandTokens input env "" tokens

end Burble.SelurCompose
