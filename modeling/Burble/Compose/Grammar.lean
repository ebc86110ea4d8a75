import Burble.FiniteMap

namespace Burble.SelurCompose

/-- The modifiers of an expansion, each with its value text. -/
inductive Modifier
  | colonDefault (text : List Char)
  | plainDefault (text : List Char)
  | colonRequired (text : List Char)
  | plainRequired (text : List Char)
  deriving DecidableEq

def Modifier.valueText : Modifier → List Char
  | colonDefault text => text
  | plainDefault text => text
  | colonRequired text => text
  | plainRequired text => text

/-- A modifier as it is written. -/
def Modifier.source : Modifier → List Char
  | colonDefault text => ':' :: '-' :: text
  | plainDefault text => '-' :: text
  | colonRequired text => ':' :: '?' :: text
  | plainRequired text => '?' :: text

inductive Fragment
  | literal (text : List Char)
  | escape
  | bareDollar
  | expansion (name : List Char) (modifier : Option Modifier)
  deriving DecidableEq

def Letter (c : Char) : Prop := c.isAlpha = true ∨ c = '_'

def LetterOrDigit (c : Char) : Prop := c.isAlphanum = true ∨ c = '_'

/-- `[A-Za-z_][A-Za-z0-9_]*` -/
def Name (name : List Char) : Prop :=
  (∃ first ∈ name.head?, Letter first) ∧ ∀ c ∈ name, LetterOrDigit c

/-- `[A-Za-z0-9_]+` -/
def LooseName (name : List Char) : Prop := name ≠ [] ∧ ∀ c ∈ name, LetterOrDigit c

/-- A text is a template made of the fragments, with names of some kind. A bare `$` is one
before neither `{` nor another `$`. -/
inductive Template (isName : List Char → Prop) : List Char → List Fragment → Prop
  | nil : Template isName [] []
  | literal {run rest fragments} : run ≠ [] → '$' ∉ run → Template isName rest fragments →
      Template isName (run ++ rest) (.literal run :: fragments)
  | escape {rest fragments} : Template isName rest fragments →
      Template isName ('$' :: '$' :: rest) (.escape :: fragments)
  | bareDollar {rest fragments} : rest.head? ≠ some '{' → rest.head? ≠ some '$' → Template isName rest fragments →
      Template isName ('$' :: rest) (.bareDollar :: fragments)
  | expansion {name modifier rest fragments} : isName name → (∀ by_ ∈ modifier, '}' ∉ Modifier.valueText by_) →
      Template isName rest fragments →
      Template isName ('$' :: '{' :: (name ++ (modifier.elim [] Modifier.source ++ '}' :: rest)))
        (.expansion name modifier :: fragments)

def InGrammar (input : String) : Prop := ∃ fragments, Template Name input.toList fragments

/-- With names that may begin with a digit, one does. -/
def NamedFromDigit (input : String) : Prop :=
  ∃ fragments, Template LooseName input.toList fragments ∧
    ∃ name modifier, .expansion name modifier ∈ fragments ∧ ¬ Name name

/-- What the semantics answers instead of a text. -/
inductive Failure
  | undefined (name : String)
  | missingRequired (name msg : String)
  deriving DecidableEq

/-- The table of the semantics. -/
def Fragment.meaning (env : FiniteMap String String) : Fragment → Except Failure String
  | literal text => .ok (String.ofList text)
  | escape => .ok "$"
  | bareDollar => .ok "$"
  | expansion name none => (env.lookup (String.ofList name)).elim (.error (.undefined (String.ofList name))) .ok
  | expansion name (some (.colonDefault text)) =>
    .ok (((env.lookup (String.ofList name)).filter fun value => value ≠ "").getD (String.ofList text))
  | expansion name (some (.plainDefault text)) => .ok ((env.lookup (String.ofList name)).getD (String.ofList text))
  | expansion name (some (.colonRequired msg)) =>
    ((env.lookup (String.ofList name)).filter fun value => value ≠ "").elim
      (.error (.missingRequired (String.ofList name) (String.ofList msg))) .ok
  | expansion name (some (.plainRequired msg)) =>
    (env.lookup (String.ofList name)).elim (.error (.missingRequired (String.ofList name) (String.ofList msg))) .ok

/-- Fragments mean what they mean one after the other, up to the first failure. -/
def meaning (env : FiniteMap String String) : List Fragment → Except Failure String
  | [] => .ok ""
  | fragment :: rest => do
    let text ← fragment.meaning env
    let more ← meaning env rest
    .ok (text ++ more)

theorem Name.loose {name : List Char} (strict : Name name) : LooseName name := by
  obtain ⟨⟨first, atHead, _⟩, among⟩ := strict
  refine ⟨?_, among⟩
  rintro rfl
  cases atHead

theorem Template.mono {isName other : List Char → Prop} {text : List Char} {fragments : List Fragment}
    (template : Template isName text fragments)
    (weaker : ∀ name modifier, .expansion name modifier ∈ fragments → isName name → other name) :
    Template other text fragments := by
  induction template with
  | nil => exact .nil
  | literal nonempty plain _ ih =>
    exact .literal nonempty plain (ih fun name modifier member => weaker name modifier (List.mem_cons_of_mem _ member))
  | escape _ ih =>
    exact .escape (ih fun name modifier member => weaker name modifier (List.mem_cons_of_mem _ member))
  | bareDollar notBrace notDollar _ ih =>
    exact .bareDollar notBrace notDollar
      (ih fun name modifier member => weaker name modifier (List.mem_cons_of_mem _ member))
  | expansion named plain _ ih =>
    exact .expansion (weaker _ _ List.mem_cons_self named) plain
      (ih fun name modifier member => weaker name modifier (List.mem_cons_of_mem _ member))

/-- What no failure stops is put together from what each fragment means. -/
theorem InGrammar.loose {input : String} (grammar : InGrammar input) :
    ∃ fragments, Template LooseName input.toList fragments := by
  obtain ⟨fragments, template⟩ := grammar
  exact ⟨fragments, template.mono fun _ _ _ => Name.loose⟩

end Burble.SelurCompose
