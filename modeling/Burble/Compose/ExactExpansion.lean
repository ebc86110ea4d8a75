import Mathlib.Data.List.TakeWhile
import Burble.Compose.Grammar
import Burble.Compose.Lexer

namespace Burble.SelurCompose

/-- What the semantics knows of an outcome; nothing, when the input was not even lexed. -/
def outcome : Except InterpError String → Option (Except Failure String)
  | .ok text => some (.ok text)
  | .error (.undefined name _) => some (.error (.undefined name))
  | .error (.missingRequired name msg _) => some (.error (.missingRequired name msg))
  | .error (.unterminated _ _) => none

/-- The token of an expansion. -/
def expansionToken (name : List Char) (offset : Nat) : Option Modifier → Token
  | none => .varPlain (String.ofList name) offset
  | some (.colonDefault text) => .varDefault (String.ofList name) (String.ofList text) true offset
  | some (.plainDefault text) => .varDefault (String.ofList name) (String.ofList text) false offset
  | some (.colonRequired msg) => .varRequired (String.ofList name) (String.ofList msg) true offset
  | some (.plainRequired msg) => .varRequired (String.ofList name) (String.ofList msg) false offset

theorem isNameChar_iff {c : Char} : isNameChar c = true ↔ LetterOrDigit c := by
  simp [isNameChar, LetterOrDigit]

theorem modifier_head {modifier : Option Modifier} {c : Char}
    (atHead : c ∈ (modifier.elim [] Modifier.source).head?) : isNameChar c = false := by
  cases modifier with
  | none => cases atHead
  | some by_ => cases by_ <;> (cases atHead; decide)

theorem source_free {name : List Char} {modifier : Option Modifier} (loose : LooseName name)
    (plain : ∀ by_ ∈ modifier, '}' ∉ Modifier.valueText by_) : '}' ∉ name ++ modifier.elim [] Modifier.source := by
  intro member
  rcases List.mem_append.mp member with inName | inSource
  · exact absurd (loose.2 _ inName) (by unfold LetterOrDigit; decide)
  · cases modifier with
    | none => cases inSource
    | some by_ =>
      have free := plain by_ rfl
      cases by_ <;> simp_all [Modifier.source, Modifier.valueText]

theorem Modifier.valueText_suffix (modifier : Modifier) : modifier.valueText <:+ modifier.source := by
  cases modifier with
  | colonDefault text => exact ⟨[':', '-'], rfl⟩
  | plainDefault text => exact ⟨['-'], rfl⟩
  | colonRequired text => exact ⟨[':', '?'], rfl⟩
  | plainRequired text => exact ⟨['?'], rfl⟩

theorem takeWhile_name {name rest : List Char} (among : ∀ c ∈ name, LetterOrDigit c)
    (ends : ∀ c ∈ rest.head?, isNameChar c = false) :
    (name ++ rest).takeWhile isNameChar = name ∧ (name ++ rest).dropWhile isNameChar = rest := by
  induction name with
  | nil =>
    cases rest with
    | nil => exact ⟨rfl, rfl⟩
    | cons c tail => simp [ends c rfl]
  | cons c tail ih =>
    have here := isNameChar_iff.mpr (among c List.mem_cons_self)
    obtain ⟨taken, dropped⟩ := ih fun other member => among other (List.mem_cons_of_mem _ member)
    simp [here, taken, dropped]

theorem parseExpansion_source {name : List Char} (loose : LooseName name) (modifier : Option Modifier) (offset : Nat) :
    parseExpansion (name ++ modifier.elim [] Modifier.source) offset = .ok (expansionToken name offset modifier) := by
  obtain ⟨nonempty, among⟩ := loose
  obtain ⟨taken, dropped⟩ := takeWhile_name among fun c => @modifier_head modifier c
  have some : name ++ modifier.elim [] Modifier.source ≠ [] := fun empty => nonempty (List.append_eq_nil_iff.mp empty).1
  simp only [parseExpansion, if_neg some, taken, dropped, if_neg nonempty]
  cases modifier with
  | none => rfl
  | some by_ => cases by_ <;> rfl

theorem parseExpansion_ok {inner : List Char} {offset : Nat} {token : Token}
    (parsed : parseExpansion inner offset = .ok token) : ∃ name modifier, LooseName name ∧
      inner = name ++ Option.elim modifier [] Modifier.source ∧ token = expansionToken name offset modifier := by
  have named : ∀ c ∈ inner.takeWhile isNameChar, LetterOrDigit c := fun c member =>
    isNameChar_iff.mp (List.mem_takeWhile_imp member)
  have whole : inner = inner.takeWhile isNameChar ++ inner.dropWhile isNameChar := List.takeWhile_append_dropWhile.symm
  simp only [parseExpansion] at parsed
  split_ifs at parsed with empty unnamed
  have loose : LooseName (inner.takeWhile isNameChar) := ⟨unnamed, named⟩
  split at parsed
  next rest => cases parsed; exact ⟨_, none, loose, by rwa [rest] at whole, rfl⟩
  next text rest => cases parsed; exact ⟨_, some (.colonDefault text), loose, by rwa [rest] at whole, rfl⟩
  next text rest => cases parsed; exact ⟨_, some (.plainDefault text), loose, by rwa [rest] at whole, rfl⟩
  next msg rest => cases parsed; exact ⟨_, some (.colonRequired msg), loose, by rwa [rest] at whole, rfl⟩
  next msg rest => cases parsed; exact ⟨_, some (.plainRequired msg), loose, by rwa [rest] at whole, rfl⟩
  next => cases parsed

section Lexing
variable {input : String} {literal rest : List Char} {offset : Nat}

theorem lexFrom_nil : lexFrom input literal offset [] = .ok (flushLiteral literal []) := by
  rw [lexFrom]

theorem lexFrom_other {c : Char} (plain : c ≠ '$') :
    lexFrom input literal offset (c :: rest) = lexFrom input (literal ++ [c]) (offset + c.utf8Size) rest := by
  rw [lexFrom]
  all_goals simp [plain]

theorem lexFrom_bareDollar (notBrace : rest.head? ≠ some '{') (notDollar : rest.head? ≠ some '$') :
    lexFrom input literal offset ('$' :: rest) = lexFrom input (literal ++ ['$']) (offset + 1) rest := by
  cases rest with
  | nil => rw [lexFrom_nil, lexFrom]
  | cons c tail =>
    rw [lexFrom]
    · rfl
    all_goals simp_all

theorem lexFrom_escape : lexFrom input literal offset ('$' :: '$' :: rest) =
    (lexFrom input [] (offset + 2) rest).map fun tokens => flushLiteral literal (.escape :: tokens) := by
  rw [lexFrom]
  cases lexFrom input [] (offset + 2) rest <;> rfl

theorem lexFrom_expansion {inner : List Char} {token : Token} (free : '}' ∉ inner)
    (parsed : parseExpansion inner offset = .ok token) :
    lexFrom input literal offset ('$' :: '{' :: (inner ++ '}' :: rest)) =
      (lexFrom input [] (offset + 2 + byteLen inner + 1) rest).map fun tokens =>
        flushLiteral literal (token :: tokens) := by
  have found : findBrace (inner ++ '}' :: rest) = some (inner, rest) := findBrace_eq_some.mpr ⟨rfl, free⟩
  rw [lexFrom]
  split
  next none => rw [found] at none; cases none
  next front back some =>
    rw [found] at some
    cases some
    rw [parsed]
    cases lexFrom input [] (offset + 2 + byteLen inner + 1) rest <;> rfl

theorem lexFrom_run {run : List Char} (plain : '$' ∉ run) : lexFrom input literal offset (run ++ rest) =
    lexFrom input (literal ++ run) (offset + byteLen run) rest := by
  induction run generalizing literal offset with
  | nil => simp [byteLen]
  | cons c tail ih =>
    have here : c ≠ '$' := fun same => plain (same ▸ List.mem_cons_self)
    have bytes : offset + c.utf8Size + byteLen tail = offset + byteLen (c :: tail) := by
      simp only [byteLen, List.map_cons, List.sum_cons]
      omega
    rw [List.cons_append, lexFrom_other here, ih fun member => plain (List.mem_cons_of_mem _ member), bytes,
      List.append_assoc, List.singleton_append]

end Lexing

section Meaning
variable {input : String} {env : EnvMap}

/-- A token gives what its fragment means. -/
theorem expansionToken_meaning (name : List Char) (modifier : Option Modifier) (offset : Nat) :
    outcome ((expansionToken name offset modifier).expand input env) =
      some (Fragment.meaning env (.expansion name modifier)) := by
  rcases modifier with _ | text | text | msg | msg
  · cases found : env.lookup (String.ofList name) <;> simp [expansionToken, Token.expand, Fragment.meaning, found, outcome]
  · cases found : env.lookup (String.ofList name) with
    | none => simp [expansionToken, Token.expand, Fragment.meaning, found, outcome]
    | some value =>
      by_cases empty : value = "" <;>
        simp [expansionToken, Token.expand, Fragment.meaning, found, outcome, empty, Option.filter_some]
  · cases found : env.lookup (String.ofList name) <;> simp [expansionToken, Token.expand, Fragment.meaning, found, outcome]
  · cases found : env.lookup (String.ofList name) with
    | none => simp [expansionToken, Token.expand, Fragment.meaning, found, outcome]
    | some value =>
      by_cases empty : value = "" <;>
        simp [expansionToken, Token.expand, Fragment.meaning, found, outcome, empty, Option.filter_some]
  · cases found : env.lookup (String.ofList name) <;> simp [expansionToken, Token.expand, Fragment.meaning, found, outcome]

/-- A gathered literal is put out before the rest. -/
theorem expandTokens_flush (out : String) (literal : List Char) (tokens : List Token) :
    expandTokens input env out (flushLiteral literal tokens) =
      expandTokens input env (out ++ String.ofList literal) tokens := by
  unfold flushLiteral
  split
  next empty => simp [empty]
  next => rfl

theorem expandTokens_cons (out : String) (token : Token) (rest : List Token) {value : Except Failure String}
    (gives : outcome (token.expand input env) = some value) {more : Except Failure String}
    (onward : ∀ out, outcome (expandTokens input env out rest) = some (more.map (out ++ ·))) :
    outcome (expandTokens input env out (token :: rest)) =
      some (value.bind fun text => more.map (out ++ text ++ ·)) := by
  rw [expandTokens]
  cases expanded : token.expand input env with
  | error reason =>
    rw [expanded] at gives
    cases reason with
    | unterminated => cases gives
    | _ => cases gives; rfl
  | ok text =>
    rw [expanded] at gives
    cases gives
    exact onward (out ++ text)

theorem meaning_cons (fragment : Fragment) (rest : List Fragment) : meaning env (fragment :: rest) =
    (fragment.meaning env).bind fun text => (meaning env rest).map (text ++ ·) := by
  rw [meaning]
  cases fragment.meaning env with
  | error => rfl
  | ok text => cases meaning env rest <;> rfl

/-- The tokens of a template give what its fragments mean, after what has gathered before it. -/
theorem lexFrom_template {text : List Char} {fragments : List Fragment} (template : Template LooseName text fragments)
    (literal : List Char) (offset : Nat) : ∃ tokens, lexFrom input literal offset text = .ok tokens ∧
      ∀ out, outcome (expandTokens input env out tokens) =
        some ((meaning env fragments).map fun more => out ++ (String.ofList literal ++ more)) := by
  induction template generalizing literal offset with
  | nil =>
    refine ⟨_, lexFrom_nil, fun out => ?_⟩
    rw [expandTokens_flush]
    simp [expandTokens, outcome, meaning, Except.map]
  | @literal run rest fragments _ plain _ ih =>
    obtain ⟨tokens, lexed, gives⟩ := ih (literal ++ run) (offset + byteLen run)
    refine ⟨tokens, by rw [lexFrom_run plain, lexed], fun out => ?_⟩
    rw [gives]
    cases more : meaning env fragments <;>
      simp [meaning_cons, Fragment.meaning, more, Except.map, Except.bind, String.ofList_append, String.append_assoc]
  | @bareDollar rest fragments notBrace notDollar _ ih =>
    obtain ⟨tokens, lexed, gives⟩ := ih (literal ++ ['$']) (offset + 1)
    refine ⟨tokens, by rw [lexFrom_bareDollar notBrace notDollar, lexed], fun out => ?_⟩
    rw [gives]
    cases more : meaning env fragments <;>
      simp [meaning_cons, Fragment.meaning, more, Except.map, Except.bind, String.ofList_append, String.append_assoc]
  | @escape rest fragments _ ih =>
    obtain ⟨tokens, lexed, gives⟩ := ih [] (offset + 2)
    have escapeGives : outcome (Token.escape.expand input env) = some (.ok "$") := rfl
    refine ⟨flushLiteral literal (.escape :: tokens), by rw [lexFrom_escape, lexed]; rfl, fun out => ?_⟩
    rw [expandTokens_flush, expandTokens_cons _ .escape tokens escapeGives gives]
    cases more : meaning env fragments <;>
      simp [meaning_cons, Fragment.meaning, more, Except.map, Except.bind, String.append_assoc]
  | @expansion name modifier rest fragments loose plain _ ih =>
    have free := source_free loose plain
    obtain ⟨tokens, lexed, gives⟩ := ih [] (offset + 2 + byteLen (name ++ modifier.elim [] Modifier.source) + 1)
    refine ⟨flushLiteral literal (expansionToken name offset modifier :: tokens), ?_, fun out => ?_⟩
    · rw [← List.append_assoc, lexFrom_expansion free (parseExpansion_source loose modifier offset), lexed]
      rfl
    · rw [expandTokens_flush, expandTokens_cons _ _ tokens (expansionToken_meaning name modifier offset) gives]
      cases value : Fragment.meaning env (.expansion name modifier) <;> cases more : meaning env fragments <;>
        simp [meaning_cons, value, more, Except.map, Except.bind, String.append_assoc]

end Meaning

/-- What is lexed is a template, but for names that may begin with a digit. -/
theorem template_of_lexFrom {input : String} {literal text : List Char} {offset : Nat} {tokens : List Token}
    (lexed : lexFrom input literal offset text = .ok tokens) : ∃ fragments, Template LooseName text fragments := by
  have went {from_ : Except (Nat × String) (List Token)} {gather : List Token → List Token} {tokens : List Token}
      (ok : (do let tokens ← from_; .ok (gather tokens)) = (.ok tokens : Except (Nat × String) (List Token))) :
      ∃ tokens, from_ = .ok tokens := by
    cases from_ with
    | error => cases ok
    | ok tokens => exact ⟨tokens, rfl⟩
  fun_induction lexFrom input literal offset text generalizing tokens with
  | case1 => exact ⟨[], .nil⟩
  | case2 => exact ⟨[.bareDollar], .bareDollar (by simp) (by simp) .nil⟩
  | case3 literal offset rest ih =>
    obtain ⟨tokens, lexed⟩ := went lexed
    obtain ⟨fragments, template⟩ := ih lexed
    exact ⟨_, template.escape⟩
  | case4 => cases lexed
  | case5 => cases lexed
  | case6 literal offset rest inner after found token parsed ih =>
    obtain ⟨tokens, lexed⟩ := went lexed
    obtain ⟨fragments, template⟩ := ih lexed
    obtain ⟨split, free⟩ := findBrace_eq_some.mp found
    obtain ⟨name, modifier, loose, source, -⟩ := parseExpansion_ok parsed
    rw [split, source, List.append_assoc]
    refine ⟨_, .expansion loose (fun by_ chosen member => free ?_) template⟩
    cases chosen
    rw [source]
    exact List.mem_append_right _ (by_.valueText_suffix.subset member)
  | case7 literal offset c rest notLast notEscape notBrace ih =>
    obtain ⟨fragments, template⟩ := ih lexed
    by_cases dollar : c = '$'
    · subst dollar
      refine ⟨_, .bareDollar (fun brace => ?_) (fun again => ?_) template⟩
      · obtain ⟨tail, split⟩ := List.head?_eq_some_iff.mp brace
        exact notBrace tail rfl split
      · obtain ⟨tail, split⟩ := List.head?_eq_some_iff.mp again
        exact notEscape tail rfl split
    · have run : '$' ∉ [c] := fun member => dollar (List.mem_singleton.mp member).symm
      exact ⟨_, .literal (List.cons_ne_nil c []) run template⟩

/-- The short ways of `expand` are no different. -/
theorem expand_eq {input : String} {env : EnvMap} {tokens : List Token} (lexed : lex input = .ok tokens) :
    expand input env = expandTokens input env "" tokens := by
  unfold expand
  rw [lexed]
  cases tokens with
  | nil => rfl
  | cons token rest =>
    cases rest with
    | cons next later => cases token <;> rfl
    | nil =>
      cases token with
      | literal text =>
        show Except.ok text = Except.ok ("" ++ text)
        rw [String.empty_append]
      | _ => rfl

/-- A template, also one with names that begin with a digit, gives what its fragments mean. -/
theorem expand_template {input : String} {fragments : List Fragment}
    (template : Template LooseName input.toList fragments) (env : EnvMap) :
    outcome (expand input env) = some (meaning env fragments) := by
  have ⟨tokens, lexed, gives⟩ : ∃ tokens, lexFrom input [] 0 _ = .ok tokens ∧
      ∀ out, outcome (expandTokens input env out tokens) = _ := lexFrom_template template [] 0
  rw [expand_eq lexed, gives]
  cases meaning env fragments <;> simp [Except.map]

/-- Only what is no template fails to be lexed. -/
theorem unterminated_iff {input : String} {env : EnvMap} : (∃ pos, expand input env = .error (.unterminated input pos)) ↔
    ¬ ∃ fragments, Template LooseName input.toList fragments := by
  constructor
  · rintro ⟨pos, failed⟩ ⟨fragments, template⟩
    have given := expand_template template env
    rw [failed] at given
    cases given
  · intro outside
    cases lexed : lex input with
    | ok tokens => exact absurd (template_of_lexFrom lexed) outside
    | error reason => exact ⟨reason.1, by rw [expand, lexed]⟩

/-- Every `$` doubled. -/
def doubled (input : String) : String :=
  String.ofList (input.toList.flatMap fun c => if c = '$' then ['$', '$'] else [c])

theorem doubled_template (text : List Char) (env : EnvMap) : ∃ fragments,
    Template LooseName (text.flatMap fun c => if c = '$' then ['$', '$'] else [c]) fragments ∧
      meaning env fragments = .ok (String.ofList text) := by
  induction text with
  | nil => exact ⟨[], .nil, rfl⟩
  | cons c rest ih =>
    obtain ⟨fragments, template, means⟩ := ih
    rw [List.flatMap_cons]
    by_cases dollar : c = '$'
    · rw [if_pos dollar, dollar]
      refine ⟨_, template.escape, ?_⟩
      rw [meaning_cons, means, ← List.singleton_append, String.ofList_append]
      rfl
    · rw [if_neg dollar]
      refine ⟨_, .literal (List.cons_ne_nil c []) (fun member => dollar (List.mem_singleton.mp member).symm) template, ?_⟩
      have joined : String.ofList [c] ++ String.ofList rest = String.ofList (c :: rest) :=
        String.ofList_append.symm
      rw [meaning_cons, means, ← joined]
      rfl

theorem eq_of_outcome {result : Except InterpError String} {text : String} (gives : outcome result = some (.ok text)) :
    result = .ok text := by
  cases result with
  | ok other => cases gives; rfl
  | error reason => cases reason <;> cases gives

theorem expand_doubled (input : String) (env : EnvMap) : expand (doubled input) env = .ok input := by
  obtain ⟨fragments, template, means⟩ := doubled_template input.toList env
  rw [← String.toList_ofList (l := input.toList.flatMap _)] at template
  have gives := expand_template template env
  rw [means, String.ofList_toList] at gives
  exact eq_of_outcome gives

/-- Doubling comes back, templates give what they mean, and where no name begins with a digit,
what is not lexed is what is no template. -/
theorem expansion_exact (input : String) (env : EnvMap) : expand (doubled input) env = .ok input ∧
    (∀ fragments, Template Name input.toList fragments →
      outcome (expand input env) = some (meaning env fragments)) ∧
    (¬ NamedFromDigit input →
      ((∃ pos, expand input env = .error (.unterminated input pos)) ↔ ¬ InGrammar input)) := by
  refine ⟨expand_doubled input env, fun fragments template => ?_, fun named => ?_⟩
  · exact expand_template (template.mono fun _ _ _ => Name.loose) env
  · rw [unterminated_iff]
    refine not_congr ⟨fun ⟨fragments, template⟩ => ?_, InGrammar.loose⟩
    refine ⟨fragments, template.mono fun name modifier member _ => ?_⟩
    by_contra digit
    exact named ⟨fragments, template, name, modifier, member, digit⟩

theorem open_brace_rejected : (∃ pos, expand "$\x7b" ∅ = .error (.unterminated "$\x7b" pos)) ∧ ¬ InGrammar "$\x7b" := by
  have failed : expand "$\x7b" ∅ = .error (.unterminated "$\x7b" 0) := by
    simp [expand, lex, lexFrom, findBrace]
  have outside := unterminated_iff.mp ⟨0, failed⟩
  have named : ¬ NamedFromDigit "$\x7b" := by
    rintro ⟨fragments, template, _⟩
    exact outside ⟨fragments, template⟩
  exact ⟨⟨0, failed⟩, ((expansion_exact "$\x7b" ∅).2.2 named).mp ⟨0, failed⟩⟩

theorem name_upper : Name ['V'] := ⟨⟨'V', rfl, .inl (by decide)⟩, fun _ member => by
  rw [List.mem_singleton.mp member]
  exact .inl (by decide)⟩

theorem variable_template : Template Name "$\x7bV\x7d".toList [.expansion ['V'] none] := by
  have made : Template Name ('$' :: '{' :: (['V'] ++ ((none : Option Modifier).elim [] Modifier.source ++ ['}'])))
      [.expansion ['V'] none] := .expansion name_upper (fun _ chosen => by cases chosen) .nil
  exact made

/-- The default ends at the first closing brace. -/
theorem default_template : Template Name "$\x7bV:-$\x7bB\x7d\x7d".toList
    [.expansion ['V'] (some (.colonDefault "$\x7bB".toList)), .literal ['}']] := by
  have rest : Template Name (['}'] ++ []) [.literal ['}']] := .literal (List.cons_ne_nil _ _) (by decide) .nil
  have made : Template Name ('$' :: '{' :: (['V'] ++
      ((some (Modifier.colonDefault "$\x7bB".toList)).elim [] Modifier.source ++ '}' :: (['}'] ++ []))))
      [.expansion ['V'] (some (.colonDefault "$\x7bB".toList)), .literal ['}']] :=
    .expansion name_upper (fun _ chosen => by cases chosen; decide) rest
  exact made

/-- An alternative is not lexed, a default is not expanded, and a variable that is not there is
an error although the grammar has it. -/
theorem no_alternative_no_recursion :
    (∃ pos, expand "$\x7bV:+a\x7d" (AList.singleton "V" "x") = .error (.unterminated "$\x7bV:+a\x7d" pos)) ∧
    expand "$\x7bV:-$\x7bB\x7d\x7d" (AList.singleton "B" "b") = .ok "$\x7bB\x7d" ∧
    InGrammar "$\x7bV\x7d" ∧ outcome (expand "$\x7bV\x7d" ∅) = some (.error (.undefined "V")) := by
  refine ⟨⟨0, ?_⟩, eq_of_outcome ?_, ⟨_, variable_template⟩, ?_⟩
  · simp [expand, lex, lexFrom, findBrace, parseExpansion, isNameChar]
  · rw [expand_template (default_template.mono fun _ _ _ => Name.loose)]
    decide
  · rw [expand_template (variable_template.mono fun _ _ _ => Name.loose)]
    decide

end Burble.SelurCompose
