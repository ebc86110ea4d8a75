import Burble.Compose.EveryString
import Burble.Compose.ExactExpansion

namespace Burble.SelurCompose

/-- No `$` is before another `$` or an opening brace. -/
def isInert : List Char → Bool
  | '$' :: '$' :: _ => false
  | '$' :: '{' :: _ => false
  | _ :: rest => isInert rest
  | [] => true

theorem isInert_other {c : Char} {rest : List Char} (other : c ≠ '$') : isInert (c :: rest) = isInert rest := by
  rw [isInert] <;> simp [other]

theorem isInert_dollar {rest : List Char} : isInert ('$' :: rest) = true ↔
    rest.head? ≠ some '$' ∧ rest.head? ≠ some '{' ∧ isInert rest = true := by
  cases rest with
  | nil => simp [isInert]
  | cons c tail =>
    by_cases again : c = '$'
    · subst again
      simp [isInert]
    · by_cases brace : c = '{'
      · subst brace
        simp [isInert]
      · rw [isInert]
        · simp [again, brace]
        all_goals simp [again, brace]

theorem isInert_run {run rest : List Char} (plain : '$' ∉ run) : isInert (run ++ rest) = isInert rest := by
  induction run with
  | nil => rfl
  | cons c tail ih =>
    rw [List.cons_append, isInert_other fun same => plain (same ▸ List.mem_cons_self),
      ih fun member => plain (List.mem_cons_of_mem _ member)]

theorem lexFrom_inert {input : String} {text : List Char} (inert : isInert text = true) (literal : List Char)
    (offset : Nat) : lexFrom input literal offset text = .ok (flushLiteral (literal ++ text) []) := by
  induction text generalizing literal offset with
  | nil => rw [lexFrom_nil, List.append_nil]
  | cons c rest ih =>
    by_cases dollar : c = '$'
    · subst dollar
      obtain ⟨notAgain, notBrace, later⟩ := isInert_dollar.mp inert
      rw [lexFrom_bareDollar notBrace notAgain, ih later, List.append_assoc, List.singleton_append]
    · rw [isInert_other dollar] at inert
      rw [lexFrom_other dollar, ih inert, List.append_assoc, List.singleton_append]

theorem expand_of_inert {text : String} (inert : isInert text.toList = true) (env : EnvMap) :
    expand text env = .ok text := by
  have lexed : lex text = .ok (flushLiteral text.toList []) := by
    rw [lex, lexFrom_inert inert, List.nil_append]
  rw [expand_eq lexed, flushLiteral]
  split
  next empty =>
    have same : text = "" := String.toList_inj.mp empty
    rw [same]
    rfl
  next =>
    rw [String.ofList_toList]
    change Except.ok ("" ++ text) = _
    rw [String.empty_append]

/-- Where no variable is set, an expansion is no longer than its text, and as long only when the text is inert. -/
theorem meaning_shortens {text : List Char} {fragments : List Fragment} (template : Template LooseName text fragments)
    {out : String} (means : meaning ∅ fragments = .ok out) :
    out.toList.length ≤ text.length ∧ (text.length ≤ out.toList.length → isInert text = true) := by
  induction template generalizing out with
  | nil =>
    cases means
    exact ⟨Nat.le_refl _, fun _ => rfl⟩
  | @literal run rest fragments _ plain _ ih =>
    obtain ⟨head, first, means⟩ := Fallible.bind_ok.mp means
    obtain ⟨more, later, same⟩ := Fallible.bind_ok.mp means
    cases first
    cases same
    obtain ⟨bound, inert⟩ := ih later
    rw [String.toList_append, String.toList_ofList, List.length_append, List.length_append, isInert_run plain]
    exact ⟨Nat.add_le_add_left bound _, fun same => inert (Nat.le_of_add_le_add_left same)⟩
  | @escape rest fragments _ ih =>
    obtain ⟨head, first, means⟩ := Fallible.bind_ok.mp means
    obtain ⟨more, later, same⟩ := Fallible.bind_ok.mp means
    cases first
    cases same
    obtain ⟨bound, _⟩ := ih later
    rw [String.toList_append, List.length_append]
    change 1 + more.toList.length ≤ rest.length + 2 ∧ (rest.length + 2 ≤ 1 + more.toList.length → _)
    exact ⟨by omega, fun same => by omega⟩
  | @bareDollar rest fragments notBrace notDollar _ ih =>
    obtain ⟨head, first, means⟩ := Fallible.bind_ok.mp means
    obtain ⟨more, later, same⟩ := Fallible.bind_ok.mp means
    cases first
    cases same
    obtain ⟨bound, inert⟩ := ih later
    rw [String.toList_append, List.length_append, isInert_dollar]
    change 1 + more.toList.length ≤ rest.length + 1 ∧ (rest.length + 1 ≤ 1 + more.toList.length → _)
    exact ⟨by omega, fun same => ⟨notDollar, notBrace, inert (by omega)⟩⟩
  | @expansion name modifier rest fragments _ _ _ ih =>
    obtain ⟨head, first, means⟩ := Fallible.bind_ok.mp means
    obtain ⟨more, later, same⟩ := Fallible.bind_ok.mp means
    cases same
    obtain ⟨bound, _⟩ := ih later
    have shorter : head.toList.length ≤ (modifier.elim [] Modifier.source).length := by
      cases modifier with
      | none => cases first
      | some modifier =>
        cases modifier with
        | colonDefault text =>
          cases first
          change (String.ofList text).toList.length ≤ (':' :: '-' :: text).length
          rw [String.toList_ofList, List.length_cons, List.length_cons]
          omega
        | plainDefault text =>
          cases first
          change (String.ofList text).toList.length ≤ ('-' :: text).length
          rw [String.toList_ofList, List.length_cons]
          omega
        | colonRequired text | plainRequired text => cases first
    rw [String.toList_append, List.length_append]
    simp only [List.length_cons, List.length_append]
    exact ⟨by omega, fun same => by omega⟩

/-- The texts that are their own expansion where no variable is set are those that always are. -/
theorem expand_self_iff {text : String} : expand text ∅ = .ok text ↔ isInert text.toList = true := by
  constructor
  · intro same
    obtain ⟨tokens, lexed⟩ : ∃ tokens, lex text = .ok tokens := by
      cases lexed : lex text with
      | error reason =>
        rw [expand, lexed] at same
        cases same
      | ok tokens => exact ⟨tokens, rfl⟩
    obtain ⟨fragments, template⟩ := template_of_lexFrom lexed
    have means := expand_template template ∅
    rw [same] at means
    exact (meaning_shortens template (Option.some.inj means).symm).2 (Nat.le_refl _)
  · exact fun inert => expand_of_inert inert ∅

section Fixed
variable {f : String → String}

theorem mapValues_eq_self {Item : Type} {change : Item → Item} {entries : FiniteMap String Item} :
    entries.mapValues change = entries ↔ ∀ entry ∈ entries.toList, change entry.2 = entry.2 := by
  have same : entries.mapValues id = entries := AList.ext (List.map_id _)
  nth_rewrite 2 [← same]
  exact FiniteMap.mapValues_eq_iff

theorem StringOrList.mapStrings_eq_self {value : StringOrList} :
    value.mapStrings f = value ↔ ∀ text ∈ value.strings, f text = text := by
  cases value <;> simp [StringOrList.mapStrings, StringOrList.strings, map_eq_self]

theorem ServiceEnv.mapStrings_eq_self {environment : ServiceEnv} :
    environment.mapStrings f = environment ↔ ∀ text ∈ environment.values, f text = text := by
  cases environment with
  | map entries =>
    simp only [ServiceEnv.mapStrings, ServiceEnv.values, ServiceEnv.map.injEq, mapValues_eq_self, optionMap_eq_self,
      List.forall_mem_flatMap]
  | _ => simp [ServiceEnv.mapStrings, ServiceEnv.values, map_eq_self]

theorem Build.mapStrings_eq_self {build : Build} :
    build.mapStrings f = build ↔ ∀ text ∈ build.strings, f text = text := by
  obtain ⟨context, dockerfile, args, target, labels, noCache⟩ := build
  simp only [Build.mapStrings, Build.strings, Build.mk.injEq, mapTexts_eq_self, optionMap_eq_self,
    List.forall_mem_append, true_and, and_true, and_assoc]

theorem MountSpec.mapVisited_eq_self {mount : MountSpec} :
    mount.mapVisited f = mount ↔ ∀ text ∈ mount.visited, f text = text := by
  cases mount <;> simp [MountSpec.mapVisited, MountSpec.visited]

theorem NetworkMode.mapStrings_eq_self {mode : NetworkMode} :
    mode.mapStrings f = mode ↔ ∀ text ∈ mode.strings, f text = text := by
  cases mode <;> simp [NetworkMode.mapStrings, NetworkMode.strings]

theorem Healthcheck.mapStrings_eq_self {check : Healthcheck} :
    check.mapStrings f = check ↔ ∀ text ∈ check.test.strings, f text = text := by
  obtain ⟨test, interval, timeout, retries, startPeriod, disable⟩ := check
  cases test <;> simp [Healthcheck.mapStrings, HealthcheckTest.mapStrings, HealthcheckTest.strings, map_eq_self]

theorem SecretRef.mapStrings_eq_self {ref : SecretRef} : ref.mapStrings f = ref ↔ ∀ text ∈ ref.strings, f text = text := by
  cases ref with
  | name secret => simp [SecretRef.mapStrings, SecretRef.strings]
  | long ref =>
    obtain ⟨source, target, uid, gid, mode⟩ := ref
    simp only [SecretRef.mapStrings, SecretRef.strings, SecretRef.long.injEq, SecretRefLong.mk.injEq, optionMap_eq_self,
      List.forall_mem_cons, List.forall_mem_append, true_and, and_true]

theorem Service.mapVisited_eq_self {service : Service} :
    service.mapVisited f = service ↔ ∀ text ∈ service.visited, f text = text := by
  cases service
  simp only [Service.mapVisited, Service.mapStrings, Service.mk.injEq, Service.visited, optionMap_eq_self, map_eq_self,
    Build.mapStrings_eq_self, StringOrList.mapStrings_eq_self, ServiceEnv.mapStrings_eq_self,
    MountSpec.mapVisited_eq_self, NetworkMode.mapStrings_eq_self, Healthcheck.mapStrings_eq_self,
    SecretRef.mapStrings_eq_self, List.forall_mem_append, List.forall_mem_flatMap, true_and, and_true, and_assoc]

theorem Network.mapVisited_eq_self {network : Network} :
    network.mapVisited f = network ↔ ∀ text ∈ network.visited, f text = text := by
  obtain ⟨driver, driverOpts, external, name, ipam, labels, internal⟩ := network
  simp only [Network.mapVisited, Network.mapStrings, Network.mk.injEq, Network.visited, optionMap_eq_self,
    mapTexts_eq_self, List.forall_mem_append, true_and, and_true, and_assoc]

theorem Volume.mapStrings_eq_self {volume : Volume} :
    volume.mapStrings f = volume ↔ ∀ text ∈ volume.strings, f text = text := by
  obtain ⟨driver, driverOpts, external, name, labels⟩ := volume
  simp only [Volume.mapStrings, Volume.mk.injEq, Volume.strings, optionMap_eq_self, mapTexts_eq_self,
    List.forall_mem_append, true_and, and_assoc]

theorem Secret.mapStrings_eq_self {secret : Secret} :
    secret.mapStrings f = secret ↔ ∀ text ∈ secret.name.toList, f text = text := by
  obtain ⟨file, external, name⟩ := secret
  simp only [Secret.mapStrings, Secret.mk.injEq, optionMap_eq_self, true_and]

theorem Compose.mapVisited_eq_self {compose : Compose} :
    compose.mapVisited f = compose ↔ ∀ text ∈ compose.visited, f text = text := by
  obtain ⟨projectName, services, networks, volumes, secrets, configs, extensions⟩ := compose
  simp only [Compose.mapVisited, Compose.mapStrings, Compose.mk.injEq, Compose.visited, optionMap_eq_self,
    mapValues_eq_self, Service.mapVisited_eq_self, Network.mapVisited_eq_self, Volume.mapStrings_eq_self,
    Secret.mapStrings_eq_self, List.forall_mem_append, List.forall_mem_flatMap, and_true, and_assoc]

end Fixed

end Burble.SelurCompose
