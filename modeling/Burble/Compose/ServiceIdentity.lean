import Burble.Bytes
import Burble.Compose.ParsedSchema
import Burble.Compose.ReadingOrder
import Burble.Compose.WrittenToml

namespace Burble

/-- A value in which no object repeats a key. -/
def Json.Unique (json : Json) : Prop := json.Reordered json

section Reordered

theorem reordered_of_eq {found found' : Option Json} (same : found = found') (toml : ∀ value ∈ found, value.IsToml) :
    Option.Rel Json.Reordered found found' := by
  cases same
  cases found with
  | none => exact .none
  | some value => exact .some (toml value rfl).reordered

theorem reordered_of_related {Item : Type} {related : Item → Item → Prop} {toJson : Item → Json} {item other : Option Item}
    (same : Option.Rel related item other)
    (each : ∀ item other, related item other → (toJson item).Reordered (toJson other)) :
    Option.Rel Json.Reordered (item.map toJson) (other.map toJson) := by
  cases same with
  | none => exact .none
  | some alike => exact .some (each _ _ alike)

end Reordered

namespace SelurCompose

/-! What is written of a service, where the order of keys is forgotten. -/

section Shapes

theorem Fields.reordered {fields others : Fields} (distinct : (fields.map Prod.fst).Nodup)
    (keys : fields.map Prod.fst = others.map Prod.fst)
    (each : List.Forall₂ (Option.Rel Json.Reordered) (fields.map Prod.snd) (others.map Prod.snd)) :
    fields.toJson.Reordered others.toJson := by
  have written : fields.entries.map Prod.fst = others.entries.map Prod.fst ∧
      List.Forall₂ Json.Reordered (fields.entries.map Prod.snd) (others.entries.map Prod.snd) := by
    clear distinct
    induction fields generalizing others with
    | nil =>
      cases others with
      | nil => exact ⟨rfl, .nil⟩
      | cons => cases keys
    | cons field rest ih =>
      cases others with
      | nil => cases keys
      | cons other later =>
        obtain ⟨name, value⟩ := field
        obtain ⟨name', value'⟩ := other
        rw [List.map_cons, List.map_cons, List.cons.injEq] at keys
        rw [List.map_cons, List.map_cons, List.forall₂_cons] at each
        obtain ⟨names, values⟩ := ih keys.2 each.2
        cases (keys.1 : name = name')
        cases (each.1 : Option.Rel Json.Reordered value value') with
        | none => exact ⟨names, values⟩
        | some same => exact ⟨congrArg (name :: ·) names, .cons same values⟩
  exact .object (distinct.sublist fields.keys_entries) (.refl _) written.1 written.2

variable {Item : Type} {toJson : Item → Json}

theorem tableJson_reordered {entries others : FiniteMap String Item} (same : entries.Same others)
    (each : ∀ item, (toJson item).Unique) : (tableJson toJson entries).Reordered (tableJson toJson others) := by
  have moves : (entries.toList.map fun entry => (entry.1, toJson entry.2)).Perm
      (others.toList.map fun entry => (entry.1, toJson entry.2)) := (same.map _).map _
  have distinct : ((entries.toList.map fun entry => (entry.1, toJson entry.2)).map Prod.fst).Nodup := by
    rw [List.map_map]
    exact FiniteMap.distinct_keys entries
  refine .object distinct moves rfl (List.forall₂_same.mpr fun value member => ?_)
  rw [List.map_map] at member
  obtain ⟨entry, _, rfl⟩ := List.mem_map.mp member
  exact each entry.2

theorem mapJson_reordered {entries others : FiniteMap String Item} (same : entries.Same others)
    (each : ∀ item, (toJson item).Unique) :
    Option.Rel Json.Reordered (mapJson toJson entries) (mapJson toJson others) := by
  have size : entries.size = others.size := (same.map Sigma.fst).length_eq
  unfold mapJson
  rw [size]
  split
  · exact .none
  · exact .some (tableJson_reordered same each)

end Shapes

section Services

theorem Build.reordered {build other : Build} (same : build.Same other) : build.toJson.Reordered other.toJson := by
  have names : ["context", "dockerfile", "args", "target", "labels", "no_cache"].Nodup := by decide
  refine Fields.reordered names rfl ?_
  simp only [Build.fields, List.map_cons, List.map_nil, List.forall₂_cons]
  exact ⟨reordered_of_eq (congrArg (fun text => some (Json.string text)) same.context) (some_isToml (.string _)),
    reordered_of_eq (congrArg (Option.map Json.string) same.dockerfile) (map_isToml .string _),
    mapJson_reordered same.args .string,
    reordered_of_eq (congrArg (Option.map Json.string) same.target) (map_isToml .string _),
    mapJson_reordered same.labels .string,
    reordered_of_eq (congrArg flag same.noCache) (flag_isToml _), .nil⟩

/-- A variable without a value is written as `null`. -/
theorem ServiceEnv.toJson_map (entries : FiniteMap String (Option String)) :
    (ServiceEnv.map entries).toJson (some .null) = some (tableJson (fun value => value.elim .null .string) entries) := by
  refine congrArg (some ∘ Json.object) ?_
  rw [← List.filterMap_eq_map]
  refine List.filterMap_congr fun entry _ => ?_
  obtain ⟨key, value⟩ := entry
  cases value <;> rfl

theorem ServiceEnv.reordered {environment other : ServiceEnv} (same : environment.Same other) :
    Option.Rel Json.Reordered (environment.toJson (some .null)) (other.toJson (some .null)) := by
  cases environment with
  | empty =>
    cases (same : ServiceEnv.empty = other)
    exact .none
  | list items =>
    cases (same : ServiceEnv.list items = other)
    exact .some (strings_isToml items).reordered
  | map entries =>
    cases other with
    | map others =>
      rw [ServiceEnv.toJson_map, ServiceEnv.toJson_map]
      refine .some (tableJson_reordered same fun value => ?_)
      cases value with
      | none => exact .null
      | some text => exact .string text
    | _ => cases same

theorem DependsOn.reordered {dependsOn other : DependsOn} (same : dependsOn.Same other) :
    Option.Rel Json.Reordered dependsOn.toJson other.toJson := by
  cases dependsOn with
  | empty =>
    cases (same : DependsOn.empty = other)
    exact .none
  | list names =>
    cases (same : DependsOn.list names = other)
    exact .some (strings_isToml names).reordered
  | map entries =>
    cases other with
    | map others => exact .some (tableJson_reordered same fun spec => spec.isToml.reordered)
    | _ => cases same

/-- Services that are the same are written the same, up to the order of keys. -/
theorem Service.reordered (formatDuration : Nanoseconds → String) {service other : Service} (same : service.Same other) :
    (service.toJson formatDuration (some .null)).Reordered (other.toJson formatDuration (some .null)) := by
  have names : Service.fieldNames.Nodup := by decide
  have build := reordered_of_related same.build fun _ _ alike => Build.reordered alike
  refine Fields.reordered names rfl ?_
  simp only [Service.fields, List.map_cons, List.map_nil, List.forall₂_cons]
  exact ⟨reordered_of_eq (congrArg (Option.map Json.string) same.image) (map_isToml .string _),
    build,
    reordered_of_eq (congrArg (Option.map StringOrList.toJson) same.command) (map_isToml StringOrList.isToml _),
    reordered_of_eq (congrArg (Option.map StringOrList.toJson) same.entrypoint) (map_isToml StringOrList.isToml _),
    ServiceEnv.reordered same.environment,
    reordered_of_eq (congrArg (listJson Json.string) same.envFile) (listJson_isToml .string _),
    reordered_of_eq (congrArg (listJson PortBinding.toJson) same.ports) (listJson_isToml PortBinding.isToml _),
    reordered_of_eq (congrArg (listJson MountSpec.toJson) same.volumes) (listJson_isToml MountSpec.isToml _),
    reordered_of_eq (congrArg (listJson Json.string) same.networks) (listJson_isToml .string _),
    reordered_of_eq (congrArg (Option.map NetworkMode.toJson) same.networkMode) (map_isToml (fun _ => .string _) _),
    DependsOn.reordered same.dependsOn,
    reordered_of_eq (congrArg (Option.map (Healthcheck.toJson formatDuration)) same.healthcheck) (map_isToml (Healthcheck.isToml formatDuration) _),
    reordered_of_eq (congrArg (fun restart => some (Json.string restart.text)) same.restart) (some_isToml (.string _)),
    reordered_of_eq (congrArg (listJson Json.string) same.profiles) (listJson_isToml .string _),
    reordered_of_eq (congrArg (listJson SecretRef.toJson) same.secrets) (listJson_isToml SecretRef.isToml _),
    reordered_of_eq (congrArg (listJson SecretRef.toJson) same.configs) (listJson_isToml SecretRef.isToml _),
    reordered_of_eq (congrArg (Option.map Json.string) same.user) (map_isToml .string _),
    reordered_of_eq (congrArg (Option.map Json.string) same.workingDir) (map_isToml .string _),
    reordered_of_eq (congrArg (Option.map Json.string) same.hostname) (map_isToml .string _),
    reordered_of_eq (congrArg (listJson Json.string) same.capAdd) (listJson_isToml .string _),
    reordered_of_eq (congrArg (listJson Json.string) same.capDrop) (listJson_isToml .string _),
    reordered_of_eq (congrArg (Option.map Json.bool) same.init) (map_isToml .bool _),
    reordered_of_eq (congrArg (Option.map Json.string) same.stopSignal) (map_isToml .string _),
    reordered_of_eq (congrArg (Option.map (durationJson formatDuration)) same.stopGracePeriod) (map_isToml (fun _ => .string _) _),
    .nil⟩

end Services

/-! The hash of a service. -/

theorem Service.same_refl (service : Service) : service.Same service := by
  have build : Option.Rel Build.Same service.build service.build := by
    cases service.build with
    | none => exact .none
    | some build => exact .some ⟨rfl, rfl, .refl _, rfl, .refl _, rfl⟩
  have environment : service.environment.Same service.environment := by
    cases service.environment with
    | map entries => exact List.Perm.refl _
    | _ => rfl
  have dependsOn : service.dependsOn.Same service.dependsOn := by
    cases service.dependsOn with
    | map entries => exact List.Perm.refl _
    | _ => rfl
  constructor
  all_goals first | rfl | assumption

section Hash
variable {parseDuration : String → Except String Nanoseconds} {formatDuration : Nanoseconds → String}
  {toJcs : Json → Except String (List UInt8)} {sha256 : List UInt8 → List UInt8}

/-- What a hash relies on: durations are parsed as they are printed, canonical bytes are those of a value up to the
order of its keys, and no two canonical texts have one digest. -/
structure Injective (parseDuration : String → Except String Nanoseconds) (formatDuration : Nanoseconds → String)
    (toJcs : Json → Except String (List UInt8)) (sha256 : List UInt8 → List UInt8) : Prop where
  round : ∀ duration, parseDuration (formatDuration duration) = .ok duration
  ordered : ∀ {json other : Json}, json.Reordered other → toJcs json = toJcs other
  canonical : ∀ {json other : Json} {bytes : List UInt8}, json.Unique → other.Unique → toJcs json = .ok bytes →
    toJcs other = .ok bytes → json.Reordered other
  digest : ∀ {json other : Json} {bytes bytes' : List UInt8}, toJcs json = .ok bytes → toJcs other = .ok bytes' →
    sha256 bytes = sha256 bytes' → bytes = bytes'

theorem serviceHash_same (injective : Injective parseDuration formatDuration toJcs sha256) {service other : Service}
    (same : service.Same other) :
    serviceHash formatDuration toJcs sha256 service = serviceHash formatDuration toJcs sha256 other := by
  rw [serviceHash, serviceHash, injective.ordered (Service.reordered formatDuration same)]

/-- Services of one hash that are written alike are read alike. -/
theorem same_of_serviceHash (injective : Injective parseDuration formatDuration toJcs sha256) {json json' : Json}
    {service other : Service} (read : Service.ofJson parseDuration json = .ok service)
    (read' : Service.ofJson parseDuration json' = .ok other) {hash : String}
    (hashed : serviceHash formatDuration toJcs sha256 service = .ok hash)
    (hashed' : serviceHash formatDuration toJcs sha256 other = .ok hash) : service.Same other := by
  obtain ⟨bytes, canonical, digest⟩ := Fallible.bind_ok.mp hashed
  obtain ⟨bytes', canonical', digest'⟩ := Fallible.bind_ok.mp hashed'
  have digests : sha256 bytes = sha256 bytes' :=
    Base16.encode16_injective ((Except.ok.inj digest).trans (Except.ok.inj digest').symm)
  cases injective.digest canonical canonical' digests
  have written := injective.canonical (Service.reordered formatDuration service.same_refl)
    (Service.reordered formatDuration other.same_refl) canonical canonical'
  have again := Service.ofJson_toJson injective.round (Service.ofJson_total read) (some .null)
  have again' := Service.ofJson_toJson injective.round (Service.ofJson_total read') (some .null)
  rw [Service.ofJson_reread read] at again
  rw [Service.ofJson_reread read'] at again'
  obtain ⟨found, made, same⟩ := Service.ignoresOrder parseDuration written _ again
  rw [again'] at made
  cases made
  exact same

end Hash

section Sample

def stringAt (key : String) (entries : List (String × Json)) : Option String :=
  match entries.lookup key with
  | some (.string text) => some text
  | _ => none

/-- Canonical bytes of one service, in whichever order its keys are. -/
def appJcs : Json → Except String (List UInt8)
  | .object entries =>
    if entries.length = 2 ∧ stringAt "image" entries = some "app" ∧ stringAt "restart" entries = some "no" then
      .ok (utf8 "\x7b\"image\":\"app\",\"restart\":\"no\"\x7d")
    else .error "another service"
  | _ => .error "another service"

def appSha256 (_ : List UInt8) : List UInt8 :=
  (Base16.decode16 "bb29f70bf4bcf1e731ecd43ca9d000cb80c5ed81b2489df53b6c1d2acf8a562e").getD []

def appEntries : List (String × Json) := [("image", .string "app"), ("restart", .string "no")]

theorem stringAt_reordered {entries others : List (String × Json)} (same : (Json.object entries).Reordered (.object others))
    (key : String) : stringAt key entries = stringAt key others := by
  have alike := same.lookup key
  rw [stringAt, stringAt]
  generalize entries.lookup key = found, others.lookup key = found' at alike
  cases alike with
  | none => rfl
  | some alike => cases alike <;> rfl

theorem mem_of_stringAt {entries : List (String × Json)} {key text : String} (found : stringAt key entries = some text) :
    (key, .string text) ∈ entries := by
  unfold stringAt at found
  split at found
  next listed => exact Option.some.inj found ▸ mem_of_lookup listed
  next => cases found

theorem appJcs_ok {json : Json} {bytes : List UInt8} (done : appJcs json = .ok bytes) :
    (∃ entries, json = .object entries ∧ entries.Perm appEntries) ∧
      utf8 "\x7b\"image\":\"app\",\"restart\":\"no\"\x7d" = bytes := by
  cases json with
  | object entries =>
    simp only [appJcs] at done
    split at done
    next fits =>
      have subset : appEntries ⊆ entries := by
        simp only [appEntries, List.cons_subset, List.nil_subset, and_true]
        exact ⟨mem_of_stringAt fits.2.1, mem_of_stringAt fits.2.2⟩
      have distinct : appEntries.Nodup := List.Nodup.of_map Prod.fst (by decide)
      have moves := (List.subperm_of_subset distinct subset).perm_of_length_le fits.1.le
      exact ⟨⟨entries, rfl, moves.symm⟩, Except.ok.inj done⟩
    next => cases done
  | _ => cases done

theorem appJcs_injective : Injective parseNanoseconds printNanoseconds appJcs appSha256 where
  round := parseNanoseconds_print
  ordered same := by
    cases same with
    | object distinct moves keys each =>
      have same := Json.Reordered.object distinct moves keys each
      have length := same.keys_perm.length_eq
      rw [List.length_map, List.length_map] at length
      rw [appJcs, appJcs, length, stringAt_reordered same, stringAt_reordered same]
    | _ => rfl
  canonical unique unique' done done' := by
    obtain ⟨⟨entries, rfl, moves⟩, _⟩ := appJcs_ok done
    obtain ⟨⟨others, rfl, moves'⟩, _⟩ := appJcs_ok done'
    cases unique' with
    | object distinct' moves'' keys each =>
      exact .object ((moves.map Prod.fst).nodup_iff.mpr (by decide)) (moves.trans (moves'.symm.trans moves'')) keys each
  digest done done' _ := (appJcs_ok done).2.symm.trans (appJcs_ok done').2

end Sample

end SelurCompose

end Burble
