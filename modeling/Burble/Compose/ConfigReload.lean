import Burble.Compose.Config
import Burble.Compose.DroppedSettings
import Burble.Compose.InertStrings
import Burble.Compose.MappedServices
import Burble.Compose.ParsedSchema

namespace Burble

theorem FiniteMap.mapValues_mapValues {Item Other Last : Type} (first : Item → Other) (second : Other → Last)
    (entries : FiniteMap String Item) : (entries.mapValues first).mapValues second = entries.mapValues (second ∘ first) :=
  AList.ext (List.map_map ..)

namespace SelurCompose

/-! What a parsed project is, and what interpolation keeps of it. -/

/-- A project as it comes from a compose file. -/
structure Compose.Parsed (compose : Compose) : Prop where
  total : ∀ entry ∈ compose.services.toList, entry.2.environment.Total
  extensions : ∀ entry ∈ compose.extensions.toList, entry.1 ∉ Compose.fieldNames
  imaged : ∀ entry ∈ compose.services.toList, entry.2.image.isSome ∨ entry.2.build.isSome

theorem validate_ok {compose : Compose} : validate compose = .ok () ↔
    ∀ entry ∈ compose.services.toList, entry.2.image.isSome ∨ entry.2.build.isSome := by
  simp only [Option.isSome_iff_ne_none]
  unfold validate
  split
  next entry found =>
    refine iff_of_false (fun done => nomatch done) fun all => ?_
    have bare : entry.2.image = none ∧ entry.2.build = none := by simpa using List.find?_some found
    exact (all entry (List.mem_of_find?_eq_some found)).elim (· bare.1) (· bare.2)
  next none =>
    refine iff_of_true rfl fun entry member => ?_
    have some : ¬(entry.2.image = Option.none ∧ entry.2.build = Option.none) := by
      simpa using List.find?_eq_none.mp none entry member
    exact not_and_or.mp some

section Interpolation
variable {compose : Compose} {f : String → String}

theorem toList_mapValues {Item Other : Type} (change : Item → Other) (entries : FiniteMap String Item) :
    (entries.mapValues change).toList = entries.toList.map fun entry => (entry.1, change entry.2) := by
  simp only [FiniteMap.toList, FiniteMap.mapValues, List.map_map, Function.comp_def]

theorem ServiceEnv.total_mapStrings {environment : ServiceEnv} (total : environment.Total) :
    (environment.mapStrings f).Total := by
  cases environment with
  | map entries =>
    intro entry member
    rw [toList_mapValues] at member
    obtain ⟨before, listed, rfl⟩ := List.mem_map.mp member
    simpa using total before listed
  | _ => trivial

theorem Compose.Parsed.mapVisited (parsed : compose.Parsed) : (compose.mapVisited f).Parsed := by
  constructor
  · intro entry member
    rw [Compose.mapVisited, toList_mapValues] at member
    obtain ⟨before, listed, rfl⟩ := List.mem_map.mp member
    exact ServiceEnv.total_mapStrings (parsed.total before listed)
  · exact parsed.extensions
  · intro entry member
    rw [Compose.mapVisited, toList_mapValues] at member
    obtain ⟨before, listed, rfl⟩ := List.mem_map.mp member
    simpa [Service.mapVisited, Service.mapStrings] using parsed.imaged before listed

end Interpolation

section Loading
variable {crates : Crates} {file : List UInt8} {env : EnvMap} {opts : PlanOptions} {loaded : Loaded} {text : String}

theorem mapError_ok {Reason Other Item : Type} {outcome : Except Reason Item} {wrap : Reason → Other} {item : Item} :
    outcome.mapError wrap = .ok item ↔ outcome = .ok item := by
  cases outcome with
  | error reason => exact iff_of_false (fun done => nomatch done) fun done => nomatch done
  | ok value => exact ⟨fun done => congrArg Except.ok (Except.ok.inj done), fun done => congrArg Except.ok (Except.ok.inj done)⟩

theorem parseStr_ok {compose : Compose} : parseStr crates text = .ok compose ↔
    ∃ json, crates.parseToml text = .ok json ∧ Compose.ofJson crates.parseDuration json = .ok compose ∧
      validate compose = .ok () := by
  simp only [parseStr, Fallible.bind_ok, mapError_ok]
  constructor
  · rintro ⟨json, read, _, made, _, valid, same⟩
    cases same
    exact ⟨json, read, made, valid⟩
  · rintro ⟨json, read, made, valid⟩
    exact ⟨json, read, compose, made, (), valid, rfl⟩

/-- The steps of a load. -/
theorem load_ok : load crates file env opts = .ok loaded ↔
    ∃ text compose, ofUtf8 (file.take readLimit) = some text ∧ parseStr crates text = .ok compose ∧
      visitCompose compose env = .ok loaded.compose ∧ plan crates.hash loaded.compose opts = .ok loaded.plan := by
  unfold load
  cases decoded : ofUtf8 (file.take readLimit) with
  | none => simp
  | some text =>
    simp only [Fallible.bind_ok, mapError_ok, interpolate]
    constructor
    · rintro ⟨compose, parsed, expanded, visited, planned, made, same⟩
      cases same
      exact ⟨text, compose, rfl, parsed, visited, made⟩
    · rintro ⟨_, compose, same, parsed, visited, made⟩
      cases same
      exact ⟨compose, parsed, _, visited, _, made, rfl⟩

theorem load_parsed (made : load crates file env opts = .ok loaded) : loaded.compose.Parsed := by
  obtain ⟨text, compose, _, parsed, visited, _⟩ := load_ok.mp made
  obtain ⟨json, _, read, valid⟩ := parseStr_ok.mp parsed
  obtain ⟨total, extensions⟩ := Compose.ofJson_parsed read
  rw [((visits_compose env compose _).mp visited).2]
  exact Compose.Parsed.mapVisited ⟨total, extensions, validate_ok.mp valid⟩

end Loading

/-! The project that is read back, and its strings. -/

def Compose.Inert (compose : Compose) : Prop := ∀ text ∈ compose.visited, isInert text.toList = true

section Modes

theorem NetworkMode.inert_reread {mode : NetworkMode} :
    (∀ text ∈ mode.reread.strings, isInert text.toList = true) ↔ ∀ text ∈ mode.strings, isInert text.toList = true := by
  have inside {id : String} : isInert (("container:" ++ id).toList) = isInert id.toList := by
    rw [String.toList_append]
    exact isInert_run (by decide)
  cases mode with
  | bridge | host | none => rfl
  | container id =>
    have back : (NetworkMode.container id).reread = .container id := by
      change NetworkMode.ofText ("container:" ++ id) = _
      have begins : "container:".toList <+: ("container:" ++ id).toList := by
        rw [String.toList_append]
        exact List.prefix_append _ _
      have other (text : String) (short : text.toList.length < 10) : "container:" ++ id ≠ text := by
        rintro rfl
        rw [String.toList_append, List.length_append] at short
        exact absurd short (Nat.not_lt.mpr (Nat.le_add_right 10 _))
      rw [NetworkMode.ofText, if_neg (other _ (by decide)), if_neg (other _ (by decide)), if_neg (other _ (by decide)),
        if_pos begins, String.toList_append]
      exact congrArg NetworkMode.container (String.toList_inj.mp (by rw [String.toList_ofList]; rfl))
    rw [back]
  | custom name =>
    change (∀ text ∈ (NetworkMode.ofText name).strings, _) ↔ _
    have same := NetworkMode.text_ofText name
    generalize NetworkMode.ofText name = mode at same
    subst same
    cases mode with
    | bridge | host | none => exact iff_of_true (fun _ member => nomatch member) (by decide)
    | container id =>
      rw [NetworkMode.strings, NetworkMode.strings, List.forall_mem_singleton, List.forall_mem_singleton]
      exact iff_of_eq (congrArg (· = true) inside.symm)
    | custom name => rfl

/-- A mode whose strings are replaced is read as itself only if they are replaced by themselves. -/
theorem NetworkMode.eq_of_reread {mode : NetworkMode} {f : String → String} (same : (mode.mapStrings f).reread = mode) :
    mode.mapStrings f = mode := by
  have text := NetworkMode.text_reread (mode.mapStrings f)
  rw [same] at text
  cases mode with
  | bridge | host | none => rfl
  | container id =>
    have both : ("container:" ++ id).toList = ("container:" ++ f id).toList := congrArg String.toList text
    rw [String.toList_append, String.toList_append] at both
    exact congrArg NetworkMode.container (String.toList_inj.mp (List.append_cancel_left both)).symm
  | custom name => exact congrArg NetworkMode.custom text.symm

end Modes

theorem Service.inert_reread {service : Service} :
    (∀ text ∈ service.reread.visited, isInert text.toList = true) ↔
      ∀ text ∈ service.visited, isInert text.toList = true := by
  have mode : (∀ text ∈ (service.networkMode.map NetworkMode.reread).toList.flatMap NetworkMode.strings,
      isInert text.toList = true) ↔
        ∀ text ∈ service.networkMode.toList.flatMap NetworkMode.strings, isInert text.toList = true := by
    cases service.networkMode with
    | none => rfl
    | some mode =>
      have one : (∀ text ∈ mode.reread.strings, isInert text.toList = true) ↔
          ∀ text ∈ mode.strings, isInert text.toList = true := NetworkMode.inert_reread
      simpa using one
  simp only [Service.visited, Service.reread, List.forall_mem_append, mode]

/-! The printed project read back. -/

/-- The extensions that are printed. -/
def Compose.keptExtensions (compose : Compose) : List (String × Json) :=
  compose.extensions.toList.filter fun entry => ¬ "x-".toList <+: entry.1.toList

/-- The project that is read from what is printed. -/
def Compose.reread (compose : Compose) : Compose :=
  { compose.mapServices Service.reread with extensions := FiniteMap.ofList compose.keptExtensions }

theorem Compose.inert_reread {compose : Compose} : compose.reread.Inert ↔ compose.Inert := by
  simp only [Compose.Inert, Compose.visited, Compose.reread, Compose.mapServices, toList_mapValues,
    List.forall_mem_append, List.forall_mem_flatMap, List.forall_mem_map, Service.inert_reread]

section Replaced
variable {f : String → String}

theorem Service.mapVisited_of_reread {service : Service} (same : (service.mapVisited f).reread = service) :
    service.mapVisited f = service := by
  have mode : (service.mapVisited f).networkMode = service.networkMode := by
    have modes : (service.networkMode.map (NetworkMode.mapStrings f)).map NetworkMode.reread = service.networkMode :=
      congrArg Service.networkMode same
    change service.networkMode.map (NetworkMode.mapStrings f) = service.networkMode
    rw [Option.map_map, optionMap_eq_self] at modes
    exact optionMap_eq_self.mpr fun mode member => NetworkMode.eq_of_reread (modes mode member)
  calc service.mapVisited f
      = { (service.mapVisited f).reread with networkMode := (service.mapVisited f).networkMode } := rfl
    _ = service := by rw [same, mode]

/-- A project that is replaced string by string and reads as it was, was not changed. -/
theorem Compose.mapVisited_of_reread {compose : Compose} (same : (compose.mapVisited f).reread = compose) :
    compose.mapVisited f = compose := by
  have services : (compose.mapVisited f).services = compose.services := by
    have both : (compose.services.mapValues (Service.mapVisited f)).mapValues Service.reread = compose.services :=
      congrArg Compose.services same
    rw [FiniteMap.mapValues_mapValues, mapValues_eq_self] at both
    exact mapValues_eq_self.mpr fun entry member => Service.mapVisited_of_reread (both entry member)
  calc compose.mapVisited f
      = { (compose.mapVisited f).reread with
          services := (compose.mapVisited f).services, extensions := compose.extensions } := rfl
    _ = compose := by rw [same, services]

end Replaced

section Printed
variable {crates : Crates}

theorem configValue_eq (compose : Compose) : configValue crates compose =
    .object ((compose.fields crates.formatDuration none).entries ++ compose.keptExtensions) := by
  have all : (compose.fields crates.formatDuration none).entries.filter (fun entry => ¬ "x-".toList <+: entry.1.toList) =
      (compose.fields crates.formatDuration none).entries := by
    refine List.filter_eq_self.mpr fun entry member => ?_
    obtain ⟨⟨name, value⟩, listed, made⟩ := List.mem_filterMap.mp member
    obtain ⟨value, rfl, rfl⟩ := Option.map_eq_some_iff.mp made
    have known : name ∈ Compose.fieldNames := List.mem_map_of_mem (f := Prod.fst) listed
    have plain : ∀ name ∈ Compose.fieldNames, ¬ "x-".toList <+: name.toList := by decide
    exact decide_eq_true (plain name known)
  rw [configValue, Compose.entries, List.filter_append, all, Compose.keptExtensions]

theorem toList_keptExtensions (compose : Compose) :
    (FiniteMap.ofList compose.keptExtensions).toList = compose.keptExtensions := by
  exact FiniteMap.toList_ofList ((FiniteMap.distinct_keys compose.extensions).sublist (List.filter_sublist.map Prod.fst))

theorem Compose.keptExtensions_reread (compose : Compose) : compose.reread.keptExtensions = compose.keptExtensions := by
  rw [Compose.keptExtensions, Compose.reread, toList_keptExtensions, Compose.keptExtensions, List.filter_filter]
  exact List.filter_congr fun entry _ => Bool.and_self _

theorem Service.toJson_reread (service : Service) (formatDuration : Nanoseconds → String) (nothing : Option Json) :
    service.reread.toJson formatDuration nothing = service.toJson formatDuration nothing := by
  have mode : service.reread.networkMode.map NetworkMode.toJson = service.networkMode.map NetworkMode.toJson := by
    rw [Service.reread, Option.map_map]
    refine Option.map_congr fun mode _ => ?_
    exact congrArg Json.string mode.text_reread
  rw [Service.toJson, Service.fields, mode]
  rfl

/-- What is printed is printed again. -/
theorem configValue_reread (compose : Compose) : configValue crates compose.reread = configValue crates compose := by
  have services (nothing : Option Json) : mapJson (Service.toJson crates.formatDuration nothing) compose.reread.services =
      mapJson (Service.toJson crates.formatDuration nothing) compose.services := by
    have size : compose.reread.services.size = compose.services.size := FiniteMap.size_mapValues _ _
    rw [mapJson, mapJson, size, tableJson, tableJson, Compose.reread, Compose.mapServices, toList_mapValues, List.map_map]
    simp only [Function.comp_def, Service.toJson_reread]
  rw [configValue_eq, configValue_eq, compose.keptExtensions_reread, Compose.fields, services]
  rfl

theorem ofJson_configValue (round : ∀ duration, crates.parseDuration (crates.formatDuration duration) = .ok duration)
    {compose : Compose} (parsed : compose.Parsed) :
    Compose.ofJson crates.parseDuration (configValue crates compose) = .ok compose.reread := by
  rw [configValue_eq]
  exact Compose.ofJson_fields round parsed.total none fun entry member => parsed.extensions entry (List.mem_of_mem_filter member)

theorem Service.reread_runsAs (service : Service) : service.reread.RunsAs service := by
  refine ⟨rfl, rfl, rfl, rfl, rfl, rfl, rfl, rfl, ?_, rfl, rfl, rfl⟩
  rw [Service.reread, Option.map_map]
  exact Option.map_congr fun mode _ => mode.text_reread

theorem runSpec_reread (projectName name : String) (service : Service) :
    runSpec crates.hash projectName name service.reread = runSpec crates.hash projectName name service := by
  have hash : crates.hash service.reread = crates.hash service := by
    rw [Crates.hash, serviceHash, serviceHash, Service.toJson_reread]
  have mode : service.reread.networkMode.isSome = service.networkMode.isSome := Option.isSome_map
  have alike := service.reread_runsAs
  simp only [runSpec, hash, mode, alike.networkMode]
  rfl

theorem plan_reread {compose : Compose} {opts : PlanOptions} {planned : Plan}
    (made : plan crates.hash compose opts = .ok planned) :
    ∃ planned', plan crates.hash compose.reread opts = .ok planned' ∧ planned'.ops = planned.ops := by
  have mapped : ∃ planned', plan crates.hash (compose.mapServices Service.reread) opts = .ok planned' ∧
      List.Forall₂ (RunsRelated Eq) planned.ops planned'.ops :=
    plan_mapped made Service.reread_runsAs
      fun projectName name service _ spec built => ⟨spec, by rw [runSpec_reread, built], rfl⟩
  obtain ⟨planned', made', similar⟩ := mapped
  refine ⟨planned', made', ?_⟩
  have equal : List.Forall₂ Eq planned.ops planned'.ops := similar.imp fun op op' related => by
    rcases related with same | ⟨spec, spec', rfl, rfl, rfl⟩
    · exact same
    · rfl
  exact (List.forall₂_eq_eq_eq ▸ equal : planned.ops = planned'.ops).symm

theorem parseStr_printed (round : ∀ duration, crates.parseDuration (crates.formatDuration duration) = .ok duration)
    {compose : Compose} (parsed : compose.Parsed) {text : String}
    (faithful : crates.parseToml text = .ok (configValue crates compose)) : parseStr crates text = .ok compose.reread := by
  refine parseStr_ok.mpr ⟨_, faithful, ofJson_configValue round parsed, validate_ok.mpr fun entry member => ?_⟩
  rw [Compose.reread, Compose.mapServices, toList_mapValues] at member
  obtain ⟨before, listed, rfl⟩ := List.mem_map.mp member
  exact parsed.imaged before listed

/-- The file printed for a loaded project loads, in every environment, to the same operations and the same project. -/
def Reloads (crates : Crates) (loaded : Loaded) (opts : PlanOptions) (text : String) : Prop :=
  ∀ env, ∃ again, load crates (utf8 text) env opts = .ok again ∧ again.plan.ops = loaded.plan.ops ∧
    configValue crates again.compose = configValue crates loaded.compose

theorem load_printed (round : ∀ duration, crates.parseDuration (crates.formatDuration duration) = .ok duration)
    {compose : Compose} (parsed : compose.Parsed) {text : String}
    (faithful : crates.parseToml text = .ok (configValue crates compose)) (short : (utf8 text).length ≤ readLimit)
    {env : EnvMap} {opts : PlanOptions} {again : Loaded} :
    load crates (utf8 text) env opts = .ok again ↔
      visitCompose compose.reread env = .ok again.compose ∧ plan crates.hash again.compose opts = .ok again.plan := by
  have read : ofUtf8 ((utf8 text).take readLimit) = some text := by rw [List.take_of_length_le short, ofUtf8_utf8]
  have once := parseStr_printed round parsed faithful
  rw [load_ok]
  constructor
  · rintro ⟨text', compose', read', parsed', visited, made⟩
    rw [read] at read'
    cases read'
    rw [once] at parsed'
    cases parsed'
    exact ⟨visited, made⟩
  · rintro ⟨visited, made⟩
    exact ⟨text, _, read, once, visited, made⟩

/-- A project that comes back from a visit where no variable is set has inert strings only. -/
theorem inert_of_visited (round : ∀ duration, crates.parseDuration (crates.formatDuration duration) = .ok duration)
    {compose after : Compose} (parsed : compose.Parsed) (visited : visitCompose compose.reread ∅ = .ok after)
    (kept : after.Parsed) (same : configValue crates after = configValue crates compose) : compose.Inert := by
  obtain ⟨succeeds, rfl⟩ := (visits_compose ∅ compose.reread after).mp visited
  have back := ofJson_configValue round kept
  rw [same, ofJson_configValue round parsed] at back
  have read : (compose.reread.mapVisited (expanded ∅)).reread = compose.reread := (Except.ok.inj back).symm
  have fixed := Compose.mapVisited_eq_self.mp (Compose.mapVisited_of_reread read)
  refine Compose.inert_reread.mp fun text member => expand_self_iff.mp ?_
  obtain ⟨result, expands⟩ := succeeds text member
  have same := fixed text member
  rw [expanded, settled_of_ok expands] at same
  exact same ▸ expands

/-- What `config` prints for a loaded project is read as it was printed. -/
def FaithfulTo (crates : Crates) (compose : Compose) : Prop :=
  ∀ text, config crates compose = .ok text → crates.parseToml text = .ok (configValue crates compose)

section Whole
variable {file : List UInt8} {env : EnvMap} {opts : PlanOptions} {loaded : Loaded} {text : String}
  (round : ∀ duration, crates.parseDuration (crates.formatDuration duration) = .ok duration)
  (made : load crates file env opts = .ok loaded) (printed : config crates loaded.compose = .ok text)
  (faithful : FaithfulTo crates loaded.compose) (short : (utf8 text).length ≤ readLimit)

include round made printed faithful short

theorem inert_of_reloads (reloads : Reloads crates loaded opts text) : loaded.compose.Inert := by
  have parsed := load_parsed made
  obtain ⟨again, loads, _, same⟩ := reloads ∅
  obtain ⟨visited, _⟩ := (load_printed round parsed (faithful text printed) short).mp loads
  exact inert_of_visited round parsed visited (load_parsed loads) same

theorem reloads_of_inert (inert : loaded.compose.Inert) : Reloads crates loaded opts text := by
  intro env'
  obtain ⟨text', compose', _, _, _, planned⟩ := load_ok.mp made
  obtain ⟨planned', again, ops⟩ := plan_reread planned
  have fixed : ∀ text ∈ loaded.compose.reread.visited, expand text env' = .ok text := fun text member =>
    expand_of_inert (Compose.inert_reread.mpr inert text member) env'
  have visited : visitCompose loaded.compose.reread env' = .ok loaded.compose.reread := by
    refine (visits_compose env' _ _).mpr ⟨fun text member => ⟨text, fixed text member⟩, ?_⟩
    exact (Compose.mapVisited_eq_self.mpr fun text member => settled_of_ok (fixed text member)).symm
  exact ⟨⟨loaded.compose.reread, planned'⟩,
    (load_printed round (load_parsed made) (faithful text printed) short).mpr ⟨visited, again⟩, ops,
    configValue_reread loaded.compose⟩

end Whole

end Printed

section Sample

def userText (user : String) : String :=
  "[services.app]\nimage = \"app\"\nrestart = \"no\"\nuser = \"" ++ user ++ "\"\n"

def userValue (user : String) : Json :=
  .object [("services", .object
    [("app", .object [("image", .string "app"), ("restart", .string "no"), ("user", .string user)])])]

def parseUser (text : String) : Except String Json :=
  match ["1000", "$$\x7bUID\x7d", "$\x7bUID\x7d"].find? (userText · = text) with
  | some user => .ok (userValue user)
  | none => .error "expected a user"

def printUser : Json → Except String String
  | .object [(_, .object [(_, .object [_, _, (_, .string user)])])] => .ok (userText user)
  | _ => .error "expected a user"

/-- The digests of the two services below. -/
def userDigest (bytes : List UInt8) : List UInt8 :=
  if bytes = utf8 (flatText (.object [("image", .string "app"), ("restart", .string "no"), ("user", .string "1000")])) then
    (Base16.decode16 "570b062df7e7e0055391633dd57e4fc2d486fc667c118d5fa18bb962a4f15859").getD []
  else (Base16.decode16 "6543ace6831597221aaa15addf3f0c7f654c3a8a7012b9d7d284bb9276dd1773").getD []

def userCrates : Crates :=
  ⟨parseUser, printUser, parseNanoseconds, printNanoseconds, flatJcs, userDigest⟩

def userApp (user : String) : Compose := appAs (some user)

theorem configValue_userApp (user : String) : configValue userCrates (userApp user) = userValue user := by
  rw [configValue_eq]
  rfl

theorem config_userApp (user : String) : config userCrates (userApp user) = .ok (userText user) := by
  rw [config, configValue_userApp]
  rfl

theorem userApp_parsed (user : String) : (userApp user).Parsed := by
  refine ⟨fun entry member => ?_, (fun _ member => nomatch member), fun entry member => ?_⟩
  · cases List.mem_singleton.mp member
    trivial
  · cases List.mem_singleton.mp member
    exact .inl rfl

theorem userApp_visited (user : String) : (userApp user).visited = ["app", user] := by
  have services : (userApp user).services.toList = [("app", { image := some "app", user := some user })] := rfl
  have networks : (userApp user).networks.toList = [] := rfl
  have volumes : (userApp user).volumes.toList = [] := rfl
  have secrets : (userApp user).secrets.toList = [] := rfl
  have configs : (userApp user).configs.toList = [] := rfl
  have project : (userApp user).projectName = none := rfl
  simp [Compose.visited, project, services, networks, volumes, secrets, configs, Service.visited, ServiceEnv.values]

theorem userApp_mapVisited (user : String) (f : String → String) : (userApp user).mapVisited f = { userApp user with
    services := AList.singleton "app" { image := some (f "app"), user := some (f user) } } := rfl

theorem userApp_faithful {user : String} (listed : parseUser (userText user) = .ok (userValue user)) :
    FaithfulTo userCrates (userApp user) := by
  intro text printed
  rw [config_userApp] at printed
  cases printed
  rw [configValue_userApp]
  exact listed

/-- A file that names a user loads to the service of the user that it expands to. -/
theorem userText_loads {written user : String} (listed : parseUser (userText written) = .ok (userValue written))
    (expands : expand written ∅ = .ok user) (short : (utf8 (userText written)).length ≤ readLimit) {planned : Plan}
    (made : plan userCrates.hash (userApp user) ⟨[], none, []⟩ = .ok planned) :
    load userCrates (utf8 (userText written)) ∅ ⟨[], none, []⟩ = .ok ⟨userApp user, planned⟩ := by
  have image : expand "app" ∅ = .ok "app" := by decide +kernel
  have read : userCrates.parseToml (userText written) = .ok (configValue userCrates (userApp written)) := by
    rw [configValue_userApp]
    exact listed
  have visited : visitCompose (userApp written) ∅ = .ok (userApp user) := by
    refine (visits_compose ∅ (userApp written) (userApp user)).mpr ⟨fun text member => ?_, ?_⟩
    · rw [userApp_visited] at member
      rcases List.mem_pair.mp member with rfl | rfl
      · exact ⟨_, image⟩
      · exact ⟨_, expands⟩
    · rw [userApp_mapVisited, settled_of_ok image, settled_of_ok expands]
      rfl
  exact (load_printed parseNanoseconds_print (userApp_parsed written) read short).mpr ⟨visited, made⟩

theorem userApp_inert {user : String} : (userApp user).Inert ↔ isInert user.toList = true := by
  have image : isInert "app".toList = true := by decide
  rw [Compose.Inert, userApp_visited, List.forall_mem_cons, List.forall_mem_singleton]
  exact ⟨And.right, fun inert => ⟨image, inert⟩⟩

theorem userApp_planned {user : String}
    (done : (plan userCrates.hash (userApp user) ⟨[], none, []⟩).isOk = true) :
    ∃ planned, plan userCrates.hash (userApp user) ⟨[], none, []⟩ = .ok planned := by
  cases made : plan userCrates.hash (userApp user) ⟨[], none, []⟩ with
  | error reason => rw [made] at done; cases done
  | ok planned => exact ⟨planned, rfl⟩

end Sample

end SelurCompose

end Burble
