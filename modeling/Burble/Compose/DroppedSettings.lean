import Burble.Bytes
import Burble.Compose.MappedServices
import Burble.Compose.Serialize

namespace Burble

mutual

/-- The strings of a value, the keys of its objects among them. -/
def Json.texts : Json → List String
  | .string text => [text]
  | .array items => Json.itemTexts items
  | .object entries => Json.entryTexts entries
  | _ => []

def Json.itemTexts : List Json → List String
  | [] => []
  | item :: rest => item.texts ++ Json.itemTexts rest

def Json.entryTexts : List (String × Json) → List String
  | [] => []
  | (key, value) :: rest => key :: value.texts ++ Json.entryTexts rest

end

theorem Json.mem_entryTexts {entries : List (String × Json)} {text : String} :
    text ∈ Json.entryTexts entries ↔ ∃ entry ∈ entries, text = entry.1 ∨ text ∈ entry.2.texts := by
  induction entries with
  | nil => simp [Json.entryTexts]
  | cons entry rest ih =>
    obtain ⟨key, value⟩ := entry
    simp [Json.entryTexts, ih, or_assoc]

namespace SelurCompose

def isNoncharacter (c : Char) : Bool := (0xFDD0 ≤ c.toNat && c.toNat ≤ 0xFDEF) || 0xFFFE ≤ c.toNat % 0x10000

def isPlain (text : String) : Bool := text.toList.all fun c => !isNoncharacter c

/-- Of the JSON forms of services the canonicaliser refuses those with a noncharacter in a string. -/
def RefusesNoncharacters (formatDuration : Nanoseconds → String) (toJcs : Json → Except String (List UInt8)) : Prop :=
  ∀ service : Service, (∃ bytes, toJcs (service.toJson formatDuration (some .null)) = .ok bytes) ↔
    ∀ text ∈ (service.toJson formatDuration (some .null)).texts, isPlain text = true

/-- The settings for the running container are the same; the forms of the environment may differ. -/
structure Service.SameSettings (service other : Service) : Prop where
  image : service.image = other.image
  command : service.command = other.command
  entrypoint : service.entrypoint = other.entrypoint
  environment : service.environment.strings = other.environment.strings
  envFile : service.envFile = other.envFile
  ports : service.ports = other.ports
  volumes : service.volumes = other.volumes
  networks : service.networks = other.networks
  healthcheck : service.healthcheck = other.healthcheck
  restart : service.restart = other.restart
  user : service.user = other.user
  workingDir : service.workingDir = other.workingDir
  hostname : service.hostname = other.hostname
  capAdd : service.capAdd = other.capAdd
  capDrop : service.capDrop = other.capDrop
  init : service.init = other.init
  stopSignal : service.stopSignal = other.stopSignal

/-- A run apart from the hash among its labels. -/
def RunSpec.withoutHash (spec : RunSpec) : RunSpec :=
  { spec with labels := AList.erase "io.podman.compose.config-hash" spec.labels }

/-- The run of a service tells its settings from those of the services of any project that are run alike. -/
def RunDetermines (hash : Service → Except String String) (planned : Plan) (name : String) (service : Service) : Prop :=
  ∀ project opts planned' name' service' spec spec', plan hash project opts = .ok planned' →
    (project.services.filterValues (Service.active opts.profiles)).lookup name' = some service' →
    Op.runContainer spec ∈ planned.ops → spec.service = name → Op.runContainer spec' ∈ planned'.ops →
    spec'.service = name' → spec.withoutHash = spec'.withoutHash → service.SameSettings service'

/-- A service with the other value of `init`. -/
def Service.toggleInit (service : Service) : Service :=
  { service with init := if service.init = some true then none else some true }

section Toggle
variable {formatDuration : Nanoseconds → String}

theorem texts_toggleInit {service : Service} {text : String}
    (member : text ∈ (service.toggleInit.toJson formatDuration (some .null)).texts) :
    text ∈ (service.toJson formatDuration (some .null)).texts ∨ text = "init" := by
  have fields : service.toggleInit.fields formatDuration (some .null) =
      (service.fields formatDuration (some .null)).set 21 ("init", service.toggleInit.init.map .bool) := rfl
  rw [Service.toJson, Fields.toJson, Json.texts, Json.mem_entryTexts] at member
  obtain ⟨⟨key, value⟩, among, here⟩ := member
  obtain ⟨⟨name, field⟩, listed, made⟩ := List.mem_filterMap.mp among
  obtain ⟨value, rfl, same⟩ := Option.map_eq_some_iff.mp made
  cases same
  rw [fields] at listed
  rcases List.mem_or_eq_of_mem_set listed with old | new
  · left
    rw [Service.toJson, Fields.toJson, Json.texts, Json.mem_entryTexts]
    exact ⟨(key, _), List.mem_filterMap.mpr ⟨_, old, rfl⟩, here⟩
  · obtain ⟨rfl, flag⟩ := Prod.mk.injEq _ _ _ _ ▸ new
    obtain ⟨init, _, rfl⟩ := Option.map_eq_some_iff.mp flag.symm
    exact here.elim .inr fun inside => (by cases inside)

theorem toggleInit_runsAs (service : Service) : service.toggleInit.RunsAs service :=
  ⟨rfl, rfl, rfl, rfl, rfl, rfl, rfl, rfl, rfl, rfl, rfl, rfl⟩

theorem toggleInit_ne (service : Service) : service.init ≠ service.toggleInit.init := by
  unfold Service.toggleInit
  split
  next on => rw [on]; exact nofun
  next off => exact off

theorem erase_insert {Item : Type} (entries : FiniteMap String Item) (key : String) (value : Item) :
    AList.erase key (AList.insert key value entries) = AList.erase key entries := by
  refine AList.ext ?_
  change List.kerase key (⟨key, value⟩ :: List.kerase key entries.entries) = List.kerase key entries.entries
  exact List.kerase_cons_eq rfl

variable {toJcs : Json → Except String (List UInt8)} {sha256 : List UInt8 → List UInt8}

theorem serviceHash_toggleInit (refuses : RefusesNoncharacters formatDuration toJcs) {service : Service} {hash : String}
    (hashed : serviceHash formatDuration toJcs sha256 service = .ok hash) :
    ∃ hash', serviceHash formatDuration toJcs sha256 service.toggleInit = .ok hash' := by
  obtain ⟨bytes, canonical, _⟩ := Fallible.bind_ok.mp hashed
  have plain := (refuses service).mp ⟨bytes, canonical⟩
  obtain ⟨bytes', canonical'⟩ := (refuses service.toggleInit).mpr fun text member => by
    rcases texts_toggleInit member with old | rfl
    · exact plain text old
    · decide
  exact ⟨_, Fallible.bind_ok.mpr ⟨bytes', canonical', rfl⟩⟩

/-- A service is run as another that the planner cannot tell from it, if both have hashes. -/
theorem runSpec_alike {hash : Service → Except String String} {projectName name : String} {service other : Service}
    {spec : RunSpec} (alike : other.RunsAs service)
    (hashes : ∀ value, hash service = .ok value → ∃ value', hash other = .ok value')
    (made : runSpec hash projectName name service = .ok spec) :
    ∃ spec', runSpec hash projectName name other = .ok spec' ∧ spec.withoutHash = spec'.withoutHash := by
  rw [runSpec] at made
  split at made
  · cases made
  next value hashed =>
    cases made
    obtain ⟨value', hashed'⟩ := hashes value hashed
    have mode : other.networkMode.isSome = service.networkMode.isSome := by
      rw [← Option.isSome_map (f := NetworkMode.text), alike.networkMode, Option.isSome_map]
    refine ⟨_, by rw [runSpec, hashed'], ?_⟩
    simp only [RunSpec.withoutHash, erase_insert, alike.image, alike.build, alike.command, alike.entrypoint,
      alike.environment, alike.ports, alike.volumes, alike.networks, alike.networkMode, alike.restart, mode]

variable {compose : Compose} {opts : PlanOptions} {planned : Plan} {name : String} {service : Service}

end Toggle

section Sample

/-- The canonical text of an object of strings whose keys are in order. -/
def flatText : Json → String
  | .object entries => "\x7b" ++ ",".intercalate (entries.map fun (key, value) =>
      match value with
      | .string text => s!"\"{key}\":\"{text}\""
      | _ => "") ++ "\x7d"
  | _ => ""

def flatJcs (json : Json) : Except String (List UInt8) :=
  if ∀ text ∈ json.texts, isPlain text = true then .ok (utf8 (flatText json)) else .error "noncharacter"

theorem flatJcs_refuses (formatDuration : Nanoseconds → String) : RefusesNoncharacters formatDuration flatJcs := by
  intro service
  unfold flatJcs
  split
  next plain => exact iff_of_true ⟨_, rfl⟩ plain
  next refused => exact iff_of_false (fun ⟨_, done⟩ => nomatch done) refused

/-- The digests of the two services below. -/
def appDigest (bytes : List UInt8) : List UInt8 :=
  if bytes = utf8 (flatText (.object [("image", .string "app"), ("restart", .string "no")])) then
    (Base16.decode16 "bb29f70bf4bcf1e731ecd43ca9d000cb80c5ed81b2489df53b6c1d2acf8a562e").getD []
  else (Base16.decode16 "570b062df7e7e0055391633dd57e4fc2d486fc667c118d5fa18bb962a4f15859").getD []

def appAs (user : Option String) : Compose :=
  { projectName := none, services := AList.singleton "app" { image := some "app", user := user } }

def appHash : Service → Except String String := serviceHash (fun _ => "30s") flatJcs appDigest

theorem appAs_planned (root : Bool) :
    ∃ planned, plan appHash (appAs (if root then none else some "1000")) ⟨[], none, []⟩ = .ok planned := by
  have planned : (plan appHash (appAs (if root then none else some "1000")) ⟨[], none, []⟩).isOk = true := by
    cases root <;> decide +kernel
  cases made : plan appHash (appAs (if root then none else some "1000")) ⟨[], none, []⟩ with
  | error reason => rw [made] at planned; cases planned
  | ok found => exact ⟨found, rfl⟩

end Sample

end SelurCompose

end Burble
