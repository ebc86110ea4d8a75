import Burble.Compose.Visit

namespace Burble.SelurCompose

/-! The strings of a project: the values of its string-typed fields, save paths, table keys, dependencies and extensions. -/

def mapTexts (f : String → String) (entries : FiniteMap String String) : FiniteMap String String := entries.mapValues f

def texts (entries : FiniteMap String String) : List String := entries.toList.map Prod.snd

def StringOrList.strings : StringOrList → List String
  | string text => [text]
  | list items => items

def StringOrList.mapStrings (f : String → String) : StringOrList → StringOrList
  | string text => .string (f text)
  | list items => .list (items.map f)

def ServiceEnv.values : ServiceEnv → List String
  | empty => []
  | list items => items
  | map entries => entries.toList.flatMap fun entry => entry.2.toList

def ServiceEnv.mapStrings (f : String → String) : ServiceEnv → ServiceEnv
  | empty => .empty
  | list items => .list (items.map f)
  | map entries => .map (entries.mapValues fun value => value.map f)

def Build.strings (build : Build) : List String := texts build.args ++ build.target.toList ++ texts build.labels

def Build.mapStrings (f : String → String) (build : Build) : Build :=
  { build with args := mapTexts f build.args, target := build.target.map f, labels := mapTexts f build.labels }

def PortBinding.strings : PortBinding → List String
  | short text => [text]
  | long port => port.hostIp.toList ++ port.published.toList ++ port.protocol.toList

def PortBinding.mapStrings (f : String → String) : PortBinding → PortBinding
  | short text => .short (f text)
  | long port => .long { port with
      hostIp := port.hostIp.map f, published := port.published.map f, protocol := port.protocol.map f }

def BindOptions.mapStrings (f : String → String) (bind : BindOptions) : BindOptions :=
  { bind with propagation := bind.propagation.map f }

def MountLong.strings (mount : MountLong) : List String :=
  mount.mountType :: mount.bind.toList.flatMap fun bind => bind.propagation.toList

def MountLong.mapStrings (f : String → String) (mount : MountLong) : MountLong :=
  { mount with mountType := f mount.mountType, bind := mount.bind.map (BindOptions.mapStrings f) }

def MountSpec.mapStrings (f : String → String) : MountSpec → MountSpec
  | short text => .short (f text)
  | long mount => .long (mount.mapStrings f)

def NetworkMode.strings : NetworkMode → List String
  | container id => [id]
  | custom name => [name]
  | _ => []

def NetworkMode.mapStrings (f : String → String) : NetworkMode → NetworkMode
  | container id => .container (f id)
  | custom name => .custom (f name)
  | other => other

def HealthcheckTest.strings : HealthcheckTest → List String
  | shell text => [text]
  | exec items => items

def HealthcheckTest.mapStrings (f : String → String) : HealthcheckTest → HealthcheckTest
  | shell text => .shell (f text)
  | exec items => .exec (items.map f)

def Healthcheck.mapStrings (f : String → String) (check : Healthcheck) : Healthcheck :=
  { check with test := check.test.mapStrings f }

def SecretRef.strings : SecretRef → List String
  | name secret => [secret]
  | long ref => ref.source :: (ref.uid.toList ++ ref.gid.toList)

def SecretRef.mapStrings (f : String → String) : SecretRef → SecretRef
  | name secret => .name (f secret)
  | long ref => .long { ref with source := f ref.source, uid := ref.uid.map f, gid := ref.gid.map f }

def Service.mapStrings (f : String → String) (service : Service) : Service :=
  { service with
    image := service.image.map f
    build := service.build.map (Build.mapStrings f)
    command := service.command.map (StringOrList.mapStrings f)
    entrypoint := service.entrypoint.map (StringOrList.mapStrings f)
    environment := service.environment.mapStrings f
    ports := service.ports.map (PortBinding.mapStrings f)
    volumes := service.volumes.map (MountSpec.mapStrings f)
    networks := service.networks.map f
    networkMode := service.networkMode.map (NetworkMode.mapStrings f)
    healthcheck := service.healthcheck.map (Healthcheck.mapStrings f)
    profiles := service.profiles.map f
    secrets := service.secrets.map (SecretRef.mapStrings f)
    configs := service.configs.map (SecretRef.mapStrings f)
    user := service.user.map f
    workingDir := service.workingDir.map f
    hostname := service.hostname.map f
    capAdd := service.capAdd.map f
    capDrop := service.capDrop.map f
    stopSignal := service.stopSignal.map f }

def Ipam.strings (ipam : Ipam) : List String := ipam.driver.toList ++ ipam.config.flatMap texts

def Ipam.mapStrings (f : String → String) (ipam : Ipam) : Ipam :=
  { driver := ipam.driver.map f, config := ipam.config.map (mapTexts f) }

def Network.mapStrings (f : String → String) (network : Network) : Network :=
  { network with
    driver := network.driver.map f
    driverOpts := mapTexts f network.driverOpts
    name := network.name.map f
    ipam := network.ipam.map (Ipam.mapStrings f)
    labels := mapTexts f network.labels }

def Volume.strings (volume : Volume) : List String :=
  volume.driver.toList ++ texts volume.driverOpts ++ volume.name.toList ++ texts volume.labels

def Volume.mapStrings (f : String → String) (volume : Volume) : Volume :=
  { volume with
    driver := volume.driver.map f
    driverOpts := mapTexts f volume.driverOpts
    name := volume.name.map f
    labels := mapTexts f volume.labels }

def Secret.mapStrings (f : String → String) (secret : Secret) : Secret := { secret with name := secret.name.map f }

def Compose.mapStrings (f : String → String) (compose : Compose) : Compose :=
  { compose with
    projectName := compose.projectName.map f
    services := compose.services.mapValues (Service.mapStrings f)
    networks := compose.networks.mapValues (Network.mapStrings f)
    volumes := compose.volumes.mapValues (Volume.mapStrings f)
    secrets := compose.secrets.mapValues (Secret.mapStrings f)
    configs := compose.configs.mapValues (Secret.mapStrings f) }

/-! The strings that are visited, and those that are passed over: of ports, mounts in long form and IPAM. -/

def MountSpec.visited : MountSpec → List String
  | short text => [text]
  | long _ => []

def MountSpec.unvisited : MountSpec → List String
  | short _ => []
  | long mount => mount.strings

def MountSpec.mapVisited (f : String → String) : MountSpec → MountSpec
  | short text => .short (f text)
  | long mount => .long mount

def Service.visited (service : Service) : List String :=
  service.image.toList ++ service.build.toList.flatMap Build.strings ++
    service.command.toList.flatMap StringOrList.strings ++ service.entrypoint.toList.flatMap StringOrList.strings ++
    service.environment.values ++ service.volumes.flatMap MountSpec.visited ++ service.networks ++
    service.networkMode.toList.flatMap NetworkMode.strings ++
    (service.healthcheck.toList.flatMap fun check => check.test.strings) ++ service.profiles ++
    service.secrets.flatMap SecretRef.strings ++ service.configs.flatMap SecretRef.strings ++ service.user.toList ++
    service.workingDir.toList ++ service.hostname.toList ++ service.capAdd ++ service.capDrop ++
    service.stopSignal.toList

def Service.unvisited (service : Service) : List String :=
  service.ports.flatMap PortBinding.strings ++ service.volumes.flatMap MountSpec.unvisited

def Service.mapVisited (f : String → String) (service : Service) : Service :=
  { service.mapStrings f with ports := service.ports, volumes := service.volumes.map (MountSpec.mapVisited f) }

def Network.visited (network : Network) : List String :=
  network.driver.toList ++ texts network.driverOpts ++ network.name.toList ++ texts network.labels

def Network.unvisited (network : Network) : List String := network.ipam.toList.flatMap Ipam.strings

def Network.mapVisited (f : String → String) (network : Network) : Network :=
  { network.mapStrings f with ipam := network.ipam }

def Compose.visited (compose : Compose) : List String :=
  compose.projectName.toList ++ (compose.services.toList.flatMap fun entry => entry.2.visited) ++
    (compose.networks.toList.flatMap fun entry => entry.2.visited) ++
    (compose.volumes.toList.flatMap fun entry => entry.2.strings) ++
    (compose.secrets.toList.flatMap fun entry => entry.2.name.toList) ++
    (compose.configs.toList.flatMap fun entry => entry.2.name.toList)

def Compose.unvisited (compose : Compose) : List String :=
  (compose.services.toList.flatMap fun entry => entry.2.unvisited) ++
    (compose.networks.toList.flatMap fun entry => entry.2.unvisited)

def Compose.mapVisited (f : String → String) (compose : Compose) : Compose :=
  { compose.mapStrings f with
    services := compose.services.mapValues (Service.mapVisited f)
    networks := compose.networks.mapValues (Network.mapVisited f) }

def Compose.strings (compose : Compose) : List String := compose.visited ++ compose.unvisited

section Visits
variable (env : EnvMap)

/-- An expansion for every string, which stays where it fails. -/
abbrev expanded : String → String := settled (expand · env)

abbrev Expands (text : String) : Prop := Succeeds (expand · env) text

abbrev VisitsStrings {Item : Type} (visit : Item → EnvMap → Except InterpError Item) (strings : Item → List String)
    (mapStrings : (String → String) → Item → Item) : Prop :=
  Visits (expand · env) (visit · env) strings mapStrings

theorem visits_stringOrList : VisitsStrings env visitStringOrList StringOrList.strings StringOrList.mapStrings := by
  intro before after
  cases before with
  | string text => exact (Visits.part (expand · env)).wrap StringOrList.string text after
  | list items => exact (Visits.all (expand · env)).wrap StringOrList.list items after

theorem visits_env : VisitsStrings env visitEnvMap ServiceEnv.values ServiceEnv.mapStrings := by
  intro before after
  cases before with
  | empty => exact Visits.skip
  | list items => exact (Visits.all (expand · env)).wrap ServiceEnv.list items after
  | map entries => exact ((Visits.optionalPart (expand · env)).values String).wrap ServiceEnv.map entries after

theorem visits_mount : VisitsStrings env visitMount MountSpec.visited MountSpec.mapVisited := by
  intro before after
  cases before with
  | short text => exact (Visits.part (expand · env)).wrap MountSpec.short text after
  | long mount => exact Visits.skip

theorem visits_networkMode : VisitsStrings env visitNetworkMode NetworkMode.strings NetworkMode.mapStrings := by
  intro before after
  cases before with
  | custom name => exact (Visits.part (expand · env)).wrap NetworkMode.custom name after
  | container id => exact (Visits.part (expand · env)).wrap NetworkMode.container id after
  | bridge | host | none => exact Visits.skip

theorem visits_healthcheckTest :
    VisitsStrings env visitHealthcheckTest HealthcheckTest.strings HealthcheckTest.mapStrings := by
  intro before after
  cases before with
  | shell text => exact (Visits.part (expand · env)).wrap HealthcheckTest.shell text after
  | exec items => exact (Visits.all (expand · env)).wrap HealthcheckTest.exec items after

theorem visits_healthcheck :
    VisitsStrings env visitHealthcheck (fun check => check.test.strings) Healthcheck.mapStrings := by
  intro before after
  exact (visits_healthcheckTest env).wrap (fun test => ({ before with test := test } : Healthcheck)) before.test after

theorem visits_build : VisitsStrings env visitBuild Build.strings Build.mapStrings := by
  intro before after
  have optional := (Visits.optionalPart (expand · env)).bind Build
  have maps := (Visits.partValues (expand · env) String).bind Build
  simp only [visitBuild, maps, optional, Build.strings, texts, List.forall_mem_append, and_assoc]
  simp only [pure, Except.pure, ok_iff]
  rfl

theorem visits_network : VisitsStrings env visitNetwork Network.visited Network.mapVisited := by
  intro before after
  have optional := (Visits.optionalPart (expand · env)).bind Network
  have maps := (Visits.partValues (expand · env) String).bind Network
  simp only [visitNetwork, maps, optional, Network.visited, texts, List.forall_mem_append, and_assoc]
  simp only [pure, Except.pure, ok_iff]
  rfl

theorem visits_volume : VisitsStrings env visitVolume Volume.strings Volume.mapStrings := by
  intro before after
  have optional := (Visits.optionalPart (expand · env)).bind Volume
  have maps := (Visits.partValues (expand · env) String).bind Volume
  simp only [visitVolume, maps, optional, Volume.strings, texts, List.forall_mem_append, and_assoc]
  simp only [pure, Except.pure, ok_iff]
  rfl

theorem visits_secret : VisitsStrings env visitSecret (fun secret => secret.name.toList) Secret.mapStrings := by
  intro before after
  exact (Visits.optionalPart (expand · env)).wrap (fun name => ({ before with name := name } : Secret)) before.name after

theorem visits_secretRef : VisitsStrings env visitSecretRef SecretRef.strings SecretRef.mapStrings := by
  intro before after
  cases before with
  | name secret => exact (Visits.part (expand · env)).wrap SecretRef.name secret after
  | long ref =>
    have one := (Visits.part (expand · env)).bind SecretRef
    have optional := (Visits.optionalPart (expand · env)).bind SecretRef
    simp only [visitSecretRef, one, optional, SecretRef.strings, List.forall_mem_cons, List.forall_mem_append,
      List.not_mem_nil, false_imp_iff, implies_true, and_true, and_assoc]
    simp only [pure, Except.pure, ok_iff]
    rfl

theorem visits_service : VisitsStrings env visitService Service.visited Service.mapVisited := by
  intro before after
  have optional := (Visits.optionalPart (expand · env)).bind Service
  have all := (Visits.all (expand · env)).bind Service
  have builds := (visits_build env).option.bind Service
  have commands := (visits_stringOrList env).option.bind Service
  have environments := (visits_env env).bind Service
  have mounts := (visits_mount env).list.bind Service
  have modes := (visits_networkMode env).option.bind Service
  have checks := (visits_healthcheck env).option.bind Service
  have refs := (visits_secretRef env).list.bind Service
  have same (dependsOn : DependsOn) (next : DependsOn → Except InterpError Service) :
      (visitDependsOn dependsOn env >>= next) = next dependsOn := rfl
  simp only [visitService, visitConfigRef, optional, all, builds, commands, environments, mounts, modes, checks, refs,
    same, Service.visited, List.forall_mem_append, and_assoc]
  simp only [pure, Except.pure, ok_iff]
  rfl

theorem visits_compose : VisitsStrings env visitCompose Compose.visited Compose.mapVisited := by
  intro before after
  have project := (Visits.optionalPart (expand · env)).bind Compose
  have services := ((visits_service env).values String).bind Compose
  have networks := ((visits_network env).values String).bind Compose
  have volumes := ((visits_volume env).values String).bind Compose
  have secrets := ((visits_secret env).values String).bind Compose
  simp only [visitCompose, visitProject, visitConfigDef, project, services, networks, volumes, secrets,
    Compose.visited, List.forall_mem_append, and_assoc]
  simp only [pure, Except.pure, ok_iff]
  rfl

end Visits

section Unvisited
variable {f : String → String}

theorem mapTexts_eq_self {entries : FiniteMap String String} :
    mapTexts f entries = entries ↔ ∀ text ∈ texts entries, f text = text := by
  have same : entries = entries.mapValues fun text => text := AList.ext (by simp [FiniteMap.mapValues])
  rw [mapTexts, texts, List.forall_mem_map]
  nth_rewrite 2 [same]
  exact FiniteMap.mapValues_eq_iff

theorem map_eq_self {Item : Type} {change : Item → Item} {items : List Item} :
    items.map change = items ↔ ∀ item ∈ items, change item = item := by
  nth_rewrite 2 [← List.map_id items]
  exact List.map_inj_left

theorem optionMap_eq_self {Item : Type} {change : Item → Item} {item : Option Item} :
    item.map change = item ↔ ∀ inner ∈ item.toList, change inner = inner := by
  cases item <;> simp

theorem PortBinding.mapStrings_eq_self {port : PortBinding} :
    port.mapStrings f = port ↔ ∀ text ∈ port.strings, f text = text := by
  cases port with
  | short text => simp [PortBinding.mapStrings, PortBinding.strings]
  | long port =>
    obtain ⟨hostIp, target, published, protocol⟩ := port
    simp only [PortBinding.mapStrings, PortBinding.strings, PortBinding.long.injEq, PortLong.mk.injEq,
      optionMap_eq_self, List.forall_mem_append, true_and, and_assoc]

theorem MountSpec.mapStrings_eq_visited {mount : MountSpec} :
    mount.mapVisited f = mount.mapStrings f ↔ ∀ text ∈ mount.unvisited, f text = text := by
  cases mount with
  | short text => simp [MountSpec.mapVisited, MountSpec.mapStrings, MountSpec.unvisited]
  | long mount =>
    obtain ⟨mountType, source, target, readOnly, bind, volume⟩ := mount
    have binds : bind = bind.map (BindOptions.mapStrings f) ↔
        ∀ text ∈ bind.toList.flatMap fun bind => bind.propagation.toList, f text = text := by
      rw [eq_comm, optionMap_eq_self]
      cases bind with
      | none => simp
      | some bind =>
        obtain ⟨propagation, createHostPath⟩ := bind
        simp [BindOptions.mapStrings, optionMap_eq_self]
    simp only [MountSpec.mapVisited, MountSpec.mapStrings, MountSpec.unvisited, MountLong.mapStrings,
      MountLong.strings, MountSpec.long.injEq, MountLong.mk.injEq, binds, true_and, and_true, List.forall_mem_cons,
      eq_comm (a := mountType)]

theorem Service.mapStrings_eq_visited {service : Service} :
    service.mapVisited f = service.mapStrings f ↔ ∀ text ∈ service.unvisited, f text = text := by
  have ports : service.ports = service.ports.map (PortBinding.mapStrings f) ↔
      ∀ text ∈ service.ports.flatMap PortBinding.strings, f text = text := by
    rw [eq_comm, map_eq_self]
    simp only [PortBinding.mapStrings_eq_self, List.forall_mem_flatMap]
  have volumes : service.volumes.map (MountSpec.mapVisited f) = service.volumes.map (MountSpec.mapStrings f) ↔
      ∀ text ∈ service.volumes.flatMap MountSpec.unvisited, f text = text := by
    rw [List.map_inj_left]
    simp only [MountSpec.mapStrings_eq_visited, List.forall_mem_flatMap]
  simp only [Service.mapVisited, Service.mapStrings, Service.mk.injEq, ports, volumes, Service.unvisited,
    List.forall_mem_append, true_and, and_true]

theorem Ipam.mapStrings_eq_self {ipam : Ipam} : ipam.mapStrings f = ipam ↔ ∀ text ∈ ipam.strings, f text = text := by
  obtain ⟨driver, config⟩ := ipam
  simp only [Ipam.mapStrings, Ipam.strings, Ipam.mk.injEq, optionMap_eq_self, map_eq_self, mapTexts_eq_self,
    List.forall_mem_append, List.forall_mem_flatMap]

theorem Network.mapStrings_eq_visited {network : Network} :
    network.mapVisited f = network.mapStrings f ↔ ∀ text ∈ network.unvisited, f text = text := by
  have ipam : network.ipam = network.ipam.map (Ipam.mapStrings f) ↔
      ∀ text ∈ network.ipam.toList.flatMap Ipam.strings, f text = text := by
    rw [eq_comm, optionMap_eq_self]
    simp only [Ipam.mapStrings_eq_self, List.forall_mem_flatMap]
  simp only [Network.mapVisited, Network.mapStrings, Network.mk.injEq, ipam, Network.unvisited, true_and, and_true]

theorem Compose.mapStrings_eq_visited {compose : Compose} :
    compose.mapVisited f = compose.mapStrings f ↔ ∀ text ∈ compose.unvisited, f text = text := by
  simp only [Compose.mapVisited, Compose.mapStrings, Compose.mk.injEq, FiniteMap.mapValues_eq_iff,
    Service.mapStrings_eq_visited, Network.mapStrings_eq_visited, Compose.unvisited, List.forall_mem_append,
    List.forall_mem_flatMap, true_and, and_true]

end Unvisited

section Reach
variable (compose : Compose) (env : EnvMap)

/-- A visit fails where the expansion of a string does, and else every string is replaced by its expansion. -/
def ReachesEveryString : Prop :=
  ((∃ reason, visitCompose compose env = .error reason) ↔ ∃ text ∈ compose.strings, ¬ Expands env text) ∧
    ∀ after, visitCompose compose env = .ok after → after = compose.mapStrings (expanded env)

theorem visitCompose_fails_iff :
    (∃ reason, visitCompose compose env = .error reason) ↔ ∃ text ∈ compose.visited, ¬ Expands env text := by
  have visits := visits_compose env compose
  constructor
  · rintro ⟨reason, failed⟩
    by_contra all
    push Not at all
    exact nomatch failed.symm.trans ((visits _).mpr ⟨all, rfl⟩)
  · rintro ⟨text, member, fails⟩
    cases made : visitCompose compose env with
    | error reason => exact ⟨reason, rfl⟩
    | ok after => exact absurd (((visits after).mp made).1 text member) fails

/-- Every string is reached where a visited one does not expand, and where all that are passed over expand to themselves. -/
theorem reachesEveryString_iff : ReachesEveryString compose env ↔
    (∃ text ∈ compose.visited, ¬ Expands env text) ∨ ∀ text ∈ compose.unvisited, expand text env = .ok text := by
  have visits := visits_compose env compose
  unfold ReachesEveryString
  rw [visitCompose_fails_iff]
  by_cases fails : ∃ text ∈ compose.visited, ¬ Expands env text
  · obtain ⟨text, member, fails⟩ := fails
    refine iff_of_true ⟨iff_of_true ⟨text, member, fails⟩ ⟨text, List.mem_append_left _ member, fails⟩, ?_⟩
      (.inl ⟨text, member, fails⟩)
    intro after made
    exact absurd (((visits after).mp made).1 text member) fails
  · have all : ∀ text ∈ compose.visited, Expands env text := by
      push Not at fails
      exact fails
    have made := (visits _).mpr ⟨all, rfl⟩
    constructor
    · rintro ⟨sameFailures, reached⟩
      have replaced := Compose.mapStrings_eq_visited.mp (reached _ made)
      refine .inr fun text member => ?_
      have succeeds : Expands env text := by
        by_contra stuck
        exact fails (sameFailures.mpr ⟨text, List.mem_append_right _ member, stuck⟩)
      obtain ⟨result, done⟩ := succeeds
      have same : result = text := (settled_of_ok done).symm.trans (replaced text member)
      exact same ▸ done
    · rintro (failing | kept)
      · exact absurd failing fails
      · refine ⟨iff_of_false fails ?_, fun after done => ?_⟩
        · rintro ⟨text, member, stuck⟩
          rcases List.mem_append.mp member with seen | skipped
          · exact stuck (all text seen)
          · exact stuck ⟨text, kept text skipped⟩
        · rw [((visits after).mp done).2]
          exact Compose.mapStrings_eq_visited.mpr fun text member => settled_of_ok (kept text member)

end Reach

/-- A service that publishes a port named by a variable. -/
def onPort : Compose :=
  { projectName := none, services := AList.singleton "web" { image := some "web", ports := [.short "${PORT}:80"] } }

theorem port_not_reached : ¬ ReachesEveryString onPort (AList.singleton "PORT" "8080") := by
  rintro ⟨-, reached⟩
  have all : ∀ text ∈ onPort.visited, Expands (AList.singleton "PORT" "8080") text := by
    intro text member
    have same : text = "web" := List.mem_singleton.mp member
    exact same ▸ ⟨"web", by decide +kernel⟩
  have made := (visits_compose _ onPort _).mpr ⟨all, rfl⟩
  have kept := Compose.mapStrings_eq_visited.mp (reached _ made) "${PORT}:80" (List.mem_singleton.mpr rfl)
  have value : expand "${PORT}:80" (AList.singleton "PORT" "8080") = .ok "8080:80" := by decide +kernel
  exact absurd (kept.symm.trans (settled_of_ok value)) (by decide)

end Burble.SelurCompose
