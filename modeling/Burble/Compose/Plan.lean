import Burble.Compose.Dag

namespace Burble.SelurCompose

structure NetworkSpec where
  name : String
  driver : Option String
  labels : FiniteMap String String

structure VolumeSpec where
  name : String
  driver : Option String
  labels : FiniteMap String String

structure BuildSpec where
  service : String
  context : PathBuf
  dockerfile : Option PathBuf
  args : FiniteMap String String
  target : Option String
  tag : String
  noCache : Bool

structure PullSpec where
  service : String
  image : String

structure RunSpec where
  service : String
  image : String
  containerName : String
  environment : List String
  ports : List String
  volumes : List String
  networks : List String
  networkMode : Option String
  command : Option (List String)
  entrypoint : Option (List String)
  restart : String
  labels : FiniteMap String String

structure WaitHealthySpec where
  service : String
  containerName : String

structure StopSpec where
  service : String
  containerName : String
  timeoutSecs : Nat

structure RemoveSpec where
  service : String
  containerName : String
  force : Bool

inductive Op
  | createNetwork (spec : NetworkSpec)
  | createVolume (spec : VolumeSpec)
  | buildImage (spec : BuildSpec)
  | pullImage (spec : PullSpec)
  | runContainer (spec : RunSpec)
  | waitHealthy (spec : WaitHealthySpec)
  | stopContainer (spec : StopSpec)
  | removeContainer (spec : RemoveSpec)

structure PlanOptions where
  profiles : List String
  projectName : Option String
  services : List String

structure Plan where
  ops : List Op
  waves : List (List NodeId)
  projectName : String

def Service.active (enabledProfiles : List String) (service : Service) : Bool :=
  service.profiles.isEmpty || service.profiles.any fun profile => profile ∈ enabledProfiles

def filterServices (compose : Compose) (enabledProfiles : List String) : Except PlanError ActiveServices :=
  let allProfiles := compose.services.toList.flatMap fun entry => entry.2.profiles
  match enabledProfiles.find? fun profile => profile ∉ allProfiles with
  | some profile => .error (.unknownProfile profile)
  | none => .ok (compose.services.filterValues (Service.active enabledProfiles))

/-- The implicit network is always there, the others when they are declared. -/
def checkNetwork (compose : Compose) (service network : String) : Except PlanError Unit :=
  if network = "default" then .ok ()
  else if compose.networks.size ≠ 0 ∧ network ∉ compose.networks.keys then .error (.unknownNetwork service network)
  else if compose.networks.size = 0 then .error (.unknownNetwork service network)
  else .ok ()

/-- Short mounts from no path and long ones of type volume are of declared volumes. -/
def checkMount (compose : Compose) (service : String) : MountSpec → Except PlanError Unit
  | .short text =>
    let source := String.ofList (text.toList.takeWhile fun c => c != ':')
    let isBind := source.startsWith "." || source.startsWith "/"
    if !isBind && source ∉ compose.volumes.keys then .error (.unknownVolume service source) else .ok ()
  | .long mount =>
    match mount.source with
    | some source =>
      if mount.mountType = "volume" ∧ source ∉ compose.volumes.keys then .error (.unknownVolume service source)
      else .ok ()
    | none => .ok ()

def validateReferences (compose : Compose) (activeServices : ActiveServices) : Except PlanError Unit :=
  activeServices.toList.forM fun (name, service) => do
    service.networks.forM (checkNetwork compose name)
    service.volumes.forM (checkMount compose name)

/-- Indexing by a name that is there. -/
def ActiveServices.get (activeServices : ActiveServices) (name : String) : Service :=
  (activeServices.lookup name).getD default

def projectLabel (projectName : String) : FiniteMap String String :=
  AList.singleton "io.podman.compose.project" projectName

def networkOps (projectName : String) (compose : Compose) : List Op :=
  compose.networks.toList.map fun (name, network) => .createNetwork ⟨name, network.driver, projectLabel projectName⟩

def volumeOps (projectName : String) (compose : Compose) : List Op :=
  compose.volumes.toList.map fun (name, volume) => .createVolume ⟨name, volume.driver, projectLabel projectName⟩

def buildTag (projectName name : String) : String := s!"{projectName}_{name}:latest"

def containerName (projectName name : String) : String := s!"{projectName}_{name}"

/-- A build, or else a pull. -/
def imageOp (projectName name : String) (service : Service) : Option Op :=
  match service.build, service.image with
  | some build, _ => some (.buildImage
      { service := name, context := build.context, dockerfile := build.dockerfile, args := build.args,
        target := build.target, tag := buildTag projectName name, noCache := build.noCache })
  | none, some image => some (.pullImage ⟨name, image⟩)
  | none, none => none

def imageOps (projectName : String) (activeServices : ActiveServices) : List Op :=
  activeServices.toList.filterMap fun (name, service) => imageOp projectName name service

def ServiceEnv.strings : ServiceEnv → List String
  | empty => []
  | list items => items
  | map entries => entries.toList.map fun (key, value) =>
    match value with
    | some value => s!"{key}={value}"
    | none => key

def PortBinding.text : PortBinding → String
  | short text => text
  | long port =>
    let proto := port.protocol.getD "tcp"
    match port.hostIp, port.published with
    | some ip, some published => s!"{ip}:{published}:{port.target}/{proto}"
    | none, some published => s!"{published}:{port.target}/{proto}"
    | _, _ => s!"{port.target}/{proto}"

def MountSpec.text : MountSpec → String
  | short text => text
  | long mount =>
    let source := mount.source.getD ""
    if mount.readOnly then s!"{source}:{mount.target}:ro" else s!"{source}:{mount.target}"

def NetworkMode.text : NetworkMode → String
  | bridge => "bridge"
  | host => "host"
  | none => "none"
  | container id => s!"container:{id}"
  | custom name => name

def StringOrList.items : StringOrList → List String
  | string text => [text]
  | list items => items

def RestartPolicy.text : RestartPolicy → String
  | no => "no"
  | always => "always"
  | onFailure => "on-failure"
  | unlessStopped => "unless-stopped"

section Hashing
variable (serviceHash : Service → Except String String)

def runSpec (projectName name : String) (service : Service) : Except PlanError RunSpec :=
  match serviceHash service with
  | .error source => .error (.configHash name source)
  | .ok configHash => .ok
    { service := name
      image := if service.build.isSome then buildTag projectName name else service.image.getD ""
      containerName := containerName projectName name
      environment := service.environment.strings
      ports := service.ports.map PortBinding.text
      volumes := service.volumes.map MountSpec.text
      networks := if service.networkMode.isSome then [] else service.networks
      networkMode := service.networkMode.map NetworkMode.text
      command := service.command.map StringOrList.items
      entrypoint := service.entrypoint.map StringOrList.items
      restart := service.restart.text
      labels := AList.insert "io.podman.compose.config-hash" configHash
        (AList.insert "io.podman.compose.service" name (projectLabel projectName)) }

/-- A wait, unless there has been one for that service. -/
def emitWait (projectName : String) (state : List Op × List String) (dep : String) : List Op × List String :=
  if dep ∈ state.2 then state
  else (state.1 ++ [.waitHealthy ⟨dep, containerName projectName dep⟩], dep :: state.2)

def waitOps (projectName : String) (activeServices : ActiveServices) (names : List String) (emitted : List String) :
    List Op × List String :=
  (names.flatMap fun name => healthyDependencies (activeServices.get name)).foldl (emitWait projectName) ([], emitted)

def runOps (projectName : String) (activeServices : ActiveServices) (names : List String) : Except PlanError (List Op) :=
  names.mapM fun name => do
    let spec ← runSpec serviceHash projectName name (activeServices.get name)
    return .runContainer spec

/-- For each wave the waits that are still missing, then the runs. -/
def waveOps (projectName : String) (activeServices : ActiveServices) :
    List (List String) → List String → Except PlanError (List Op)
  | [], _ => .ok []
  | names :: rest, emitted => do
    let (waits, emitted) := waitOps projectName activeServices names emitted
    let runs ← runOps serviceHash projectName activeServices names
    let later ← waveOps projectName activeServices rest emitted
    .ok (waits ++ runs ++ later)

def plan (compose : Compose) (opts : PlanOptions) : Except PlanError Plan := do
  let projectName := (opts.projectName.or compose.projectName).getD "project"
  let activeServices ← filterServices compose opts.profiles
  match opts.services.find? fun service => service ∉ activeServices.keys with
  | some service => .error (.unknownService service)
  | none =>
    validateReferences compose activeServices
    let graph ← buildGraph activeServices
    let waves ← topologicalWaves graph
    let runs ← waveOps serviceHash projectName activeServices (waves.map fun wave => wave.map graph.name) []
    .ok ⟨networkOps projectName compose ++ volumeOps projectName compose ++ imageOps projectName activeServices ++ runs,
      waves, projectName⟩

end Hashing

end Burble.SelurCompose
